import Mathlib.Logic.Function.Basic
import Geofastmap.Sql.Text

/-!
# Geofastmap.Tiles.Install

What a tile build does to the files and to the row of `collection_tiles` (`tile_builder.py`,
`composite_tile_builder.py`, `tile_build_verify.py`). The export, tippecanoe and the file system may
fail at each step, and the user may cancel the export and tippecanoe.

`keeps_served_iff` : a build that fails keeps the tiles that are served, except that the new archive
is verified after it has replaced the old one, and that an empty collection loses its tiles.
-/

namespace Geofastmap
namespace Tiles

/-- What `stat` and SQLite say about the contents of a file. -/
structure Archives (B : Type) where
  size : B → Nat
  countTiles : B → Except Text Nat

def minMbtilesBytes : Nat := 4096

/-- `verify_mbtiles_artifact`. -/
def verifyMbtilesArtifact {B : Type} (ar : Archives B) (path : Text) : Option B → Option Text
  | none => some ("MBTiles file missing after build: ".toList ++ path)
  | some b =>
    if ar.size b < minMbtilesBytes then
      some ("MBTiles file too small (".toList ++ Sql.digits (ar.size b) ++
        " bytes, expected at least ".toList ++ Sql.digits minMbtilesBytes ++ "): ".toList ++ path)
    else
      match ar.countTiles b with
      | .error e => some ("MBTiles is not a valid SQLite tile archive: ".toList ++ path ++
          " (".toList ++ e ++ [')'])
      | .ok 0 => some ("MBTiles contains no tiles (0 rows in tiles table): ".toList ++ path)
      | .ok _ => none

/-- The files and the path in the row of the collection. -/
structure Site (B : Type) where
  files : Text → Option B
  pmtilesPath : Option Text

/-- The places where a build deletes a file; a failure there is ignored. -/
inductive Cleanup where
  | tmpAtOnce | geojsonl | tmpFinally | final | old
deriving DecidableEq

inductive Export where
  | cancelled
  | features (total : Nat)
  | raised

inductive Ending where
  | cancelled
  | exit (code : Int) (stderr : Text)
  | raised

inductive Kind where
  | plain (typedComposite hasMembers : Bool)
  | composite (members : List Text)

/-- What a build meets. -/
structure Build (B : Type) where
  collectionId : Text
  kind : Kind
  tilesDir : Text
  uuid : Text
  mkstemp : Text
  featureCount : Nat
  exported : Export
  geojsonl : B
  /-- what tippecanoe leaves at its output path -/
  output : Option B
  ending : Ending
  replaceError : Option Text
  unlinkFails : Cleanup → Bool
  registerRaises : Bool

inductive Ended where
  | returned (result : Option Text)
  | raised

/-- `BUILD_CANCELLED`. -/
def buildCancelled : Text := "__cancelled__".toList

variable {B : Type} (ar : Archives B) (b : Build B)

/-- `out_path_final`. -/
def Build.finalPath : Text := b.tilesDir ++ '/' :: b.collectionId ++ ".mbtiles".toList

/-- `out_path_tmp`. -/
def Build.tmpPath : Text := b.finalPath ++ '.' :: b.uuid ++ ".tmp".toList

/-- `tempfile.mkstemp(suffix=".geojsonl")`. -/
def Build.geojsonlPath : Text := b.mkstemp ++ ".geojsonl".toList

def Site.put (s : Site B) (path : Text) (content : Option B) : Site B :=
  { s with files := Function.update s.files path content }

/-- `os.unlink`, an `OSError` being ignored. -/
def Build.unlink (place : Cleanup) (path : Text) (s : Site B) : Site B :=
  if b.unlinkFails place then s else s.put path none

def cancelledResult : Ended := .returned (some buildCancelled)

def Build.noneExported : Text :=
  match b.kind with
  | .plain _ _ => "No features exported for collection ".toList ++ b.collectionId
  | .composite members => "No features exported from ".toList ++ Sql.digits members.length ++
      " member collection(s); check composite_members and member feature data".toList

/-- The message for an exit code of tippecanoe. -/
def tippecanoeFailed (code : Int) (stderr : Text) : Text :=
  if stderr.isEmpty then "tippecanoe failed with exit code ".toList ++ (toString code).toList
  else "tippecanoe failed: ".toList ++ stderr.drop (stderr.length - 4000)

/-- The `try` of the build: `none` when the new archive is installed. -/
def Build.attempt (s : Site B) : Site B × Option Ended :=
  let s := s.put b.geojsonlPath (some b.geojsonl)
  match b.exported with
  | .raised => (s, some .raised)
  | .cancelled => (s, some cancelledResult)
  | .features total =>
    if total = 0 then (s, some (.returned (some b.noneExported)))
    else
      let s := s.put b.tmpPath b.output
      match b.ending with
      | .raised => (s, some .raised)
      | .cancelled => (b.unlink .tmpAtOnce b.tmpPath s, some cancelledResult)
      | .exit code stderr =>
        if code ≠ 0 then
          (b.unlink .tmpAtOnce b.tmpPath s, some (.returned (some (tippecanoeFailed code stderr))))
        else
          let replaceError := b.replaceError.or
            (if b.output.isNone then some "No such file or directory".toList else none)
          match replaceError with
          | some e =>
            (b.unlink .tmpAtOnce b.tmpPath s,
              some (.returned (some ("failed to install tiles: ".toList ++ e))))
          | none => ((s.put b.finalPath b.output).put b.tmpPath none, none)

/-- The build from the export on. -/
def Build.run (s : Site B) : Site B × Ended :=
  match b.attempt s with
  | (s, some ended) =>
    (b.unlink .tmpFinally b.tmpPath (b.unlink .geojsonl b.geojsonlPath s), ended)
  | (s, none) =>
    let s := b.unlink .geojsonl b.geojsonlPath s
    match verifyMbtilesArtifact ar b.finalPath (s.files b.finalPath) with
    | some err => (b.unlink .final b.finalPath s, .returned (some err))
    | none =>
      let s := match s.pmtilesPath with
        | some old => if old ≠ [] ∧ old ≠ b.finalPath then b.unlink .old old s else s
        | none => s
      if b.registerRaises then (s, .raised)
      else ({ s with pmtilesPath := some b.finalPath }, .returned none)

/-- `build_pmtiles_sync` and `build_composite_pmtiles_sync`. -/
def Build.sync (s : Site B) : Site B × Ended :=
  match b.kind with
  | .plain typedComposite hasMembers =>
    if typedComposite || hasMembers then
      (s, .returned (some ("Collection ".toList ++ b.collectionId ++
        (" is composite; use composite tile builder " ++
          "(worker must route by collection_type / composite_members)").toList)))
    else if b.featureCount = 0 then
      -- empty collections have no static tiles to serve
      ({ b.unlink .final b.finalPath s with pmtilesPath := none },
        .returned (some ("No features in collection ".toList ++ b.collectionId ++
          "; static tiles cleared".toList)))
    else b.run ar s
  | .composite members =>
    if members.isEmpty then (s, .returned (some "Composite has no members".toList))
    else if b.featureCount = 0 then
      (s, .returned (some (if (s.files b.finalPath).isSome then
        "No features in member collections (existing tiles kept)".toList
        else "No features in member collections".toList)))
    else b.run ar s

/-! ## Tiles that are served -/

/-- The path in the row, and the tiles there, are as before. -/
def KeepsServed (s s' : Site B) : Prop :=
  s'.pmtilesPath = s.pmtilesPath ∧ ∀ path, s.pmtilesPath = some path → s'.files path = s.files path

/-- An error and the cancelled marker leave the tiles that are served. -/
def Build.FailsSafely (s : Site B) : Prop :=
  ∀ result, (b.sync ar s).2 = .returned (some result) → KeepsServed s (b.sync ar s).1

/-- The collection has tiles that are served from `path`, and the temporary names are fresh. -/
structure Served (s : Site B) (path : Text) (content : B) : Prop where
  pointed : s.pmtilesPath = some path
  there : s.files path = some content
  tmp_fresh : s.files b.tmpPath = none
  geojsonl_fresh : s.files b.geojsonlPath = none

/-- A plain collection without features. -/
def Build.Empties : Prop := b.kind = .plain false false ∧ b.featureCount = 0

/-- The build gets past its first checks. -/
def Build.Runs : Prop :=
  b.featureCount ≠ 0 ∧ (b.kind = .plain false false ∨ ∃ m ms, b.kind = .composite (m :: ms))

/-- Tippecanoe ends well, and its archive replaces the old one. -/
def Build.Installs (new : B) : Prop :=
  (∃ total, b.exported = .features total ∧ total ≠ 0) ∧ (∃ stderr, b.ending = .exit 0 stderr) ∧
    b.replaceError = none ∧ b.output = some new

/-- The archive that is installed fails the verification. -/
def Build.Rejected (new : B) : Prop :=
  b.Runs ∧ b.Installs new ∧ (verifyMbtilesArtifact ar b.finalPath (some new)).isSome

@[simp] theorem put_files (s : Site B) (path : Text) (content : Option B) (p : Text) :
    (s.put path content).files p = if p = path then content else s.files p :=
  Function.update_apply s.files path content p

@[simp] theorem unlink_files (place : Cleanup) (path : Text) (s : Site B) (p : Text) :
    (b.unlink place path s).files p =
      if p = path ∧ b.unlinkFails place = false then none else s.files p := by
  unfold Build.unlink
  cases h : b.unlinkFails place <;> simp

@[simp] theorem unlink_pmtilesPath (place : Cleanup) (path : Text) (s : Site B) :
    (b.unlink place path s).pmtilesPath = s.pmtilesPath := by
  unfold Build.unlink
  split <;> rfl

theorem finalPath_ne_tmpPath : b.finalPath ≠ b.tmpPath := by
  intro h
  have hlen := congrArg List.length h
  simp [Build.tmpPath] at hlen

theorem finalPath_ne_geojsonlPath : b.finalPath ≠ b.geojsonlPath := by
  intro h
  have hs : b.finalPath.getLast? = some 's' := by
    rw [Build.finalPath, List.getLast?_append]
    rfl
  have hl : b.geojsonlPath.getLast? = some 'l' := by
    rw [Build.geojsonlPath, List.getLast?_append]
    rfl
  rw [h, hl] at hs
  cases hs

/-- Only the temporary files may differ. -/
structure Untouched (s s' : Site B) : Prop where
  path : s'.pmtilesPath = s.pmtilesPath
  files : ∀ p, p ≠ b.tmpPath → p ≠ b.geojsonlPath → s'.files p = s.files p

namespace Untouched

variable {b} {s s' : Site B}

theorem refl (s : Site B) : Untouched b s s := ⟨rfl, fun _ _ _ => rfl⟩

theorem put_tmp (h : Untouched b s s') (content : Option B) :
    Untouched b s (s'.put b.tmpPath content) := by
  constructor
  · exact h.path
  · intro p htmp hgeojsonl
    rw [put_files, if_neg htmp, h.files p htmp hgeojsonl]

theorem put_geojsonl (h : Untouched b s s') (content : Option B) :
    Untouched b s (s'.put b.geojsonlPath content) := by
  constructor
  · exact h.path
  · intro p htmp hgeojsonl
    rw [put_files, if_neg hgeojsonl, h.files p htmp hgeojsonl]

theorem unlink_tmp (h : Untouched b s s') (place : Cleanup) :
    Untouched b s (b.unlink place b.tmpPath s') := by
  unfold Build.unlink
  split
  · exact h
  · exact h.put_tmp none

theorem unlink_geojsonl (h : Untouched b s s') (place : Cleanup) :
    Untouched b s (b.unlink place b.geojsonlPath s') := by
  unfold Build.unlink
  split
  · exact h
  · exact h.put_geojsonl none

end Untouched

/-- The `try` touches temporary files only, unless it installs the new archive. -/
theorem attempt_cases (s : Site B) :
    (∃ s' ended, b.attempt s = (s', some ended) ∧ Untouched b s s' ∧ ∀ new, ¬ b.Installs new) ∨
    ∃ s' new, b.attempt s = ((s'.put b.finalPath (some new)).put b.tmpPath none, none) ∧
      Untouched b s s' ∧ b.Installs new := by
  have hexport : Untouched b s (s.put b.geojsonlPath (some b.geojsonl)) :=
    (Untouched.refl s).put_geojsonl _
  have htmp := hexport.put_tmp b.output
  unfold Build.attempt
  simp only
  split
  · rename_i hraised
    refine Or.inl ⟨_, _, rfl, hexport, ?_⟩
    rintro new ⟨⟨total, htotal, -⟩, -⟩
    rw [hraised] at htotal
    cases htotal
  · rename_i hcancelled
    refine Or.inl ⟨_, _, rfl, hexport, ?_⟩
    rintro new ⟨⟨total, htotal, -⟩, -⟩
    rw [hcancelled] at htotal
    cases htotal
  · rename_i total hfeatures
    split
    · rename_i hzero
      refine Or.inl ⟨_, _, rfl, hexport, ?_⟩
      rintro new ⟨⟨total', htotal, hne⟩, -⟩
      rw [hfeatures] at htotal
      cases htotal
      exact hne hzero
    · rename_i hpos
      split
      · rename_i hraised
        refine Or.inl ⟨_, _, rfl, htmp, ?_⟩
        rintro new ⟨-, ⟨stderr, hexit⟩, -⟩
        rw [hraised] at hexit
        cases hexit
      · rename_i hcancelled
        refine Or.inl ⟨_, _, rfl, htmp.unlink_tmp _, ?_⟩
        rintro new ⟨-, ⟨stderr, hexit⟩, -⟩
        rw [hcancelled] at hexit
        cases hexit
      · rename_i code stderr hending
        split
        · rename_i hcode
          refine Or.inl ⟨_, _, rfl, htmp.unlink_tmp _, ?_⟩
          rintro new ⟨-, ⟨stderr', hexit⟩, -⟩
          rw [hending] at hexit
          cases hexit
          exact hcode rfl
        · rename_i hcode
          cases hreplace : b.replaceError with
          | some e =>
            refine Or.inl ⟨_, _, rfl, htmp.unlink_tmp _, ?_⟩
            rintro new ⟨-, -, hnone, -⟩
            rw [hreplace] at hnone
            cases hnone
          | none =>
            cases houtput : b.output with
            | none =>
              rw [houtput] at htmp
              refine Or.inl ⟨_, _, rfl, htmp.unlink_tmp _, ?_⟩
              rintro new ⟨-, -, -, hsome⟩
              rw [houtput] at hsome
              cases hsome
            | some new =>
              rw [houtput] at htmp
              refine Or.inr ⟨_, new, rfl, htmp, ⟨total, hfeatures, hpos⟩, ⟨stderr, ?_⟩, hreplace,
                houtput⟩
              rw [hending, not_not.mp hcode]

/-- Past its checks, a build is unsafe only if it installs an archive that is then rejected. -/
theorem run_failsSafely_iff {s : Site B} {path : Text} {content : B} (h : Served b s path content) :
    (∀ result, (b.run ar s).2 = .returned (some result) → KeepsServed s (b.run ar s).1) ↔
      ∀ new, b.Installs new → (verifyMbtilesArtifact ar b.finalPath (some new)).isSome →
        path = b.finalPath → b.unlinkFails .final = true ∧ new = content := by
  have htmp : path ≠ b.tmpPath := by
    rintro rfl
    exact absurd (h.tmp_fresh.symm.trans h.there) (by simp)
  have hgeojsonl : path ≠ b.geojsonlPath := by
    rintro rfl
    exact absurd (h.geojsonl_fresh.symm.trans h.there) (by simp)
  have hsafe {s' : Site B} (hs' : Untouched b s s') : KeepsServed s s' := by
    refine ⟨hs'.path, fun path' hpath' => ?_⟩
    obtain rfl : path = path' := Option.some.inj (h.pointed.symm.trans hpath')
    exact hs'.files path htmp hgeojsonl
  rcases attempt_cases b s with ⟨s', ended, hattempt, hs', hnot⟩ | ⟨s', new, hattempt, hs', hinstalls⟩
  · unfold Build.run
    rw [hattempt]
    constructor
    · intro _ new hinstalls
      exact absurd hinstalls (hnot new)
    · intro _ result _
      exact hsafe ((hs'.unlink_geojsonl .geojsonl).unlink_tmp .tmpFinally)
  · have honly (new' : B) (hnew' : b.Installs new') : new' = new :=
      Option.some.inj (hnew'.2.2.2.symm.trans hinstalls.2.2.2)
    -- the site when the archive is verified
    generalize hverified : b.unlink .geojsonl b.geojsonlPath
      ((s'.put b.finalPath (some new)).put b.tmpPath none) = s₁
    have hpath : s₁.pmtilesPath = s.pmtilesPath := by
      rw [← hverified, unlink_pmtilesPath]
      exact hs'.path
    have hfinal : s₁.files b.finalPath = some new := by
      rw [← hverified]
      simp [finalPath_ne_tmpPath, finalPath_ne_geojsonlPath]
    have hother (hne : path ≠ b.finalPath) : s₁.files path = s.files path := by
      rw [← hverified, ← hs'.files path htmp hgeojsonl]
      simp [htmp, hgeojsonl, hne]
    unfold Build.run
    rw [hattempt]
    simp only [hverified, hfinal]
    cases hverify : verifyMbtilesArtifact ar b.finalPath (some new) with
    | none =>
      constructor
      · intro _ new' hnew' hrejected
        rw [honly new' hnew', hverify] at hrejected
        cases hrejected
      · intro _ result hresult
        simp only at hresult
        split at hresult <;> cases hresult
    | some err =>
      constructor
      · rintro hkeeps new' hnew' - rfl
        obtain rfl := honly new' hnew'
        have hcontent := (hkeeps err rfl).2 b.finalPath h.pointed
        rw [h.there, unlink_files, hfinal] at hcontent
        split at hcontent
        · cases hcontent
        · rename_i hfails
          exact ⟨by simpa using hfails, Option.some.inj hcontent⟩
      · rintro hrejected result -
        refine ⟨?_, fun path' hpath' => ?_⟩
        · rw [unlink_pmtilesPath]
          exact hpath
        · obtain rfl : path = path' := Option.some.inj (h.pointed.symm.trans hpath')
          rw [unlink_files]
          by_cases hsame : path = b.finalPath
          · obtain ⟨hfails, rfl⟩ := hrejected new hinstalls (by rw [hverify]; rfl) hsame
            rw [if_neg (by simp [hfails]), hsame, hfinal, ← hsame, h.there]
          · rw [if_neg (fun hp => hsame hp.1)]
            exact hother hsame

/-- A build that fails keeps the tiles that are served, unless the collection is empty, or the new
archive has replaced them and is rejected. -/
theorem keeps_served_iff {s : Site B} {path : Text} {content : B} (h : Served b s path content) :
    b.FailsSafely ar s ↔ ¬ b.Empties ∧ ∀ new, b.Rejected ar new →
      path = b.finalPath → b.unlinkFails .final = true ∧ new = content := by
  have hsame : KeepsServed s s := ⟨rfl, fun _ _ => rfl⟩
  have hruns (hruns : b.Runs) (hempty : ¬ b.Empties) :
      (∀ result, (b.run ar s).2 = .returned (some result) → KeepsServed s (b.run ar s).1) ↔
        ¬ b.Empties ∧ ∀ new, b.Rejected ar new →
          path = b.finalPath → b.unlinkFails .final = true ∧ new = content := by
    rw [run_failsSafely_iff ar b h]
    constructor
    · intro hrejected
      exact ⟨hempty, fun new hnew => hrejected new hnew.2.1 hnew.2.2⟩
    · rintro ⟨-, hrejected⟩ new hinstalls hverify
      exact hrejected new ⟨hruns, hinstalls, hverify⟩
  have hstays (hruns : ¬ b.Runs) (hempty : ¬ b.Empties) :
      ¬ b.Empties ∧ ∀ new, b.Rejected ar new →
        path = b.finalPath → b.unlinkFails .final = true ∧ new = content :=
    ⟨hempty, fun new hnew => absurd hnew.1 hruns⟩
  unfold Build.FailsSafely Build.sync
  cases hkind : b.kind with
  | plain typedComposite hasMembers =>
    simp only
    split
    · rename_i hcomposite
      have hnot : ¬ (b.kind = .plain false false) := by
        rw [hkind]
        rintro ⟨⟩
        cases hcomposite
      refine ⟨fun _ => hstays ?_ fun hempty => hnot hempty.1, fun _ _ _ => hsame⟩
      rintro ⟨-, hplain | ⟨m, ms, hmembers⟩⟩
      · exact hnot hplain
      · rw [hkind] at hmembers
        cases hmembers
    · rename_i hplain
      obtain ⟨rfl, rfl⟩ : typedComposite = false ∧ hasMembers = false := by
        simpa using hplain
      split
      · rename_i hcount
        constructor
        · intro hkeeps
          have hpath := (hkeeps _ rfl).1
          rw [h.pointed] at hpath
          cases hpath
        · intro hkeeps
          exact absurd ⟨hkind, hcount⟩ hkeeps.1
      · rename_i hcount
        exact hruns ⟨hcount, Or.inl hkind⟩ fun hempty => hcount hempty.2
  | composite members =>
    have hempty : ¬ b.Empties := by
      rintro ⟨hplain, -⟩
      rw [hkind] at hplain
      cases hplain
    cases members with
    | nil =>
      refine ⟨fun _ => hstays ?_ hempty, fun _ _ _ => hsame⟩
      rintro ⟨-, hplain | ⟨m, ms, hmembers⟩⟩
      · rw [hkind] at hplain
        cases hplain
      · rw [hkind] at hmembers
        cases hmembers
    | cons m ms =>
      simp only [List.isEmpty_cons, Bool.false_eq_true, if_false]
      split
      · rename_i hcount
        exact ⟨fun _ => hstays (fun hruns => hruns.1 hcount) hempty, fun _ _ _ => hsame⟩
      · rename_i hcount
        exact hruns ⟨hcount, Or.inr ⟨m, ms, hkind⟩⟩ hempty

/-! ## A build whose archive is rejected -/

/-- Contents by their size; below the least size there are no tiles. -/
def bySize : Archives Nat := ⟨id, fun n => .ok (n / minMbtilesBytes)⟩

/-- Tippecanoe leaves a file that is too small. -/
def smallArchive : Build Nat where
  collectionId := "roads".toList
  kind := .plain false false
  tilesDir := "/tiles".toList
  uuid := "1".toList
  mkstemp := "/tmp/a".toList
  featureCount := 3
  exported := .features 3
  geojsonl := 100
  output := some 512
  ending := .exit 0 []
  replaceError := none
  unlinkFails _ := false
  registerRaises := false

/-- The archive from before is at the live path. -/
def servedRoads : Site Nat where
  files p := if p = "/tiles/roads.mbtiles".toList then some 9000 else none
  pmtilesPath := some "/tiles/roads.mbtiles".toList

theorem servedRoads_served :
    Served smallArchive servedRoads "/tiles/roads.mbtiles".toList 9000 := by
  constructor <;> decide

/-- The old tiles are gone after a build that failed. -/
theorem rejected_archive_loses_tiles : ¬ ∀ (b : Build Nat) (s : Site Nat) path content,
    Served b s path content → b.Runs → b.FailsSafely bySize s := by
  intro h
  have hsafe := h smallArchive servedRoads _ _ servedRoads_served ⟨by decide, Or.inl rfl⟩
  obtain ⟨result, hresult⟩ : ∃ result, (smallArchive.sync bySize servedRoads).2 =
      .returned (some result) := ⟨_, rfl⟩
  have hkeeps := (hsafe result hresult).2 "/tiles/roads.mbtiles".toList rfl
  revert hkeeps
  decide

theorem keeps_served_smallArchive : ¬ smallArchive.FailsSafely bySize servedRoads := by
  rw [keeps_served_iff bySize smallArchive servedRoads_served]
  rintro ⟨-, hrejected⟩
  have hcontent := (hrejected 512
    ⟨⟨by decide, Or.inl rfl⟩, ⟨⟨3, rfl, by decide⟩, ⟨[], rfl⟩, rfl, rfl⟩, by decide⟩ rfl).2
  cases hcontent

end Tiles
end Geofastmap
