import Geofastmap.Composite.Export
import Geofastmap.Interleave.Pipe

/-!
# Geofastmap.Tiles.GeoJsonSeq

The export that a tile build starts with: one thread streams the rows of a collection in chunks into
a queue, another writes a line for each feature (`_consumer`, `_composite_consumer`). A row whose
geometry tippecanoe could not read is skipped. The lines of a chunk are written together.

* `Keeps` : what a line says of the properties of its row.
* `export_run` : what the file holds, and where a run of the two threads ends.
* `composite_export` : the same for the members of a composite collection, one after the other.
-/

namespace Geofastmap
namespace Tiles
namespace GeoJsonSeq

open Composite Import Interleave Items

/-- `json.loads`, where `none` raises, and `orjson.dumps` with a newline. -/
structure Codec where
  loads : Text → Option Json
  dumps : Json → Except Raised Text

/-- A row of the export statement; `none` stands for properties that are empty. -/
structure Row where
  id : Text
  geometry : Option Text
  properties : Option (List (Text × Json))

def queueMaxSize : Nat := 8

def isText (x : Json) (s : Text) : Bool :=
  match x with
  | .str t => t == s
  | _ => false

def usable : Json → Bool
  | .obj members =>
    ((Json.get members "type".toList).truthy && (Json.get members "coordinates".toList).truthy) ||
      (isText (Json.get members "type".toList) "GeometryCollection".toList &&
        (Json.get members "geometries".toList).truthy)
  | _ => false

/-! ## Properties -/

def sourceIdKey : Text := "id_source".toList

/-- `while key in props_dict: key = key + "_1"`. -/
def freshKey (props : List (Text × Json)) : Nat → Text → Text
  | 0, key => key
  | fuel + 1, key =>
    if props.any (·.1 == key) then freshKey props fuel (key ++ "_1".toList) else key

/-- A property `id` of the source that is not the id of the feature is kept under another key. -/
def moveId (fid : Text) (props : List (Text × Json)) : List (Text × Json) :=
  match props.lookup idKey with
  | none => props
  | some value =>
    if isText value fid then props
    else setKey props (freshKey props props.length sourceIdKey) value

def plainProperties (fid : Text) (props : List (Text × Json)) : List (Text × Json) :=
  setKey (moveId fid props) idKey (.str fid)

def compositeProperties (member fid : Text) (props : List (Text × Json)) : List (Text × Json) :=
  setKey (setKey (setKey (moveId fid props) idKey (.str (formatCompositeItemId member fid)))
    memberCollectionKey (.str member)) memberFeatureKey (.str fid)

/-! ## Lines -/

structure Written where
  featureIndex : Nat
  skipped : Nat
  file : List Text

section
variable (codec : Codec) (finish : Text → List (Text × Json) → List (Text × Json))

/-- The geometry of a row, unless the row is skipped. -/
def Row.geom (row : Row) : Option Json :=
  match row.geometry with
  | none | some [] => none
  | some text => (codec.loads text).filter usable

def feature (index : Nat) (geometry : Json) (props : List (Text × Json)) : Json :=
  .obj [("type".toList, .str "Feature".toList), (idKey, .num (Sql.digits index)),
    ("geometry".toList, geometry), ("properties".toList, .obj props)]

def exportRow (w : Written) (row : Row) : Except Raised Written :=
  match row.geom codec with
  | none => .ok { w with skipped := w.skipped + 1 }
  | some g =>
    match codec.dumps (feature w.featureIndex g (finish row.id (row.properties.getD []))) with
    | .error e => .error e
    | .ok line => .ok ⟨w.featureIndex + 1, w.skipped, w.file ++ [line]⟩

/-- One round of `_consumer` and of `_composite_consumer`; an exception ends the thread. -/
def consumer (w : Written) (chunk : List Row) : Option Written :=
  (chunk.foldlM (exportRow codec finish) w).toOption

/-- The features of the rows that are not skipped, with ascending ids. -/
def features (index : Nat) : List Row → List Json
  | [] => []
  | row :: rows =>
    match row.geom codec with
    | none => features index rows
    | some g =>
      feature index g (finish row.id (row.properties.getD [])) :: features (index + 1) rows

end

/-! ## The properties of a line -/

/-- The keys that are tried. -/
def tried (key : Text) (n : Nat) : Text := key ++ (List.replicate n "_1".toList).flatten

theorem tried_succ (key : Text) (n : Nat) : tried (key ++ "_1".toList) n = tried key (n + 1) := by
  simp [tried, List.replicate_succ, List.append_assoc]

theorem tried_injective (key : Text) : Function.Injective (tried key) := by
  intro n m h
  have hlen := congrArg List.length h
  simp [tried] at hlen
  exact hlen

theorem freshKey_eq (props : List (Text × Json)) (fuel : Nat) (key : Text) :
    ∃ n ≤ fuel, freshKey props fuel key = tried key n ∧
      (∀ m < n, props.any (·.1 == tried key m)) ∧
      (n < fuel → props.any (·.1 == tried key n) = false) := by
  induction fuel generalizing key with
  | zero => exact ⟨0, Nat.le_refl 0, by simp [freshKey, tried], nofun, nofun⟩
  | succ fuel ih =>
    have hzero : tried key 0 = key := by simp [tried]
    unfold freshKey
    split
    · rename_i hany
      obtain ⟨n, hn, heq, hbefore, hafter⟩ := ih (key ++ "_1".toList)
      refine ⟨n + 1, by omega, by rw [heq, tried_succ], fun m hm => ?_, fun hlt => ?_⟩
      · cases m with
        | zero => rwa [hzero]
        | succ m =>
          rw [← tried_succ]
          exact hbefore m (by omega)
      · rw [← tried_succ]
        exact hafter (by omega)
    · rename_i hany
      rw [Bool.not_eq_true] at hany
      exact ⟨0, by omega, hzero.symm, nofun, fun _ => by rwa [hzero]⟩

/-- Among one key more than there are properties, one is free. -/
theorem freshKey_fresh (props : List (Text × Json)) (key : Text) :
    props.lookup (freshKey props props.length key) = none := by
  obtain ⟨n, hn, heq, hbefore, hafter⟩ := freshKey_eq props props.length key
  rw [heq, lookup_eq_none_iff]
  by_contra hany
  rw [Bool.not_eq_false] at hany
  have hlast : n = props.length := by
    by_contra hne
    rw [hafter (by omega)] at hany
    cases hany
  have hall : ∀ m < props.length + 1, tried key m ∈ props.map Prod.fst := by
    intro m hm
    have hm' : props.any (·.1 == tried key m) := by
      rcases Nat.lt_or_ge m n with hlt | hge
      · exact hbefore m hlt
      · have hmn : m = n := by omega
        rwa [hmn]
    obtain ⟨p, hp, he⟩ := List.any_eq_true.mp hm'
    exact List.mem_map.mpr ⟨p, hp, by simpa using he⟩
  have hnodup : ((List.range (props.length + 1)).map (tried key)).Nodup :=
    List.nodup_range.map (tried_injective key)
  have hsub : (List.range (props.length + 1)).map (tried key) ⊆ props.map Prod.fst := by
    intro k hk
    obtain ⟨m, hm, rfl⟩ := List.mem_map.mp hk
    exact hall m (List.mem_range.mp hm)
  have hle := (List.subperm_of_subset hnodup hsub).length_le
  simp only [List.length_map, List.length_range] at hle
  omega

theorem prefix_freshKey (props : List (Text × Json)) (key : Text) :
    key <+: freshKey props props.length key := by
  obtain ⟨n, -, heq, -⟩ := freshKey_eq props props.length key
  exact heq ▸ List.prefix_append key _

/-- The line says everything that the row says, except under the keys that are the line's own; the
`id` of the source has moved. -/
structure Keeps (reserved : List Text) (fid : Text) (own out : List (Text × Json)) : Prop where
  others : ∀ k ∉ reserved, ∀ v, own.lookup k = some v → out.lookup k = some v
  moved : ∀ v, own.lookup idKey = some v → isText v fid = false →
    ∃ key ∉ reserved, own.lookup key = none ∧ out.lookup key = some v
  nothingElse : ∀ k ∉ reserved, ∀ v, out.lookup k = some v →
    own.lookup k = some v ∨ (own.lookup k = none ∧ own.lookup idKey = some v)

/-- No key that is free for the `id` of the source is one of these. -/
def Apart (reserved : List Text) : Prop := ∀ k ∈ reserved, ¬ sourceIdKey <+: k

theorem moveId_keeps {reserved : List Text} (hapart : Apart reserved)
    (fid : Text) (own out : List (Text × Json))
    (hout : ∀ k ∉ reserved, out.lookup k = (moveId fid own).lookup k) :
    Keeps reserved fid own out := by
  have hfresh := freshKey_fresh own sourceIdKey
  have hkey : freshKey own own.length sourceIdKey ∉ reserved := fun hmem =>
    hapart _ hmem (prefix_freshKey own sourceIdKey)
  unfold moveId at hout
  split at hout
  · rename_i hnone
    refine ⟨fun k hk v hv => (hout k hk).trans hv, fun v hv => ?_, fun k hk v hv => ?_⟩
    · rw [hnone] at hv
      cases hv
    · exact Or.inl ((hout k hk).symm.trans hv)
  · rename_i value hsome
    split at hout
    · rename_i hsame
      refine ⟨fun k hk v hv => (hout k hk).trans hv, fun v hv hne => ?_, fun k hk v hv => ?_⟩
      · rw [hsome] at hv
        cases hv
        rw [hsame] at hne
        cases hne
      · exact Or.inl ((hout k hk).symm.trans hv)
    · simp only [lookup_setKey] at hout
      refine ⟨fun k hk v hv => ?_, fun v hv _ => ?_, fun k hk v hv => ?_⟩
      · rw [hout k hk, if_neg, hv]
        rintro rfl
        rw [hfresh] at hv
        cases hv
      · rw [hsome] at hv
        cases hv
        exact ⟨_, hkey, hfresh, by rw [hout _ hkey, if_pos rfl]⟩
      · rw [hout k hk] at hv
        split at hv
        · rename_i heq
          cases hv
          exact Or.inr ⟨heq ▸ hfresh, hsome⟩
        · exact Or.inl hv

theorem plainProperties_keeps (fid : Text) (own : List (Text × Json)) :
    (plainProperties fid own).lookup idKey = some (.str fid) ∧
      Keeps [idKey] fid own (plainProperties fid own) := by
  refine ⟨by simp [plainProperties, lookup_setKey], ?_⟩
  refine moveId_keeps ?_ fid own _ fun k hk => ?_
  · intro k hk
    rw [List.mem_singleton.mp hk]
    decide
  · rw [plainProperties, lookup_setKey, if_neg (by simpa using hk)]

theorem compositeProperties_keeps (member fid : Text) (own : List (Text × Json)) :
    (compositeProperties member fid own).lookup idKey =
        some (.str (formatCompositeItemId member fid)) ∧
      (compositeProperties member fid own).lookup memberCollectionKey = some (.str member) ∧
      (compositeProperties member fid own).lookup memberFeatureKey = some (.str fid) ∧
      Keeps [idKey, memberCollectionKey, memberFeatureKey] fid own
        (compositeProperties member fid own) := by
  have h1 : idKey ≠ memberFeatureKey := by decide
  have h2 : idKey ≠ memberCollectionKey := by decide
  have h3 : memberCollectionKey ≠ memberFeatureKey := by decide
  refine ⟨by simp [compositeProperties, lookup_setKey, h1, h2],
    by simp [compositeProperties, lookup_setKey, h3],
    by simp [compositeProperties, lookup_setKey], ?_⟩
  refine moveId_keeps ?_ fid own _ fun k hk => ?_
  · intro k hk
    simp only [List.mem_cons, List.not_mem_nil, or_false] at hk
    rcases hk with rfl | rfl | rfl <;> decide
  · simp only [List.mem_cons, List.not_mem_nil, or_false, not_or] at hk
    rw [compositeProperties, lookup_setKey, if_neg hk.2.2, lookup_setKey, if_neg hk.2.1,
      lookup_setKey, if_neg hk.1]

/-! ## Rows and chunks -/

section
variable {codec : Codec} {finish : Text → List (Text × Json) → List (Text × Json)}

/-- The rows become lines one after the other, until one cannot be written. -/
theorem foldlM_exportRow (w : Written) (rows : List Row) :
    rows.foldlM (exportRow codec finish) w =
      ((features codec finish w.featureIndex rows).mapM codec.dumps).map fun lines =>
        ⟨w.featureIndex + lines.length,
          w.skipped + rows.countP (fun row => (row.geom codec).isNone), w.file ++ lines⟩ := by
  induction rows generalizing w with
  | nil => simp [features, Except.map, pure, Except.pure]
  | cons row rows ih =>
    rw [List.foldlM_cons]
    cases hgeom : row.geom codec with
    | none =>
      have hrow : exportRow codec finish w row = .ok { w with skipped := w.skipped + 1 } := by
        simp [exportRow, hgeom]
      rw [hrow]
      refine (ih _).trans ?_
      simp only [features, hgeom, List.countP_cons, Option.isNone_none, if_true]
      congr 1
      funext lines
      simp only [Written.mk.injEq, true_and, and_true]
      omega
    | some g =>
      cases hdump : codec.dumps
          (feature w.featureIndex g (finish row.id (row.properties.getD []))) with
      | error e =>
        have hrow : exportRow codec finish w row = .error e := by simp [exportRow, hgeom, hdump]
        rw [hrow]
        simp [features, hgeom, List.mapM_cons, hdump, bind, Except.bind, Except.map]
      | ok line =>
        have hrow : exportRow codec finish w row =
            .ok ⟨w.featureIndex + 1, w.skipped, w.file ++ [line]⟩ := by
          simp [exportRow, hgeom, hdump]
        rw [hrow]
        refine (ih _).trans ?_
        simp only [features, hgeom, List.mapM_cons, hdump, List.countP_cons, Option.isNone_some]
        cases hlines : (features codec finish (w.featureIndex + 1) rows).mapM codec.dumps with
        | error e => rfl
        | ok lines =>
          simp only [Except.map, bind, Except.bind, pure, Except.pure, List.length_cons,
            Except.ok.injEq, Written.mk.injEq, List.append_assoc, List.singleton_append, and_true]
          exact ⟨by omega, by simp⟩

/-- How the rows are cut into chunks makes no difference. -/
theorem foldlM_consumer (w : Written) (chunks : List (List Row)) :
    chunks.foldlM (consumer codec finish) w =
      (chunks.flatten.foldlM (exportRow codec finish) w).toOption := by
  induction chunks generalizing w with
  | nil => rfl
  | cons chunk chunks ih =>
    rw [List.foldlM_cons, List.flatten_cons, List.foldlM_append]
    unfold consumer
    cases hchunk : chunk.foldlM (exportRow codec finish) w with
    | error e => rfl
    | ok w' => exact ih w'

end

variable (codec : Codec)

def Written.on (file : List Text) : Written := ⟨0, 0, file⟩

/-- Every feature can be written, and the lines are these. -/
def Lines (finish : Text → List (Text × Json) → List (Text × Json)) (rows : List Row)
    (lines : List Text) : Prop :=
  (features codec finish 0 rows).mapM codec.dumps = .ok lines

variable {codec} {finish : Text → List (Text × Json) → List (Text × Json)}

theorem foldlM_eq_some {file : List Text} {chunks : List (List Row)} {w : Written} :
    chunks.foldlM (consumer codec finish) (Written.on file) = some w ↔
      ∃ lines, Lines codec finish chunks.flatten lines ∧
        w = ⟨lines.length, chunks.flatten.countP fun row => (row.geom codec).isNone,
          file ++ lines⟩ := by
  rw [foldlM_consumer, foldlM_exportRow]
  simp only [Written.on, Nat.zero_add, Lines]
  cases h : (features codec finish 0 chunks.flatten).mapM codec.dumps with
  | error e => simp [Except.map, Except.toOption]
  | ok lines => simp [Except.map, Except.toOption, eq_comm]

/-- What a writer that has returned knows of the file. -/
theorem returned_lines {file : List Text} {chunks : List (List Row)} {moves : List Move}
    {p : Pipe (List Row) Written}
    (h : (Pipe.start chunks (Written.on file)).run queueMaxSize (consumer codec finish) moves =
      some p) (hreturned : p.writer = .returned) :
    ∃ seen rest lines, chunks = seen ++ rest ∧ (p.stopped = false → rest = []) ∧
      Lines codec finish seen.flatten lines ∧
      p.acc = ⟨lines.length, seen.flatten.countP fun row => (row.geom codec).isNone,
        file ++ lines⟩ := by
  obtain ⟨done, sent, todo, hsplit⟩ := (Pipe.split_start chunks (Written.on file)).run h
  obtain ⟨hchunks, hrest⟩ := hsplit.all_done hreturned
  obtain ⟨lines, hlines, hacc⟩ := foldlM_eq_some.mp hsplit.acc
  exact ⟨done, todo, lines, hchunks, hrest, hlines, hacc⟩

/-- An export that is left alone returns exactly when every feature can be written. -/
theorem settled {file : List Text} {chunks : List (List Row)} {moves : List Move}
    {p : Pipe (List Row) Written} (hmoves : ∀ m ∈ moves, m = .write ∨ m = .read)
    (h : (Pipe.start chunks (Written.on file)).run queueMaxSize (consumer codec finish) moves =
      some p) (hstuck : p.Stuck queueMaxSize (consumer codec finish)) :
    p.writer = .returned ↔ ∃ lines, Lines codec finish chunks.flatten lines := by
  rcases Pipe.settle (by decide) hmoves h hstuck with ⟨hfold, hwriter⟩ | ⟨hfold, hwriter⟩
  · obtain ⟨lines, hlines, -⟩ := foldlM_eq_some.mp hfold
    exact ⟨fun _ => ⟨lines, hlines⟩, fun _ => hwriter⟩
  · refine ⟨fun hw => absurd hw hwriter, fun ⟨lines, hlines⟩ => ?_⟩
    rw [foldlM_eq_some.mpr ⟨lines, hlines, rfl⟩] at hfold
    cases hfold

variable (codec) in
/-- In every run of the two threads of an export, with the rows cut into any chunks:

* the run is not longer than the work there is;
* an export that returns has written one line for each usable feature, in order, with ascending
  ids; where the build was cancelled, those of the chunks up to there;
* neither thread waits for the other forever unless one of them has raised;
* left alone, the export returns if every feature can be written, and hangs otherwise;
* a line keeps every property of its row. -/
theorem export_run (chunks : List (List Row)) {moves : List Move} {p : Pipe (List Row) Written}
    (h : (Pipe.start chunks (Written.on [])).run queueMaxSize (consumer codec plainProperties)
      moves = some p) :
    moves.length ≤ 3 * chunks.length + 5 ∧
      (p.writer = .returned → ∃ seen rest, chunks = seen ++ rest ∧
        (p.stopped = false → rest = []) ∧
        Lines codec plainProperties seen.flatten p.acc.file ∧
        p.acc.skipped = seen.flatten.countP fun row => (row.geom codec).isNone) ∧
      (p.Stuck queueMaxSize (consumer codec plainProperties) →
        p.writer = .returned ∨ (∃ chunk, p.reader = .dead chunk) ∨
          (p.writer = .raised ∧ p.reader = .getting)) ∧
      ((∀ m ∈ moves, m = .write ∨ m = .read) →
        p.Stuck queueMaxSize (consumer codec plainProperties) →
        (p.writer = .returned ↔ ∃ lines, Lines codec plainProperties chunks.flatten lines)) ∧
      ∀ row ∈ chunks.flatten,
        (plainProperties row.id (row.properties.getD [])).lookup idKey = some (.str row.id) ∧
          Keeps [idKey] row.id (row.properties.getD [])
            (plainProperties row.id (row.properties.getD [])) := by
  refine ⟨Pipe.run_length_le h, fun hreturned => ?_, fun hstuck => ?_,
    fun hmoves hstuck => settled hmoves h hstuck, fun row _ => plainProperties_keeps _ _⟩
  · obtain ⟨seen, rest, lines, hchunks, hrest, hlines, hacc⟩ := returned_lines h hreturned
    exact ⟨seen, rest, hchunks, hrest, by rwa [hacc], by rw [hacc]⟩
  · obtain ⟨done, sent, todo, hsplit⟩ := (Pipe.split_start chunks (Written.on [])).run h
    exact hstuck.cases (by decide) hsplit

/-- Every text is the geometry of a point, and every value is written as `x`. -/
def pointCodec : Codec where
  loads _ := some (.obj [("type".toList, .str "Point".toList),
    ("coordinates".toList, .arr [.num ['0'], .num ['0']])])
  dumps _ := .ok ['x']

def pointChunks : List (List Row) := [[⟨['a'], some ['g'], none⟩, ⟨['b'], none, none⟩]]

def pointEnd : Pipe (List Row) Written :=
  ⟨.returned, [], 0, .finished, ⟨1, 1, [['x']]⟩, false⟩

theorem run_point : (Pipe.start pointChunks (Written.on [])).run queueMaxSize
    (consumer pointCodec plainProperties)
    [.write, .read, .write, .read, .write, .read, .read, .write] = some pointEnd := by
  rfl

theorem export_run_point : Lines pointCodec plainProperties pointChunks.flatten [['x']] := by
  obtain ⟨-, hreturned, -⟩ := export_run pointCodec pointChunks run_point
  obtain ⟨seen, rest, hchunks, hrest, hlines, -⟩ := hreturned rfl
  rw [hrest rfl, List.append_nil] at hchunks
  rw [← hchunks] at hlines
  exact hlines

/-! ## Composite collections -/

variable (codec) in
/-- The export of the members, each with its chunks, behind what is in the file already. The build
may be cancelled before a member and between two chunks. -/
inductive CompositeRun :
    List Text → List (Text × List (List Row)) → List Text → Bool → Prop where
  | done (file : List Text) : CompositeRun file [] file false
  | stopped (file : List Text) (m : Text × List (List Row)) (ms : List (Text × List (List Row))) :
    CompositeRun file (m :: ms) file true
  | member {file file' : List Text} {m : Text} {chunks : List (List Row)}
      {ms : List (Text × List (List Row))} {moves : List Move} {p : Pipe (List Row) Written}
      {cancelled : Bool}
      (run : (Pipe.start chunks (Written.on file)).run queueMaxSize
        (consumer codec (compositeProperties m)) moves = some p)
      (returned : p.writer = .returned) (goes : p.stopped = false)
      (rest : CompositeRun p.acc.file ms file' cancelled) :
    CompositeRun file ((m, chunks) :: ms) file' cancelled
  | cut {file : List Text} {m : Text} {chunks : List (List Row)}
      {ms : List (Text × List (List Row))} {moves : List Move} {p : Pipe (List Row) Written}
      (run : (Pipe.start chunks (Written.on file)).run queueMaxSize
        (consumer codec (compositeProperties m)) moves = some p)
      (returned : p.writer = .returned) (stopped : p.stopped = true) :
    CompositeRun file ((m, chunks) :: ms) p.acc.file true

/-- The lines of each member. -/
def MemberLines (codec : Codec) (m : Text × List (List Row)) (lines : List Text) : Prop :=
  Lines codec (compositeProperties m.1) m.2.flatten lines

theorem CompositeRun.file_eq {file file' : List Text} {members : List (Text × List (List Row))}
    {cancelled : Bool} (h : CompositeRun codec file members file' cancelled)
    (hgoes : cancelled = false) :
    ∃ lines, List.Forall₂ (MemberLines codec) members lines ∧ file' = file ++ lines.flatten := by
  induction h with
  | done file => exact ⟨[], .nil, by simp⟩
  | stopped file m ms => cases hgoes
  | cut run returned stopped => cases hgoes
  | member run returned goes rest ih =>
    obtain ⟨lines, hlines, hfile⟩ := ih hgoes
    obtain ⟨seen, rest, own, hchunks, hrest, hown, hacc⟩ := returned_lines run returned
    rw [hrest goes, List.append_nil] at hchunks
    subst hchunks
    refine ⟨own :: lines, .cons hown hlines, ?_⟩
    rw [hfile, hacc]
    simp

theorem exists_compositeRun {members : List (Text × List (List Row))} {lines : List (List Text)}
    (h : List.Forall₂ (MemberLines codec) members lines) (file : List Text) :
    CompositeRun codec file members (file ++ lines.flatten) false := by
  induction h generalizing file with
  | nil => simpa using CompositeRun.done file
  | @cons m own ms lines hown hlines ih =>
    obtain ⟨moves, p, hmoves, hrun, hstuck⟩ := Pipe.exists_stuck queueMaxSize
      (consumer codec (compositeProperties m.1)) (Pipe.start m.2 (Written.on file))
    have hreturned := (settled hmoves hrun hstuck).mpr ⟨own, hown⟩
    have hstopped := (Pipe.run_alone hmoves hrun nofun rfl).2
    obtain ⟨seen, rest, own', hchunks, hrest, hown', hacc⟩ := returned_lines hrun hreturned
    rw [hrest hstopped, List.append_nil] at hchunks
    rw [← hchunks] at hown'
    have hsame : own' = own := Except.ok.inj (hown'.symm.trans hown)
    have hfile : p.acc.file = file ++ own := by rw [hacc, hsame]
    have hnext := ih (file ++ own)
    rw [← hfile] at hnext
    have hmember : CompositeRun codec file ((m.1, m.2) :: ms) _ false :=
      .member hrun hreturned hstopped hnext
    rw [hfile, List.append_assoc] at hmember
    exact hmember

theorem formatCompositeItemId_injective {m m' f f' : Text} (hm : compositeItemSep ∉ m)
    (hm' : compositeItemSep ∉ m')
    (h : formatCompositeItemId m f = formatCompositeItemId m' f') : m = m' ∧ f = f' := by
  have htake := congrArg (List.takeWhile (· != compositeItemSep)) h
  have hdrop := congrArg (List.dropWhile (· != compositeItemSep)) h
  unfold formatCompositeItemId at htake hdrop
  rw [takeWhile_append_sep hm, takeWhile_append_sep hm'] at htake
  rw [dropWhile_append_sep hm, dropWhile_append_sep hm'] at hdrop
  exact ⟨htake, (List.cons.inj hdrop).2⟩

/-- The ids that the export gives to the features of the members. -/
def itemIds (members : List (Text × List (List Row))) : List Text :=
  members.flatMap fun m => m.2.flatten.map fun row => formatCompositeItemId m.1 row.id

theorem nodup_itemIds {members : List (Text × List (List Row))}
    (hmembers : (members.map Prod.fst).Nodup) (hsep : ∀ m ∈ members, compositeItemSep ∉ m.1)
    (hrows : ∀ m ∈ members, (m.2.flatten.map Row.id).Nodup) : (itemIds members).Nodup := by
  refine List.nodup_flatMap.mpr ⟨fun m hm => ?_, ?_⟩
  · have hids := (hrows m hm).map (f := formatCompositeItemId m.1) fun f f' h =>
      (formatCompositeItemId_injective (hsep m hm) (hsep m hm) h).2
    rwa [List.map_map] at hids
  · refine (List.pairwise_map.mp hmembers).imp_of_mem fun {m m'} hm hm' hne => ?_
    intro i hi hi'
    obtain ⟨row, -, rfl⟩ := List.mem_map.mp hi
    obtain ⟨row', -, heq⟩ := List.mem_map.mp hi'
    exact hne (formatCompositeItemId_injective (hsep m' hm') (hsep m hm) heq).1.symm

variable (codec) in
/-- The export of a composite collection goes through exactly when every feature of every member
can be written. The file then holds the lines of the members one after the other, the numbers
starting again at each; each line has its composite id and keeps the properties of its row, and no
composite id is used twice. -/
theorem composite_export (members : List (Text × List (List Row))) :
    (∀ file, CompositeRun codec [] members file false ↔
      ∃ lines, List.Forall₂ (MemberLines codec) members lines ∧ file = lines.flatten) ∧
      (∀ m ∈ members, ∀ row ∈ m.2.flatten,
        let out := compositeProperties m.1 row.id (row.properties.getD [])
        out.lookup idKey = some (.str (formatCompositeItemId m.1 row.id)) ∧
          out.lookup memberCollectionKey = some (.str m.1) ∧
          out.lookup memberFeatureKey = some (.str row.id) ∧
          Keeps [idKey, memberCollectionKey, memberFeatureKey] row.id (row.properties.getD []) out) ∧
      ((members.map Prod.fst).Nodup → (∀ m ∈ members, compositeItemSep ∉ m.1) →
        (∀ m ∈ members, (m.2.flatten.map Row.id).Nodup) → (itemIds members).Nodup) := by
  refine ⟨fun file => ⟨fun h => ?_, ?_⟩, fun m _ row _ => compositeProperties_keeps _ _ _,
    nodup_itemIds⟩
  · obtain ⟨lines, hlines, hfile⟩ := h.file_eq rfl
    exact ⟨lines, hlines, by simpa using hfile⟩
  · rintro ⟨lines, hlines, rfl⟩
    simpa using exists_compositeRun hlines []

end GeoJsonSeq
end Tiles
end Geofastmap
