import Geofastmap.Copy.Account

/-!
# Geofastmap.Copy.Sources

`_load_fiona_source_into_staging` and the loop over the sources in `run_bulk_copy_import_sync`.

What an upload sends to the staging table is read off its records (`Upload.rows`). However the run
ends, cancelled, by a failed `COPY` or by an exception, the table holds a prefix of these rows, and
all of them when the run returns: `loadUpload_sends`.
-/

namespace Geofastmap
namespace Copy

open Import

/-- A record of fiona. -/
structure Feat where
  id : Json
  geometry : Json
  properties : List (Text × Json)

/-- `props.get("id") or feat.get("id")`. -/
def Feat.fid (f : Feat) : Json :=
  let own := Json.get f.properties "id".toList
  if own.truthy then own else f.id

/-- The mapping that is handed to `_feature_rows_from_record`. -/
def Feat.record (f : Feat) : List (Text × Json) :=
  [("type".toList, .str "Feature".toList), ("geometry".toList, f.geometry),
    ("properties".toList, .obj f.properties)] ++
  match f.fid with
  | .null => []
  | fid => [("id".toList, fid)]

/-- A file that is uploaded: the shapefiles of a ZIP, lines of GeoJSON, or another source that fiona
opens. -/
inductive Upload where
  | zip (shapefiles : List (List Feat))
  | geojsonSeq (file : Text)
  | single (feats : List Feat)

section
variable (w : World) (u : Tuning) {G : Type} (P : Parser G) (T : Target)

/-- The loop over the records of a source, at the record with number `i`. -/
def loadFeats (uuid : Nat → Text) : Nat → List Feat → State → Outcome
  | _, [], s => .ok s
  | i, f :: feats, s => do
    let s ← (if i % 2000 = 0 then raiseIfCancelled w s else .ok s : Outcome)
    let parsed ← raised s (featureRowsFromRecord P T (uuid i) f.record)
    let s ← account w u parsed s
    loadFeats uuid (i + 1) feats s

/-- `_load_fiona_source_into_staging`. -/
def loadFionaSourceIntoStaging (uuid : Nat → Text) (feats : List Feat) (s : State) : Outcome := do
  let s ← loadFeats w u P T uuid 0 feats s
  flushFinal w s

/-- `on_progress` before a source, when there are several. -/
def reportSource (n : Nat) (s : State) : State :=
  if 1 < n then { s with reports := s.reports ++ [s.created] } else s

/-- The loop over the shapefiles of a ZIP with `n` of them, at the one with number `k`. -/
def loadSources (uuid : Nat → Nat → Text) (n : Nat) : Nat → List (List Feat) → State → Outcome
  | _, [], s => .ok s
  | k, feats :: shapefiles, s => do
    let s ← loadFionaSourceIntoStaging w u P T (uuid k) feats (reportSource n s)
    loadSources uuid n (k + 1) shapefiles s

/-- The staging table that `run_bulk_copy_import_sync` fills. -/
def loadUpload (uuid : Nat → Nat → Text) : Upload → Outcome
  | .zip shapefiles => loadSources w u P T uuid shapefiles.length 0 shapefiles .start
  | .geojsonSeq file => loadGeojsonSeqIntoStaging w u P T uuid file
  | .single feats => loadFionaSourceIntoStaging w u P T (uuid 0) feats .start

end

/-! ## The rows of an upload -/

/-- The number of a draw of `uuid7`: the source or the batch, and the record in it. -/
abbrev Tag := Nat × Nat

section
variable {G : Type} (P : Parser G) (T : Target)

/-- The record on a line. -/
def asRecord (line : Text) : Option (List (Text × Json)) :=
  if (stripBytes line).isEmpty then none
  else
    match P.loads line with
    | some (.obj rec) => some rec
    | _ => none

/-- The lines that are numbered: one worker numbers the blank ones too. -/
def countedLines (u : Tuning) (file : Text) : List Text :=
  if u.workers ≤ 1 then rawLines file
  else (rawLines file).filter fun l => !(stripBytes l).isEmpty

def lineTag (u : Tuning) (i : Nat) : Tag :=
  if u.workers ≤ 1 then (0, i) else (i / u.parseLines, i % u.parseLines)

/-- The records of an upload, each with the number of its draw. -/
def Upload.draws (u : Tuning) : Upload → List (Tag × List (Text × Json))
  | .zip shapefiles => shapefiles.zipIdx.flatMap fun source =>
      source.1.zipIdx.map fun f => ((source.2, f.2), f.1.record)
  | .geojsonSeq file => (countedLines u file).zipIdx.filterMap fun l =>
      (asRecord P l.1).map fun rec => (lineTag u l.2, rec)
  | .single feats => feats.zipIdx.map fun f => ((0, f.2), f.1.record)

/-- The rows of a record; none if it raises. -/
def recordRows (uuid : Text) (rec : List (Text × Json)) : List StagingRow :=
  match featureRowsFromRecord P T uuid rec with
  | .ok (rows, _) => rows
  | .error _ => []

/-- The rows of all records. -/
def Upload.rows (u : Tuning) (uuid : Nat → Nat → Text) (up : Upload) : List StagingRow :=
  (up.draws P u).flatMap fun d => recordRows P T (uuid d.1.1 d.1.2) d.2

/-- The rows of a line. -/
def lineRows (uuid line : Text) : List StagingRow :=
  match asRecord P line with
  | some rec => recordRows P T uuid rec
  | none => []

theorem lineRows_of_ok {uuid line : Text} {parsed : List StagingRow × Nat}
    (h : parseLineBytes P T uuid line = .ok parsed) : lineRows P T uuid line = parsed.1 := by
  unfold lineRows asRecord
  unfold parseLineBytes at h
  split at h
  · rename_i hblank
    cases h
    rw [if_pos hblank]
  · rename_i hline
    rw [if_neg hline]
    cases hloads : P.loads line with
    | none =>
      rw [hloads] at h
      cases h
      rfl
    | some x =>
      rw [hloads] at h
      cases x with
      | obj rec =>
        dsimp only at h ⊢
        rw [recordRows, h]
      | _ =>
        cases h
        rfl

end

/-! ## What a run sends -/

/-- The state that a run reaches, also one that fails. -/
def finalState : Outcome → State
  | .ok s => s
  | .error (_, s) => s

/-- Where the run returns it holds all of these rows; where it fails, the table has the first of
them. -/
def Sends {α : Type} (held : α → List StagingRow) (rows : List StagingRow) :
    Except (Failure × State) α → Prop
  | .ok a => held a = rows
  | .error (_, s) => s.staging <+: rows

theorem Sends.bind {α β : Type} {held : α → List StagingRow} {held' : β → List StagingRow}
    {rows rows' : List StagingRow} {x : Except (Failure × State) α}
    {f : α → Except (Failure × State) β} (hx : Sends held rows x) (hrows : rows <+: rows')
    (hf : ∀ a, held a = rows → Sends held' rows' (f a)) : Sends held' rows' (x >>= f) := by
  cases x with
  | ok a => exact hf a hx
  | error e => exact List.IsPrefix.trans hx hrows

theorem sends_ok {α : Type} {held : α → List StagingRow} {a : α} {rows : List StagingRow}
    (h : held a = rows) : Sends held rows (.ok a) := h

theorem State.staging_prefix (s : State) (rows : List StagingRow) : s.staging <+: s.held ++ rows := by
  rw [State.held, List.append_assoc]
  exact List.prefix_append ..

section
variable (w : World) (u : Tuning)

theorem flushFull_sends (buf : List StagingRow) (s : State) :
    Sends State.held (s.staging ++ buf) (flushFull w u buf s) := by
  induction hn : buf.length using Nat.strong_induction_on generalizing buf s with
  | _ n ih =>
    rw [flushFull]
    split
    · have hpos := u.batchRows_pos
      unfold flushBatch
      dsimp only
      cases w.copyExpert s.copies (buf.take u.batchRows) with
      | error e => exact List.prefix_append ..
      | ok _ =>
        have hrest := ih (buf.drop u.batchRows).length (by rw [List.length_drop]; omega)
          (buf.drop u.batchRows)
          { s with
            staging := s.staging ++ buf.take u.batchRows
            buf := buf.drop u.batchRows
            copies := s.copies + 1 } rfl
        dsimp only at hrest
        rw [List.append_assoc, List.take_append_drop] at hrest
        exact hrest
    · exact sends_ok rfl

theorem addRows_sends (rows : List StagingRow) (s : State) :
    Sends State.held (s.held ++ rows) (addRows w u rows s) := by
  rw [State.held, List.append_assoc]
  exact flushFull_sends w u (s.buf ++ rows) s

theorem flushFinal_sends (s : State) :
    Sends State.staging s.held (flushFinal w s) := by
  unfold flushFinal
  split
  · rename_i hbuf
    refine sends_ok ?_
    simp [State.held, List.isEmpty_iff.mp hbuf]
  · unfold flushBatch
    dsimp only
    cases w.copyExpert s.copies s.buf with
    | error e => exact List.prefix_append ..
    | ok _ => exact sends_ok rfl

theorem account_sends (parsed : List StagingRow × Nat) (s : State) :
    Sends State.held (s.held ++ parsed.1) (account w u parsed s) := by
  obtain ⟨rows, fail⟩ := parsed
  unfold account
  cases rows with
  | nil => exact sends_ok (List.append_nil _).symm
  | cons r rows =>
    simp only [List.isEmpty_cons, Bool.false_eq_true, if_false]
    exact (addRows_sends w u (r :: rows) _).bind (List.prefix_refl _) fun s' hs' => sends_ok hs'

theorem raiseIfCancelled_sends (s : State) :
    Sends State.held s.held (raiseIfCancelled w s) := by
  unfold raiseIfCancelled
  dsimp only
  split
  · exact List.prefix_append ..
  · exact sends_ok rfl

theorem check_sends (i : Nat) (s : State) :
    Sends State.held s.held (if i % 2000 = 0 then raiseIfCancelled w s else .ok s) := by
  split
  · exact raiseIfCancelled_sends w s
  · exact sends_ok rfl

/-- An exception of the parser leaves the table as it is. -/
theorem raised_sends (s : State) (rows : List StagingRow) {x : Except Raised (List StagingRow × Nat)}
    (h : ∀ parsed, x = .ok parsed → parsed.1 = rows) :
    Sends (fun parsed => s.held ++ parsed.1) (s.held ++ rows) (raised s x) := by
  cases x with
  | error e => exact s.staging_prefix rows
  | ok parsed => exact congrArg (s.held ++ ·) (h parsed rfl)

/-- One turn of a loop over lines or records: the rows of `x`, then those of the turns after it. -/
theorem turn_sends (i : Nat) (s : State) {x : Except Raised (List StagingRow × Nat)}
    {rows rest : List StagingRow} {next : State → Outcome}
    (hrows : ∀ parsed, x = .ok parsed → parsed.1 = rows)
    (hnext : ∀ s, Sends State.held (s.held ++ rest) (next s)) :
    Sends State.held (s.held ++ (rows ++ rest)) (do
      let s ← (if i % 2000 = 0 then raiseIfCancelled w s else .ok s : Outcome)
      let parsed ← raised s x
      let s ← account w u parsed s
      next s) := by
  rw [← List.append_assoc]
  refine (check_sends w i s).bind ?_ fun s₁ hs₁ => ?_
  · rw [List.append_assoc]
    exact List.prefix_append ..
  rw [← hs₁]
  refine (raised_sends s₁ rows hrows).bind (List.prefix_append ..) fun parsed hparsed => ?_
  rw [← hparsed]
  refine (account_sends w u parsed s₁).bind (List.prefix_append ..) fun s₂ hs₂ => ?_
  rw [← hs₂]
  exact hnext s₂

end

section
variable (w : World) (u : Tuning) {G : Type} (P : Parser G) (T : Target)

/-- The rows of lines from the line with number `i`, for one worker. -/
def linesRows (uuid : Nat → Text) (i : Nat) (lines : List Text) : List StagingRow :=
  (lines.zipIdx i).flatMap fun l => lineRows P T (uuid l.2) l.1

theorem linesRows_cons (uuid : Nat → Text) (i : Nat) (line : Text) (lines : List Text) :
    linesRows P T uuid i (line :: lines) =
      lineRows P T (uuid i) line ++ linesRows P T uuid (i + 1) lines := by
  simp [linesRows]

theorem loadLines_sends (uuid : Nat → Text) (i : Nat) (lines : List Text) (s : State) :
    Sends State.held (s.held ++ linesRows P T uuid i lines)
      (loadLines w u P T uuid i lines s) := by
  induction lines generalizing i s with
  | nil => exact sends_ok (List.append_nil _).symm
  | cons line lines ih =>
    rw [loadLines, linesRows_cons]
    exact turn_sends w u i s (fun parsed h => (lineRows_of_ok P T h).symm) (ih (i + 1))

/-! ## Batches -/

theorem parseLinesFrom_rows {uuid : Nat → Text} {j : Nat} {lines : List Text}
    {acc parsed : List StagingRow × Nat} (h : parseLinesFrom P T uuid j lines acc = .ok parsed) :
    parsed.1 = acc.1 ++ linesRows P T uuid j lines := by
  induction lines generalizing j acc with
  | nil =>
    cases h
    simp [linesRows]
  | cons line lines ih =>
    obtain ⟨rows, failed⟩ := acc
    obtain ⟨⟨partRows, fail⟩, hline, hrest⟩ := Db.Catalog.bind_eq_ok.mp h
    rw [ih hrest, linesRows_cons, lineRows_of_ok P T hline, List.append_assoc]

variable (uuid : Nat → Nat → Text)

/-- The rows of a future. -/
def futureRows (f : Nat × List Text) : List StagingRow := linesRows P T (uuid f.1) 0 f.2

def futuresRows (futures : List (Nat × List Text)) : List StagingRow :=
  futures.flatMap (futureRows P T uuid)

/-- The rows of what is under way. -/
def Feed.rows (feed : Feed) : List StagingRow :=
  futuresRows P T uuid feed.futures ++ futureRows P T uuid (feed.submitted, feed.batch)

theorem drainOne_sends (f : Nat × List Text) (s : State) :
    Sends State.held (s.held ++ futureRows P T uuid f) (drainOne w u P T uuid f s) := by
  unfold drainOne
  refine (raised_sends s (futureRows P T uuid f) fun parsed h => ?_).bind (List.prefix_refl _)
    fun parsed hparsed => ?_
  · rw [parseLinesFrom_rows P T h]
    rfl
  rw [← hparsed]
  refine (raiseIfCancelled_sends w s).bind (List.prefix_append ..) fun s₁ hs₁ => ?_
  rw [← hs₁]
  exact account_sends w u parsed s₁

theorem drainTo_sends (limit : Nat) (futures : List (Nat × List Text)) (s : State) :
    Sends (fun r => r.2.held ++ futuresRows P T uuid r.1) (s.held ++ futuresRows P T uuid futures)
      (drainTo w u P T uuid limit futures s) := by
  induction futures generalizing s with
  | nil => exact sends_ok rfl
  | cons f futures ih =>
    rw [drainTo]
    split
    · have hcons : s.held ++ futuresRows P T uuid (f :: futures) =
          s.held ++ futureRows P T uuid f ++ futuresRows P T uuid futures := by
        simp [futuresRows]
      rw [hcons]
      refine (drainOne_sends w u P T uuid f s).bind (List.prefix_append ..) fun s₁ hs₁ => ?_
      rw [← hs₁]
      exact ih s₁
    · exact sends_ok rfl

theorem Feed.rows_push (feed : Feed) (line : Text) : (feed.push line).rows P T uuid =
    feed.rows P T uuid ++ lineRows P T (uuid feed.submitted feed.batch.length) line := by
  simp [Feed.rows, Feed.push, futureRows, linesRows, List.zipIdx_append]

theorem Feed.rows_submit (feed : Feed) : feed.submit.rows P T uuid = feed.rows P T uuid := by
  simp [Feed.rows, Feed.submit, futuresRows, futureRows, linesRows]

/-- The rows of lines that are not blank from the line with number `i`, for several workers. -/
def batchedRows (i : Nat) (lines : List Text) : List StagingRow :=
  linesRows P T (fun i => uuid (i / u.parseLines) (i % u.parseLines)) i
    (lines.filter fun l => !(stripBytes l).isEmpty)

theorem feedLines_sends (lines : List Text) (feed : Feed) (s : State)
    (hbatch : feed.batch.length < u.parseLines) :
    Sends (fun r => r.2.held ++ r.1.rows P T uuid)
      (s.held ++ feed.rows P T uuid ++
        batchedRows u P T uuid (feed.submitted * u.parseLines + feed.batch.length) lines)
      (feedLines w u P T uuid lines feed s) := by
  induction lines generalizing feed s with
  | nil => exact sends_ok (by simp [batchedRows, linesRows])
  | cons line lines ih =>
    rw [feedLines]
    split
    · rename_i hblank
      have hskip : (line :: lines).filter (fun l => !(stripBytes l).isEmpty) =
          lines.filter (fun l => !(stripBytes l).isEmpty) := by simp [hblank]
      rw [batchedRows, hskip]
      exact ih feed s hbatch
    · rename_i hline
      have hkeep : (line :: lines).filter (fun l => !(stripBytes l).isEmpty) =
          line :: lines.filter (fun l => !(stripBytes l).isEmpty) := by simp [hline]
      have hdiv : (feed.submitted * u.parseLines + feed.batch.length) / u.parseLines =
          feed.submitted := by
        rw [Nat.add_comm, Nat.add_mul_div_right _ _ u.parseLines_pos, Nat.div_eq_of_lt hbatch,
          Nat.zero_add]
      have hmod : (feed.submitted * u.parseLines + feed.batch.length) % u.parseLines =
          feed.batch.length := by
        rw [Nat.add_comm, Nat.add_mul_mod_self_right, Nat.mod_eq_of_lt hbatch]
      -- the line is the next one of the batch that is filled
      have hpushed : s.held ++ feed.rows P T uuid ++
          batchedRows u P T uuid (feed.submitted * u.parseLines + feed.batch.length) (line :: lines) =
          s.held ++ (feed.push line).rows P T uuid ++
            batchedRows u P T uuid (feed.submitted * u.parseLines + feed.batch.length + 1) lines := by
        rw [batchedRows, hkeep, linesRows_cons, hdiv, hmod, Feed.rows_push]
        simp [batchedRows, List.append_assoc]
      have hlength : (feed.push line).batch.length = feed.batch.length + 1 := by simp [Feed.push]
      rw [hpushed]
      split
      · rename_i hfull
        rw [← Feed.rows_submit, Feed.rows]
        have hnext : feed.submitted * u.parseLines + feed.batch.length + 1 =
            (feed.push line).submit.submitted * u.parseLines + 0 := by
          have hsubmitted : (feed.push line).submit.submitted = feed.submitted + 1 := rfl
          rw [hsubmitted, Nat.succ_mul]
          omega
        have hempty : futureRows P T uuid
            ((feed.push line).submit.submitted, (feed.push line).submit.batch) = [] := rfl
        rw [hempty, List.append_nil, hnext]
        refine (drainTo_sends w u P T uuid u.maxInflight _ s).bind (List.prefix_append ..)
          fun r hr => ?_
        obtain ⟨futures, s₁⟩ := r
        rw [← hr]
        have hrest := ih { (feed.push line).submit with futures } s₁ u.parseLines_pos
        rw [Feed.rows, show futureRows P T uuid _ = [] from rfl, List.append_nil] at hrest
        exact hrest
      · rename_i hroom
        have hrest := ih (feed.push line) s (by omega)
        rw [hlength, ← Nat.add_assoc] at hrest
        exact hrest

theorem loadBatches_sends (lines : List Text) (s : State) :
    Sends State.held (s.held ++ batchedRows u P T uuid 0 lines)
      (loadBatches w u P T uuid lines s) := by
  unfold loadBatches
  have hfeed := feedLines_sends w u P T uuid lines ⟨[], 0, []⟩ s u.parseLines_pos
  have hnone : Feed.rows P T uuid ⟨[], 0, []⟩ = [] := rfl
  rw [hnone, List.append_nil] at hfeed
  simp only [Nat.zero_mul, List.length_nil, Nat.add_zero] at hfeed
  refine hfeed.bind (List.prefix_refl _) fun r hr => ?_
  obtain ⟨feed, s₁⟩ := r
  dsimp only at hr ⊢
  have hleft : futuresRows P T uuid (if feed.batch.isEmpty then feed else feed.submit).futures =
      feed.rows P T uuid := by
    split
    · rename_i hempty
      simp [Feed.rows, futureRows, linesRows, List.isEmpty_iff.mp hempty]
    · simp [Feed.submit, Feed.rows, futuresRows]
  rw [← hr, ← hleft]
  generalize (if feed.batch.isEmpty then feed else feed.submit).futures = futures
  have hdrain := drainTo_sends w u P T uuid 1 futures s₁
  -- the last futures are drained until none is left
  have hall : ∀ futures s, ∀ r, drainTo w u P T uuid 1 futures s = .ok r → r.1 = [] := by
    intro futures
    induction futures with
    | nil =>
      rintro s r ⟨⟩
      rfl
    | cons f futures ih =>
      intro s r h
      rw [drainTo, if_pos (by omega)] at h
      obtain ⟨s₂, -, h⟩ := Db.Catalog.bind_eq_ok.mp h
      exact ih s₂ r h
  cases hrun : drainTo w u P T uuid 1 futures s₁ with
  | error e =>
    rw [hrun] at hdrain
    exact hdrain
  | ok r =>
    rw [hrun] at hdrain
    have hrows : r.2.held ++ futuresRows P T uuid r.1 = s₁.held ++ futuresRows P T uuid futures :=
      hdrain
    rw [hall futures s₁ r hrun] at hrows
    exact sends_ok (by rw [← hrows]; simp [futuresRows])

/-! ## Sources of fiona -/

/-- The rows of records from the record with number `i`. -/
def featsRows (uuid : Nat → Text) (i : Nat) (feats : List Feat) : List StagingRow :=
  (feats.zipIdx i).flatMap fun f => recordRows P T (uuid f.2) f.1.record

theorem loadFeats_sends (uuid : Nat → Text) (i : Nat) (feats : List Feat) (s : State) :
    Sends State.held (s.held ++ featsRows P T uuid i feats)
      (loadFeats w u P T uuid i feats s) := by
  induction feats generalizing i s with
  | nil => exact sends_ok (List.append_nil _).symm
  | cons f feats ih =>
    have hcons : featsRows P T uuid i (f :: feats) =
        recordRows P T (uuid i) f.record ++ featsRows P T uuid (i + 1) feats := by
      simp [featsRows]
    rw [loadFeats, hcons]
    refine turn_sends w u i s (fun parsed h => ?_) (ih (i + 1))
    rw [recordRows, h]

/-- A source ends with an empty buffer. -/
def Flushed (s : State) : Prop := s.held = s.staging

theorem flushFinal_flushed {s s' : State} (h : flushFinal w s = .ok s') : Flushed s' := by
  unfold flushFinal at h
  split at h
  · rename_i hbuf
    cases h
    simp [Flushed, State.held, List.isEmpty_iff.mp hbuf]
  · unfold flushBatch at h
    dsimp only at h
    split at h
    · cases h
    · cases h
      simp [Flushed, State.held]

theorem loadFionaSource_sends (uuid : Nat → Text) (feats : List Feat) (s : State) :
    Sends State.staging (s.held ++ featsRows P T uuid 0 feats)
      (loadFionaSourceIntoStaging w u P T uuid feats s) := by
  unfold loadFionaSourceIntoStaging
  refine (loadFeats_sends w u P T uuid 0 feats s).bind (List.prefix_refl _) fun s₁ hs₁ => ?_
  rw [← hs₁]
  exact flushFinal_sends w s₁

theorem loadSources_sends (n k : Nat) (shapefiles : List (List Feat)) (s : State)
    (hs : Flushed s) :
    Sends State.staging (s.staging ++
        (shapefiles.zipIdx k).flatMap fun source => featsRows P T (uuid source.2) 0 source.1)
      (loadSources w u P T uuid n k shapefiles s) := by
  induction shapefiles generalizing k s with
  | nil => exact sends_ok (List.append_nil _).symm
  | cons feats shapefiles ih =>
    have hheld : (reportSource n s).held = s.staging := by
      rw [← hs]
      unfold reportSource
      split <;> rfl
    have hsource := loadFionaSource_sends w u P T (uuid k) feats (reportSource n s)
    rw [hheld] at hsource
    rw [loadSources, List.zipIdx_cons, List.flatMap_cons, ← List.append_assoc]
    cases hrun : loadFionaSourceIntoStaging w u P T (uuid k) feats (reportSource n s) with
    | error e =>
      rw [hrun] at hsource
      exact List.IsPrefix.trans hsource (List.prefix_append ..)
    | ok s₂ =>
      rw [hrun] at hsource
      obtain ⟨s₃, -, hflush⟩ := Db.Catalog.bind_eq_ok.mp hrun
      have hstaged : s₂.staging = s.staging ++ featsRows P T (uuid k) 0 feats := hsource
      rw [← hstaged]
      exact ih (k + 1) s₂ (flushFinal_flushed w hflush)

/-! ## The upload -/

theorem flatMap_filterMap {α β γ : Type} (g : α → Option β) (f : β → List γ) (xs : List α) :
    (xs.filterMap g).flatMap f = xs.flatMap fun x => ((g x).map f).getD [] := by
  induction xs with
  | nil => rfl
  | cons x xs ih => cases hx : g x <;> simp [hx, ih]

theorem Upload.rows_lines (file : Text) : (Upload.geojsonSeq file).rows P T u uuid =
    linesRows P T (fun i => uuid (lineTag u i).1 (lineTag u i).2) 0 (countedLines u file) := by
  unfold Upload.rows Upload.draws linesRows
  rw [flatMap_filterMap]
  refine List.flatMap_congr fun l _ => ?_
  unfold lineRows
  cases asRecord P l.1 <;> rfl

theorem Upload.rows_feats (feats : List Feat) : (Upload.single feats).rows P T u uuid =
    featsRows P T (uuid 0) 0 feats := by
  unfold Upload.rows Upload.draws featsRows
  rw [List.flatMap_map]

theorem Upload.rows_zip (shapefiles : List (List Feat)) :
    (Upload.zip shapefiles).rows P T u uuid =
      shapefiles.zipIdx.flatMap fun source => featsRows P T (uuid source.2) 0 source.1 := by
  unfold Upload.rows Upload.draws featsRows
  rw [List.flatMap_assoc]
  refine List.flatMap_congr fun source _ => ?_
  rw [List.flatMap_map]

/-- However a run ends, the table has the first rows of the upload, and all when it returns. -/
theorem loadUpload_sends (up : Upload) :
    Sends State.staging (up.rows P T u uuid) (loadUpload w u P T uuid up) := by
  cases up with
  | zip shapefiles =>
    rw [Upload.rows_zip]
    exact loadSources_sends w u P T uuid shapefiles.length 0 shapefiles .start rfl
  | single feats =>
    rw [Upload.rows_feats]
    exact loadFionaSource_sends w u P T (uuid 0) feats .start
  | geojsonSeq file =>
    rw [Upload.rows_lines]
    unfold loadUpload loadGeojsonSeqIntoStaging countedLines lineTag
    by_cases hone : u.workers ≤ 1
    · simp only [if_pos hone]
      refine (loadLines_sends w u P T (uuid 0) 0 (rawLines file) .start).bind (List.prefix_refl _)
        fun s₁ hs₁ => ?_
      have hrows := flushFinal_sends w s₁
      rw [hs₁] at hrows
      exact hrows
    · simp only [if_neg hone]
      refine (loadBatches_sends w u P T uuid (rawLines file) .start).bind (List.prefix_refl _)
        fun s₁ hs₁ => ?_
      have hrows := flushFinal_sends w s₁
      rw [hs₁] at hrows
      exact hrows

end

end Copy
end Geofastmap
