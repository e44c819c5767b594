import Geofastmap.Upload.Complete

/-!
# Geofastmap.Raster.Batch

The background job that converts uploaded rasters (`raster_batch.py`), and the user who cancels it
at some moment. The job reads its record before each entry and each member of a ZIP, and writes its
progress after most entries.

The moment is the number of steps the job has made: reads and writes of its record, and rasters
that are converted and stored.

`cancel_stops_iff` : the job stops exactly when the next thing it does with its record is the read
before an entry. A read inside a ZIP is taken for a failed entry, and a write replaces the status.
-/

namespace Geofastmap
namespace Raster

open Upload

inductive JobStatus where
  | pending | running | completed | failed | cancelled
deriving DecidableEq, Repr

/-- The record of the job. -/
structure JobInfo where
  status : JobStatus
  message : Text
  itemsCreated : Nat
  itemsFailed : Nat

structure Entry where
  kind : Text
  name : Text
  title : Option Text

structure Manifest where
  entries : List Entry
  sourceCrs : Option Text
  isDem : Bool
  demEncoding : Option Text

/-- What `create_raster_feature_from_source` stores. -/
structure RasterFeature where
  source : Text
  title : Option Text
  isDem : Bool
  demEncoding : Text
  sourceCrs : Option Text

/-- The archive, the collection, and the conversions. `members` may raise for a broken ZIP, and
`convert` is the error, if any, of the conversion that is the given step of the job. -/
structure Env where
  isFile : Text → Bool
  members : Text → Except Text (List Text)
  convert : Nat → RasterFeature → Option Text
  collectionIsDem : Bool
  collectionDemEncoding : Text

/-- `_normalize_dem_encoding`. -/
def normalizeDemEncoding (value : Option Text) : Text :=
  let enc := Sql.lower (strip (orText (value.getD []) "terrainrgb".toList))
  if enc = "terrainrgb".toList ∨ enc = "terrarium".toList then enc else "terrainrgb".toList

/-- `Path(name).stem`. -/
def pathStem (name : Text) : Text :=
  let base := ((name.splitOn '/').filter fun c => c ≠ [] ∧ c ≠ ['.']).getLast?.getD []
  base.take (base.length - (pathSuffix name).length)

/-- `vsizip_member_path`. -/
def vsizipMemberPath (zipPath memberName : Text) : Text :=
  "/vsizip/".toList ++ zipPath ++ '/' :: memberName.dropWhile (· == '/')

/-- The settings that all rasters of a batch share. -/
def feature (env : Env) (m : Manifest) (source : Text) (title : Option Text) : RasterFeature where
  source := source
  title := title
  isDem := m.isDem || env.collectionIsDem
  demEncoding :=
    if m.isDem then normalizeDemEncoding m.demEncoding
    else if env.collectionIsDem then env.collectionDemEncoding
    else normalizeDemEncoding m.demEncoding
  sourceCrs := (m.sourceCrs.map strip).filter fun crs => !crs.isEmpty

/-! ## Steps -/

/-- The job and what it has stored, each raster with its step. -/
structure State where
  clock : Nat
  job : JobInfo
  created : Nat
  failed : Nat
  lastErr : Option Text
  features : List (Nat × RasterFeature)

variable (env : Env) (m : Manifest) (cancelAt : Nat)

/-- What the user has done before the next step. -/
def arrive (s : State) : State :=
  if s.clock = cancelAt then
    { s with job := { s.job with status := .cancelled, message := "Cancelled by user.".toList } }
  else s

def tick (s : State) : State := { s with clock := s.clock + 1 }

/-- `_raise_if_raster_job_cancelled`. -/
def raiseIfCancelled (s : State) : Except State State :=
  let s := arrive cancelAt s
  if s.job.status = .cancelled then .error (tick s) else .ok (tick s)

/-- `update_job(job_id, status="running", items_created=created, items_failed=failed)`. -/
def writeProgress (s : State) : State :=
  let s := arrive cancelAt s
  tick { s with job := { s.job with
    status := .running, itemsCreated := s.created, itemsFailed := s.failed } }

/-- `create_raster_feature_from_source`, and its error. -/
def createFeature (f : RasterFeature) (s : State) : State × Option Text :=
  let s := arrive cancelAt s
  match env.convert s.clock f with
  | none => (tick { s with created := s.created + 1, features := s.features ++ [(s.clock, f)] }, none)
  | some e => (tick s, some e)

/-- `failed += 1` and `last_err = err`. -/
def fail (err : Text) (s : State) : State :=
  { s with failed := s.failed + 1, lastErr := some err }

/-! ## The job -/

/-- The members of a ZIP, up to the first that raises. A cancelled job raises as well. -/
def processMembers (path : Text) : List Text → State → State × Option Text
  | [], s => (s, none)
  | member :: members, s =>
    match raiseIfCancelled cancelAt s with
    | .error s => (s, some [])
    | .ok s =>
      match createFeature env cancelAt
        (feature env m (vsizipMemberPath path member) (some (pathStem member))) s with
      | (s, none) => processMembers path members s
      | (s, some e) => (s, some e)

/-- The end of the `try` of an entry, with what it raised. -/
def record : State × Option Text → State
  | (s, none) => writeProgress cancelAt s
  | (s, some e) => writeProgress cancelAt (fail (e.take 500) s)

/-- The body of the loop over the entries, after its first check. -/
def processEntry (ent : Entry) (s : State) : State :=
  if Sql.contains "..".toList ent.name ∨ ent.name.head? = some '/' then
    fail "Invalid archive path in manifest".toList s
  else if !env.isFile ent.name then
    fail ("Missing file in archive: ".toList ++ ent.name) s
  else if ent.kind = "geotiff".toList then
    record cancelAt (createFeature env cancelAt
      (feature env m ent.name (some (orText (ent.title.getD []) (pathStem ent.name)))) s)
  else if ent.kind = "zip".toList then
    match env.members ent.name with
    | .error e => record cancelAt (s, some e)
    | .ok [] => fail ("ZIP has no GeoTIFFs: ".toList ++ ent.name) s
    | .ok (member :: members) =>
      record cancelAt (processMembers env m cancelAt ent.name (member :: members) s)
  else writeProgress cancelAt (fail ("Unknown manifest entry kind: ".toList ++ ent.kind) s)

/-- The loop of `_process_raster_batch_async`; an error is `BulkImportCancelled`. -/
def processEntries : List Entry → State → Except State State
  | [], s => .ok s
  | ent :: entries, s =>
    match raiseIfCancelled cancelAt s with
    | .error s => .error s
    | .ok s => processEntries entries (processEntry env m cancelAt ent s)

/-- The last write of `run_raster_batch_job`. -/
def finish (s : State) : State :=
  let s := arrive cancelAt s
  let n := Sql.digits s.created
  tick { s with job :=
    if 0 < s.failed ∧ s.created = 0 then
      { status := .failed
        message := orText (s.lastErr.getD []) "All raster imports failed.".toList
        itemsCreated := s.created
        itemsFailed := s.failed }
    else
      { status := .completed
        message :=
          if 0 < s.failed then
            "Imported ".toList ++ n ++ " raster item(s); ".toList ++ Sql.digits s.failed ++
              " failed.".toList ++
              (if (s.lastErr.getD []).isEmpty then [] else " Last error: ".toList ++ s.lastErr.getD [])
          else "Imported ".toList ++ n ++ " raster item(s).".toList
        itemsCreated := s.created
        itemsFailed := s.failed } }

/-- The first write of `run_raster_batch_job`. -/
def start (job : JobInfo) : State :=
  let s := arrive cancelAt ⟨0, job, 0, 0, none, []⟩
  tick { s with job := { s.job with
    status := .running, message := "Converting rasters to COG…".toList } }

/-- `run_raster_batch_job`, from the manifest on. -/
def runRasterBatchJob (job : JobInfo) : State :=
  match processEntries env m cancelAt m.entries (start cancelAt job) with
  | .ok s => finish cancelAt s
  | .error s =>
    tick { s with job := { s.job with status := .cancelled, message := "Cancelled by user.".toList } }

/-- The cancel stops the job: of what is stored after it at most one raster, which was under way,
and the job ends cancelled. -/
def Stops (s : State) : Prop :=
  (s.features.filter fun f => cancelAt ≤ f.1).length ≤ 1 ∧ s.job.status = .cancelled

/-! ## The steps of a run that is not cancelled -/

inductive Op where
  | check | memberCheck | create | write
deriving DecidableEq, Repr

def memberOps (path : Text) : Nat → List Text → List Op
  | _, [] => []
  | clock, member :: members =>
    let f := feature env m (vsizipMemberPath path member) (some (pathStem member))
    .memberCheck :: .create ::
      (if (env.convert (clock + 1) f).isSome then [] else memberOps path (clock + 2) members)

/-- The steps of an entry after its check. -/
def entryOps (clock : Nat) (ent : Entry) : List Op :=
  if Sql.contains "..".toList ent.name ∨ ent.name.head? = some '/' then []
  else if !env.isFile ent.name then []
  else if ent.kind = "geotiff".toList then [.create, .write]
  else if ent.kind = "zip".toList then
    match env.members ent.name with
    | .error _ => [.write]
    | .ok [] => []
    | .ok (member :: members) => memberOps env m ent.name clock (member :: members) ++ [.write]
  else [.write]

def entriesOps : Nat → List Entry → List Op
  | _, [] => []
  | clock, ent :: entries =>
    let ops := entryOps env m (clock + 1) ent
    .check :: ops ++ entriesOps (clock + 1 + ops.length) entries

def jobOps : List Op := .write :: entriesOps env m 1 m.entries ++ [.write]

/-- The next step that reads or writes the record. -/
def nextRecordOp (ops : List Op) : Option Op := ops.find? fun op => op ≠ .create

/-! ## Steps before and after the cancel -/

/-- A running job, in which every raster was stored at an earlier step. -/
structure Running (s : State) : Prop where
  status : s.job.status = .running
  stored : ∀ f ∈ s.features, f.1 < s.clock

/-- The step `clock` of a stretch of `n` steps from `from`: past the cancel if that was among them,
and otherwise after all of them. -/
def Reached (start n clock : Nat) : Prop :=
  if start ≤ cancelAt ∧ cancelAt < start + n then cancelAt < clock else clock = start + n

theorem arrive_ne {s : State} (h : s.clock ≠ cancelAt) : arrive cancelAt s = s := by
  unfold arrive
  rw [if_neg h]

@[simp] theorem arrive_clock (s : State) : (arrive cancelAt s).clock = s.clock := by
  unfold arrive
  split <;> rfl

@[simp] theorem arrive_features (s : State) : (arrive cancelAt s).features = s.features := by
  unfold arrive
  split <;> rfl

@[simp] theorem tick_clock (s : State) : (tick s).clock = s.clock + 1 := rfl

@[simp] theorem fail_clock (err : Text) (s : State) : (fail err s).clock = s.clock := rfl

theorem Running.fail {s : State} (h : Running s) (err : Text) : Running (fail err s) :=
  ⟨h.status, h.stored⟩

theorem stored_tick {s : State} (h : ∀ f ∈ s.features, f.1 < s.clock) :
    ∀ f ∈ (tick s).features, f.1 < (tick s).clock := by
  intro f hf
  have hlt := h f hf
  rw [tick_clock]
  omega

theorem raiseIfCancelled_ne {s : State} (h : Running s) (hne : s.clock ≠ cancelAt) :
    raiseIfCancelled cancelAt s = .ok (tick s) ∧ Running (tick s) := by
  unfold raiseIfCancelled
  rw [arrive_ne cancelAt hne]
  simp only [h.status]
  exact ⟨rfl, h.status, stored_tick h.stored⟩

/-- Whatever the check says, it is one step. -/
theorem raiseIfCancelled_stored {s : State} (h : ∀ f ∈ s.features, f.1 < s.clock) :
    (∃ s', (raiseIfCancelled cancelAt s = .ok s' ∨ raiseIfCancelled cancelAt s = .error s') ∧
      s'.clock = s.clock + 1 ∧ ∀ f ∈ s'.features, f.1 < s'.clock) := by
  have hstored : ∀ f ∈ (tick (arrive cancelAt s)).features,
      f.1 < (tick (arrive cancelAt s)).clock := stored_tick (by simpa using h)
  refine ⟨tick (arrive cancelAt s), ?_, by simp, hstored⟩
  unfold raiseIfCancelled
  simp only
  split
  · exact Or.inr rfl
  · exact Or.inl rfl

theorem raiseIfCancelled_at {s : State} (heq : s.clock = cancelAt) :
    ∃ s', raiseIfCancelled cancelAt s = .error s' ∧ s'.features = s.features ∧
      s'.clock = s.clock + 1 := by
  refine ⟨tick (arrive cancelAt s), ?_, ?_, ?_⟩
  · unfold raiseIfCancelled arrive
    simp [heq]
  · exact arrive_features cancelAt s
  · simp

theorem writeProgress_running {s : State} (h : ∀ f ∈ s.features, f.1 < s.clock) :
    Running (writeProgress cancelAt s) := by
  constructor
  · rfl
  · intro f hf
    have hlt := h f (by simpa [writeProgress, tick] using hf)
    simp only [writeProgress, tick, arrive_clock]
    omega

@[simp] theorem writeProgress_clock (s : State) : (writeProgress cancelAt s).clock = s.clock + 1 := by
  simp [writeProgress]

theorem createFeature_stored {s : State} (h : ∀ f ∈ s.features, f.1 < s.clock)
    (f : RasterFeature) :
    (createFeature env cancelAt f s).1.clock = s.clock + 1 ∧
    (∀ g ∈ (createFeature env cancelAt f s).1.features, g.1 < s.clock + 1) ∧
    (createFeature env cancelAt f s).2 = env.convert s.clock f ∧
    (s.clock ≠ cancelAt → (createFeature env cancelAt f s).1.job = s.job) := by
  unfold createFeature
  simp only [arrive_clock]
  cases hconvert : env.convert s.clock f with
  | none =>
    refine ⟨by simp, ?_, rfl, ?_⟩
    · intro g hg
      simp only [tick, arrive_features, List.mem_append, List.mem_singleton] at hg
      rcases hg with hg | rfl
      · have hlt := h g hg
        omega
      · exact Nat.lt_succ_self _
    · intro hne
      simp [tick, arrive_ne cancelAt hne]
  | some e =>
    refine ⟨by simp, ?_, rfl, ?_⟩
    · intro g hg
      have hlt := h g (by simpa [tick] using hg)
      omega
    · intro hne
      simp [tick, arrive_ne cancelAt hne]

/-! ## Members -/

theorem processMembers_stored (path : Text) (members : List Text) {s : State}
    (h : ∀ f ∈ s.features, f.1 < s.clock) :
    s.clock ≤ (processMembers env m cancelAt path members s).1.clock ∧
    ∀ f ∈ (processMembers env m cancelAt path members s).1.features,
      f.1 < (processMembers env m cancelAt path members s).1.clock := by
  induction members generalizing s with
  | nil => exact ⟨le_refl _, h⟩
  | cons member members ih =>
    rw [processMembers]
    obtain ⟨s', hs', hclock, hstored⟩ := raiseIfCancelled_stored cancelAt h
    rcases hs' with hs' | hs'
    · rw [hs']
      simp only
      obtain ⟨hclock', hstored', -, -⟩ := createFeature_stored env cancelAt hstored
        (feature env m (vsizipMemberPath path member) (some (pathStem member)))
      cases hcreate : createFeature env cancelAt
          (feature env m (vsizipMemberPath path member) (some (pathStem member))) s' with
      | mk s'' err =>
        rw [hcreate] at hclock' hstored'
        rw [← hclock'] at hstored'
        simp only at hclock' hstored'
        cases err with
        | none =>
          obtain ⟨hle, hrest⟩ := ih hstored'
          refine ⟨?_, hrest⟩
          show s.clock ≤ (processMembers env m cancelAt path members s'').1.clock
          omega
        | some e =>
          refine ⟨?_, hstored'⟩
          show s.clock ≤ s''.clock
          omega
    · rw [hs']
      exact ⟨by simp only; omega, hstored⟩

theorem processMembers_reached (path : Text) (members : List Text) {s : State} (h : Running s) :
    Reached cancelAt s.clock (memberOps env m path s.clock members).length
      (processMembers env m cancelAt path members s).1.clock := by
  induction members generalizing s with
  | nil =>
    unfold Reached
    rw [if_neg (by simp [memberOps])]
    rfl
  | cons member members ih =>
    rw [processMembers, memberOps]
    by_cases hat : s.clock = cancelAt
    · obtain ⟨s', hs', -, hclock⟩ := raiseIfCancelled_at cancelAt hat
      rw [hs']
      unfold Reached
      rw [if_pos (by simp only [List.length_cons]; omega)]
      simp only
      omega
    · obtain ⟨hcheck, hrun⟩ := raiseIfCancelled_ne cancelAt h hat
      rw [hcheck]
      simp only
      obtain ⟨hclock, hstored, herr, hjob⟩ := createFeature_stored env cancelAt hrun.stored
        (feature env m (vsizipMemberPath path member) (some (pathStem member)))
      cases hcreate : createFeature env cancelAt
          (feature env m (vsizipMemberPath path member) (some (pathStem member))) (tick s) with
      | mk s' err =>
        rw [hcreate] at hclock hstored herr hjob
        simp only [tick_clock] at hclock hstored herr hjob
        rw [← herr]
        cases err with
        | some e =>
          unfold Reached
          simp only [Option.isSome_some, if_true, List.length_cons, List.length_nil]
          split <;> omega
        | none =>
          simp only [Option.isSome_none, Bool.false_eq_true, if_false, List.length_cons]
          have hstored' : ∀ f ∈ s'.features, f.1 < s'.clock := by
            intro f hf
            have hlt := hstored f hf
            omega
          by_cases hduring : s.clock + 1 = cancelAt
          · obtain ⟨hle, -⟩ := processMembers_stored env m cancelAt path members hstored'
            unfold Reached
            rw [if_pos (by omega)]
            omega
          · have hrest := ih ⟨(by rw [hjob hduring]; exact hrun.status), hstored'⟩
            have htwo : s'.clock = s.clock + 2 := by omega
            rw [htwo] at hrest
            unfold Reached at hrest ⊢
            split at hrest
            · rw [if_pos (by omega)]
              exact hrest
            · rw [if_neg (by omega)]
              omega

/-! ## Entries -/

/-- The steps of an entry end with a write, and the check of an entry is not among them. -/
theorem entryOps_cases (clock : Nat) (ent : Entry) :
    entryOps env m clock ent = [] ∨
      ∃ ops, entryOps env m clock ent = ops ++ [.write] ∧ Op.check ∉ ops := by
  have hmembers (path : Text) (members : List Text) (clock : Nat) :
      Op.check ∉ memberOps env m path clock members := by
    induction members generalizing clock with
    | nil => simp [memberOps]
    | cons member members ih =>
      simp only [memberOps, List.mem_cons, reduceCtorEq, false_or]
      split
      · simp
      · exact ih _
  unfold entryOps
  split
  · exact Or.inl rfl
  · split
    · exact Or.inl rfl
    · split
      · exact Or.inr ⟨[.create], rfl, by simp⟩
      · split
        · split
          · exact Or.inr ⟨[], rfl, by simp⟩
          · exact Or.inl rfl
          · exact Or.inr ⟨_, rfl, hmembers _ _ _⟩
        · exact Or.inr ⟨[], rfl, by simp⟩

/-- Within an entry the next thing that the job does with its record is no check of an entry. -/
theorem nextRecordOp_entry {clock : Nat} {ent : Entry} {k : Nat}
    (hk : k < (entryOps env m clock ent).length) :
    ∃ op, nextRecordOp ((entryOps env m clock ent).drop k) = some op ∧ op ≠ .check := by
  rcases entryOps_cases env m clock ent with hnil | ⟨ops, hops, hcheck⟩
  · simp [hnil] at hk
  · rw [hops, List.length_append, List.length_singleton] at hk
    rw [hops, List.drop_append_of_le_length (by omega), nextRecordOp, List.find?_append]
    cases hfind : (ops.drop k).find? fun op => decide (op ≠ .create) with
    | none => exact ⟨.write, rfl, by simp⟩
    | some op =>
      refine ⟨op, rfl, ?_⟩
      rintro rfl
      exact hcheck (List.mem_of_mem_drop (List.mem_of_find?_eq_some hfind))

theorem nextRecordOp_within {clock : Nat} {ent : Entry} {k : Nat}
    (hk : k < (entryOps env m clock ent).length) (rest : List Op) :
    nextRecordOp ((Op.check :: entryOps env m clock ent ++ rest).drop (k + 1)) ≠ some .check := by
  obtain ⟨op, hop, hne⟩ := nextRecordOp_entry env m hk
  rw [List.cons_append, List.drop_succ_cons, List.drop_append_of_le_length (by omega),
    nextRecordOp, List.find?_append]
  rw [nextRecordOp] at hop
  rw [hop, Option.some_or]
  simpa using hne

theorem Reached.write {start n clock : Nat} (h : Reached cancelAt start n clock) :
    Reached cancelAt start (n + 1) (clock + 1) := by
  unfold Reached at h ⊢
  split at h
  · rw [if_pos (by omega)]
    omega
  · split <;> omega

/-- A stretch after one that ended before the cancel. -/
theorem Reached.behind {start n first rest clock : Nat} (hfirst : first = start + n)
    (hle : first ≤ cancelAt) (h : Reached cancelAt first rest clock) :
    Reached cancelAt start (n + rest) clock := by
  unfold Reached at h ⊢
  split at h
  · rw [if_pos (by omega)]
    exact h
  · rw [if_neg (by omega)]
    omega

theorem record_reached {start n : Nat} {r : State × Option Text}
    (hstored : ∀ f ∈ r.1.features, f.1 < r.1.clock) (h : Reached cancelAt start n r.1.clock) :
    Running (record cancelAt r) ∧ Reached cancelAt start (n + 1) (record cancelAt r).clock := by
  obtain ⟨s, err⟩ := r
  cases err with
  | none =>
    refine ⟨writeProgress_running cancelAt hstored, ?_⟩
    show Reached cancelAt start (n + 1) (writeProgress cancelAt s).clock
    rw [writeProgress_clock]
    exact h.write
  | some e =>
    refine ⟨writeProgress_running cancelAt hstored, ?_⟩
    show Reached cancelAt start (n + 1) (writeProgress cancelAt (fail (e.take 500) s)).clock
    rw [writeProgress_clock, fail_clock]
    exact h.write

theorem processEntry_reached (ent : Entry) {s : State} (h : Running s) :
    Running (processEntry env m cancelAt ent s) ∧
    Reached cancelAt s.clock (entryOps env m s.clock ent).length
      (processEntry env m cancelAt ent s).clock := by
  have hnone : Reached cancelAt s.clock 0 s.clock := by
    unfold Reached
    rw [if_neg (by omega)]
    rfl
  have hskip (err : Text) : Running (fail err s) ∧ Reached cancelAt s.clock 0 (fail err s).clock :=
    ⟨h.fail err, hnone⟩
  unfold processEntry entryOps
  split
  · exact hskip _
  · split
    · exact hskip _
    · split
      · obtain ⟨hclock, hstored, -, -⟩ := createFeature_stored env cancelAt h.stored
          (feature env m ent.name (some (orText (ent.title.getD []) (pathStem ent.name))))
        have hone : Reached cancelAt s.clock 1 (s.clock + 1) := by
          unfold Reached
          split <;> omega
        rw [← hclock] at hstored hone
        exact record_reached cancelAt hstored hone
      · split
        · split
          · exact record_reached cancelAt h.stored hnone
          · exact hskip _
          · rename_i member members _
            obtain ⟨-, hstored⟩ := processMembers_stored env m cancelAt ent.name
              (member :: members) h.stored
            rw [List.length_append, List.length_singleton]
            exact record_reached cancelAt hstored
              (processMembers_reached env m cancelAt ent.name (member :: members) h)
        · refine ⟨writeProgress_running cancelAt h.stored, ?_⟩
          rw [writeProgress_clock, fail_clock]
          exact hnone.write

/-- The loop over the entries: it ends before the cancel, it stops at it, or it goes past it. -/
theorem processEntries_spec (entries : List Entry) {s : State} (h : Running s) :
    (∃ s', processEntries env m cancelAt entries s = .ok s' ∧ Running s' ∧
      (cancelAt < s.clock → cancelAt < s'.clock) ∧
      (s.clock ≤ cancelAt → Reached cancelAt s.clock (entriesOps env m s.clock entries).length
          s'.clock ∧
        nextRecordOp ((entriesOps env m s.clock entries).drop (cancelAt - s.clock)) ≠
          some .check)) ∨
    (∃ s', processEntries env m cancelAt entries s = .error s' ∧ s.clock ≤ cancelAt ∧
      nextRecordOp ((entriesOps env m s.clock entries).drop (cancelAt - s.clock)) = some .check ∧
      ∀ f ∈ s'.features, f.1 < cancelAt) := by
  induction entries generalizing s with
  | nil =>
    left
    refine ⟨s, rfl, h, id, ?_⟩
    intro hle
    constructor
    · unfold Reached
      rw [if_neg (by simp [entriesOps])]
      rfl
    · simp [entriesOps, nextRecordOp]
  | cons ent entries ih =>
    rw [processEntries]
    by_cases hat : s.clock = cancelAt
    · right
      obtain ⟨s', hs', hfeatures, -⟩ := raiseIfCancelled_at cancelAt hat
      rw [hs']
      refine ⟨s', rfl, by omega, ?_, ?_⟩
      · rw [hat, Nat.sub_self, List.drop_zero, entriesOps]
        rfl
      · rw [hfeatures, ← hat]
        exact h.stored
    · obtain ⟨hcheck, hrun⟩ := raiseIfCancelled_ne cancelAt h hat
      rw [hcheck]
      simp only
      obtain ⟨hentry, hreached⟩ := processEntry_reached env m cancelAt ent hrun
      rw [tick_clock] at hreached
      rw [entriesOps]
      generalize processEntry env m cancelAt ent (tick s) = s₁ at hentry hreached
      unfold Reached at hreached
      split at hreached
      · -- the cancel falls into this entry
        rename_i hin
        rcases ih hentry with ⟨s', hs', hrun', hpast, -⟩ | ⟨s', -, hle, -⟩
        · left
          refine ⟨s', hs', hrun', fun _ => hpast hreached, fun hle => ⟨?_, ?_⟩⟩
          · unfold Reached
            rw [if_pos (by simp only [List.length_append, List.length_cons]; omega)]
            exact hpast hreached
          · have hdrop : cancelAt - s.clock = (cancelAt - s.clock - 1) + 1 := by omega
            rw [hdrop]
            exact nextRecordOp_within env m (by omega) _
        · omega
      · rename_i hout
        by_cases hpast : cancelAt < s.clock
        · rcases ih hentry with ⟨s', hs', hrun', hpast', -⟩ | ⟨s', -, hle, -⟩
          · exact Or.inl ⟨s', hs', hrun', fun _ => hpast' (by omega), fun hle => by omega⟩
          · omega
        · -- the cancel falls behind this entry
          have hdrop : (Op.check :: entryOps env m (s.clock + 1) ent ++
              entriesOps env m (s.clock + 1 + (entryOps env m (s.clock + 1) ent).length)
                entries).drop (cancelAt - s.clock) =
              (entriesOps env m s₁.clock entries).drop (cancelAt - s₁.clock) := by
            have hsub : cancelAt - s.clock =
                (Op.check :: entryOps env m (s.clock + 1) ent).length + (cancelAt - s₁.clock) := by
              simp only [List.length_cons]
              omega
            rw [hsub, List.drop_length_add_append, hreached]
          rw [hdrop]
          rcases ih hentry with ⟨s', hs', hrun', hpast', hbehind⟩ | ⟨s', hs', hle, hnext, hstored⟩
          · left
            refine ⟨s', hs', hrun', fun hlt => by omega, fun _ => ?_⟩
            obtain ⟨hrest, hnext⟩ := hbehind (by omega)
            refine ⟨?_, hnext⟩
            rw [List.length_append, ← hreached]
            refine hrest.behind cancelAt ?_ (by omega)
            rw [List.length_cons]
            omega
          · exact Or.inr ⟨s', hs', by omega, hnext, hstored⟩

/-! ## The whole job -/

theorem finish_status (s : State) : (finish cancelAt s).job.status ≠ .cancelled := by
  unfold finish tick
  simp only
  split <;> simp

theorem start_running (job : JobInfo) :
    Running (start cancelAt job) ∧ (start cancelAt job).clock = 1 := by
  unfold start
  refine ⟨⟨rfl, ?_⟩, ?_⟩
  · intro f hf
    simp [tick] at hf
  · simp

/-- A cancelled job stops exactly when the next thing that it does with its record is the check
before an entry. -/
theorem cancel_stops_iff (job : JobInfo) :
    Stops cancelAt (runRasterBatchJob env m cancelAt job) ↔
      nextRecordOp ((jobOps env m).drop cancelAt) = some .check := by
  obtain ⟨hrun, hclock⟩ := start_running cancelAt job
  have hspec := processEntries_spec env m cancelAt m.entries hrun
  rw [hclock] at hspec
  have hops : cancelAt = 0 ∨ 1 ≤ cancelAt ∧ nextRecordOp ((jobOps env m).drop cancelAt) =
      (nextRecordOp ((entriesOps env m 1 m.entries).drop (cancelAt - 1))).or
        (nextRecordOp ([Op.write].drop (cancelAt - 1 - (entriesOps env m 1 m.entries).length))) := by
    by_cases hzero : cancelAt = 0
    · exact Or.inl hzero
    · refine Or.inr ⟨by omega, ?_⟩
      have hsucc : cancelAt = (cancelAt - 1) + 1 := by omega
      rw [jobOps, hsucc, List.cons_append, List.drop_succ_cons, List.drop_append, nextRecordOp,
        List.find?_append, Nat.add_sub_cancel]
      rfl
  have hwrite (k : Nat) : nextRecordOp ([Op.write].drop k) ≠ some .check := by
    cases k <;> simp [nextRecordOp]
  unfold runRasterBatchJob
  rcases hspec with ⟨s', hs', -, -, hbehind⟩ | ⟨s', hs', hle, hnext, hstored⟩
  · rw [hs']
    constructor
    · intro h
      exact absurd h.2 (finish_status cancelAt s')
    · intro h
      exfalso
      rcases hops with hzero | ⟨hone, hops⟩
      · rw [hzero] at h
        simp [jobOps, nextRecordOp] at h
      · rw [hops] at h
        rcases Option.or_eq_some_iff.mp h with h | ⟨-, h⟩
        · exact (hbehind hone).2 h
        · exact hwrite _ h
  · rw [hs']
    constructor
    · intro _
      rcases hops with hzero | ⟨-, hops⟩
      · omega
      · rw [hops, hnext, Option.some_or]
    · intro _
      refine ⟨?_, rfl⟩
      have hnone : s'.features.filter (fun f => cancelAt ≤ f.1) = [] := by
        rw [List.filter_eq_nil_iff]
        intro f hf
        have hlt := hstored f hf
        simp only [decide_eq_true_eq]
        omega
      show (s'.features.filter fun f => cancelAt ≤ f.1).length ≤ 1
      rw [hnone]
      exact Nat.zero_le 1

/-- Three rasters that convert well. -/
def threeRasters : Manifest where
  entries := ["a.tif", "b.tif", "c.tif"].map fun name => ⟨"geotiff".toList, name.toList, none⟩
  sourceCrs := none
  isDem := false
  demEncoding := none

def goodFiles : Env where
  isFile _ := true
  members _ := .ok []
  convert _ _ := none
  collectionIsDem := false
  collectionDemEncoding := "terrainrgb".toList

def pendingJob : JobInfo := ⟨.pending, [], 0, 0⟩

/-- A cancel while the first raster is converted: all three are stored, and the job completes. -/
theorem cancel_lost : ¬ ∀ env m cancelAt job, Stops cancelAt (runRasterBatchJob env m cancelAt job) := by
  intro h
  have hstops := h goodFiles threeRasters 2 pendingJob
  unfold Stops at hstops
  revert hstops
  decide

end Raster
end Geofastmap
