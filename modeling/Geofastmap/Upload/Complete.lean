import Geofastmap.Interleave.Fault
import Geofastmap.Upload.Sessions

/-!
# Geofastmap.Upload.Complete

The end of a resumable upload (`complete_bulk_upload_session`), with the checks of the import mode
and of the filters (`bulk_import_params.py`, `property_filters.py`).

The environment says of every step whether it raises and whether it has taken effect. Once the job
record is there, a step that fails leaves it pending; parts and session are deleted whether or not
the assembly succeeded, and the parameters are checked after that.

* `under_startJob`, `under_closeSession`, `under_queueUpload` : what each stage leaves.
* `all_or_nothing_iff` : exactly when the call leaves a queued job for the assembled file and no
  session, or an untouched session and no open job.
-/

namespace Geofastmap
namespace Upload

open Db Bulk Interleave

/-! ## Parameters -/

/-- Where `str.splitlines` ends a line. -/
def isLineBreak (ch : Char) : Bool :=
  let n := ch.toNat
  (10 ≤ n && n ≤ 13) || (28 ≤ n && n ≤ 30) || n == 0x85 || n == 0x2028 || n == 0x2029

/-- `[line.strip() for line in s.splitlines() if line.strip()]`. -/
def strippedLines (s : Text) : List Text :=
  ((s.splitOnP isLineBreak).map strip).filter (!·.isEmpty)

/-- `replace_filters` of a request. -/
inductive RawFilters where
  | absent
  | text (s : Text)
  | lines (l : List Text)
deriving DecidableEq

/-- `_normalize_replace_filters_raw`. -/
def normalizeReplaceFiltersRaw : RawFilters → List Text
  | .absent => []
  | .text s => strippedLines s
  | .lines l => l.flatMap fun item =>
      if '\n' ∈ item then strippedLines item
      else if (strip item).isEmpty then [] else [strip item]

inductive PropertyOp where
  | eq | ne | gt | gte | lt | lte | like | ilike
deriving DecidableEq

def PropertyOp.value : PropertyOp → Text
  | .eq => "eq".toList
  | .ne => "ne".toList
  | .gt => "gt".toList
  | .gte => "gte".toList
  | .lt => "lt".toList
  | .lte => "lte".toList
  | .like => "like".toList
  | .ilike => "ilike".toList

def PropertyOp.all : List PropertyOp := [.eq, .ne, .gt, .gte, .lt, .lte, .like, .ilike]

structure PropertyFilter where
  key : Text
  op : PropertyOp
  value : Text
deriving DecidableEq

/-- `s.split(":", 2)` when it has three parts. -/
def splitFilter (s : Text) : Option (Text × Text × Text) :=
  match s.span (· != ':') with
  | (key, _ :: rest) =>
    match rest.span (· != ':') with
    | (op, _ :: value) => some (key, op, value)
    | (_, []) => none
  | (_, []) => none

def parseFilter (s : Text) : Option PropertyFilter := do
  let (key, op, value) ← splitFilter (strip s)
  let key := strip key
  let op := Sql.lower (strip op)
  if key.isEmpty then none
  else
    let op ← PropertyOp.all.find? (·.value == op)
    return ⟨key, op, value⟩

/-- `parse_filter_param`. -/
def parseFilterParam (filters : List Text) : List PropertyFilter := filters.filterMap parseFilter

def PropertyFilter.line (pf : PropertyFilter) : Text :=
  pf.key ++ ':' :: pf.op.value ++ ':' :: pf.value

def orText (s t : Text) : Text := if s.isEmpty then t else s

/-- `validate_bulk_import_mode_and_filters`. -/
def validateBulkImportModeAndFilters (cfg : UploadSettings) (mode : Text) (raw : RawFilters) :
    Except Exn (ImportMode × List Text) :=
  let mode := strip (orText mode "append".toList)
  let lines := normalizeReplaceFiltersRaw raw
  if mode = "append".toList ∨ mode = "replace".toList then
    if lines.isEmpty then
      .ok (.plain (if mode = "append".toList then .append else .replace), [])
    else .error (.http 400)
  else if mode = "replace_filtered".toList then
    if cfg.bulkCopyIngestEnabled then .error (.http 400)
    else if (parseFilterParam lines).isEmpty then .error (.http 400)
    else .ok (.replaceFiltered, (parseFilterParam lines).map PropertyFilter.line)
  else .error (.http 400)

/-- `queue_compute_tiles` of a request. -/
inductive RawFlag where
  | absent
  | flag (b : Bool)
  | text (s : Text)
deriving DecidableEq

/-- `parse_queue_compute_tiles`, with the flag of the session for an absent one. -/
def parseQueueComputeTiles (stored : Bool) : RawFlag → Bool
  | .absent => stored
  | .flag b => b
  | .text s => ["false".toList, "0".toList, "no".toList, []].all (Sql.lower s != ·)

/-- `pathlib.Path(filename).suffix`. -/
def pathSuffix (filename : Text) : Text :=
  let name := ((filename.splitOn '/').filter fun c => c ≠ [] ∧ c ≠ ['.']).getLast?.getD []
  match name.reverse.span (· != '.') with
  | (ext, _ :: _ :: _) => if ext.isEmpty then [] else '.' :: ext.reverse
  | _ => []

def bulkSuffixes : List Text := [".kml", ".gpkg", ".geojson", ".json", ".geojsonl", ".geojsonseq",
  ".jsonl", ".zip"].map String.toList

def uploadSuffix (filename : Text) : Text :=
  let suffix := Sql.lower (pathSuffix (orText filename "upload.geojson".toList))
  if suffix ∈ bulkSuffixes then suffix else ".geojson".toList

def storageKey (job : JobId) (s : UploadSession) : Text := job.text ++ uploadSuffix s.filename

/-! ## The call -/

/-- A call to complete an upload. `permitted`: the collection is there, and the user may edit it.
An empty list of parts stands for an absent one; a part below 1 is given as 0. -/
structure CompleteRequest where
  permitted : Except Exn Unit
  collectionId : CollectionId
  userId : Option Nat
  parts : List Nat
  mode : Text
  replaceFilters : RawFilters
  queueComputeTiles : RawFlag

def CompleteRequest.chosen (req : CompleteRequest) (s : UploadSession) : List Nat :=
  if req.parts.isEmpty then s.parts else req.parts

/-- The filters of the request, or those of the session. -/
def CompleteRequest.filters (req : CompleteRequest) (s : UploadSession) : RawFilters :=
  match req.replaceFilters with
  | .absent => if s.replaceFilters.isEmpty then .absent
      else .text (['\n'].intercalate s.replaceFilters)
  | raw => raw

section
variable (cfg : UploadSettings) (job : JobId) (req : CompleteRequest) (s : UploadSession)

def CompleteRequest.params : Except Exn (ImportMode × List Text) :=
  validateBulkImportModeAndFilters cfg (orText req.mode (orText s.mode "append".toList))
    (req.filters s)

def CompleteRequest.payload (mode : ImportMode) : BulkJobPayload where
  jobId := job
  collectionId := req.collectionId
  storageKey := storageKey job s
  mode := mode
  batchSize := if s.batchSize = 0 then cfg.bulkImportBatchSize else s.batchSize
  ownerId := req.userId
  queueComputeTiles := parseQueueComputeTiles s.queueComputeTiles req.queueComputeTiles
  jobKind := .single

/-- `create_job`. -/
def createJob : Call Unit :=
  runRedisRetry cfg (do
    Prog.write .createJob fun st => { st with jobs := Function.update st.jobs job (some .pending) }
    Prog.write .indexJob id)

/-- `delete_upload_parts`, which ignores errors. -/
def deleteUploadParts : Call Unit :=
  tryCatch (Prog.write .deleteParts fun st => { st with part := fun _ => none }) fun _ => pure ()

def registerBulkImportJob (key : Text) : Call Unit :=
  runRedisRetry cfg (Prog.write .register fun st =>
    { st with registered := Function.update st.registered job (some key) })

def enqueue (payload : BulkJobPayload) : Call Unit :=
  tryCatch
    (runRedisRetry cfg (Prog.write .enqueue fun st =>
      { st with bulkQueue := payload :: st.bulkQueue }))
    fun _ => throw .runtime

/-- `storage.delete`, which ignores errors. -/
def deleteFile (key : Text) : Call Unit :=
  tryCatch (Prog.write .deleteFile fun st => { st with files := Function.update st.files key none })
    fun _ => pure ()

/-- The file is assembled; the parts and the session are deleted in any case. -/
def closeSession : Call Unit :=
  Prog.tryFinally
    (tryCatch (assembleChunkParts (req.chosen s) (storageKey job s)) fun _ => throw (.http 500))
    (do
      deleteUploadParts
      deleteUploadSession cfg)

/-- `list_shp_in_zip` of a zip file, whose errors are ignored. -/
def listShpInZip : Call Unit :=
  if uploadSuffix s.filename = ".zip".toList then
    tryCatch (Prog.read .listShp fun _ => ()) fun _ => pure ()
  else pure ()

def queueUpload (mode : ImportMode) : Call Unit :=
  tryCatch
    (do
      registerBulkImportJob cfg job (storageKey job s)
      enqueue cfg (req.payload cfg job s mode))
    fun _ => do
      deleteFile (storageKey job s)
      throw (.http 503)

/-- The call after its checks. -/
def completeParts : Call Unit := do
  createJob cfg job
  closeSession cfg job req s
  listShpInZip s
  match req.params cfg s with
  | .error e => throw e
  | .ok (mode, _) => queueUpload cfg job req s mode

/-- `job` is the new id that `create_job` draws. -/
def completeBulkUploadSession : Call Unit := do
  liftCheck req.permitted
  let session ← getUploadSession cfg .getSession
  match session with
  | none => throw (.http 404)
  | some s =>
    if s.collectionId ≠ req.collectionId then throw (.http 404)
    else if (req.chosen s).isEmpty then throw (.http 400)
    else completeParts cfg job req s

end

/-! ## What each stage leaves -/

/-- The environment: which steps raise, in every attempt, and whether they have taken effect. -/
abbrev Env := Label → Fault Exn

def UploadState.withJob (job : JobId) (st : UploadState) : UploadState :=
  { st with jobs := Function.update st.jobs job (some .pending) }

@[simp] theorem withJob_withJob (job : JobId) (st : UploadState) :
    (st.withJob job).withJob job = st.withJob job := by
  simp [UploadState.withJob]

/-- No job and no entry of the queue is touched. -/
structure SameJobs (st st' : UploadState) : Prop where
  jobs : st'.jobs = st.jobs
  queue : st'.bulkQueue = st.bulkQueue

theorem SameJobs.refl (st : UploadState) : SameJobs st st := ⟨rfl, rfl⟩

theorem SameJobs.trans {st st' st'' : UploadState} (h : SameJobs st st') (h' : SameJobs st' st'') :
    SameJobs st st'' :=
  ⟨h'.jobs.trans h.jobs, h'.queue.trans h.queue⟩

section Stages
variable {cfg : UploadSettings} {f : Env} {job : JobId} {req : CompleteRequest}
  {s : UploadSession} {st : UploadState} {key : Text}

theorem under_createJob (st : UploadState) :
    (createJob cfg job).under f st =
      match f .createJob with
      | some (e, late) => (.error e, if late then st.withJob job else st)
      | none =>
        match f .indexJob with
        | some (e, _) => (.error e, st.withJob job)
        | none => (.ok (), st.withJob job) := by
  have hbody : ∀ st : UploadState, (do
      Prog.write .createJob fun st =>
        { st with jobs := Function.update st.jobs job (some .pending) }
      Prog.write .indexJob id : Call Unit).under f st =
      match f .createJob with
      | some (e, late) => (.error e, if late then st.withJob job else st)
      | none =>
        match f .indexJob with
        | some (e, _) => (.error e, st.withJob job)
        | none => (.ok (), st.withJob job) := by
    intro st
    rw [Prog.under_bind, Prog.under_write]
    cases f .createJob with
    | some x => rfl
    | none =>
      simp only [Prog.under_write]
      cases f .indexJob with
      | none => rfl
      | some x => simp only [id, ite_self, UploadState.withJob]
  unfold createJob runRedisRetry
  cases hc : f .createJob with
  | some x =>
    obtain ⟨e, late⟩ := x
    refine Prog.under_retry_error (by rw [hbody, hc]) ?_ _
    rw [hbody, hc]
    cases late <;> simp
  | none =>
    cases hi : f .indexJob with
    | some x =>
      refine Prog.under_retry_error (by rw [hbody, hc, hi]) ?_ _
      rw [hbody, hc, hi]
      simp
    | none => exact Prog.under_retry_ok (by rw [hbody, hc, hi]) _

/-! ### Assembly -/

def Copies (f : Env) (st : UploadState) (p : Nat) : Prop :=
  f (.copyPart p) = none ∧ 1 ≤ p ∧ (st.part p).isSome = true

def Assembles (f : Env) (st : UploadState) (parts : List Nat) : Prop :=
  f .openFile = none ∧ ∀ p ∈ parts, Copies f st p

/-- The contents of the parts in order. -/
def concatParts (st : UploadState) (parts : List Nat) : Bytes :=
  (sortedSet parts).flatMap fun p => (st.part p).getD []

/-- A part with a wrong number, a failing read or no file stops the assembly. -/
theorem under_copyParts_refused {p : Nat} {ps : List Nat} {st : UploadState}
    (h : ¬Copies f st p) : ((copyParts key (p :: ps)).under f st).1 ≠ .ok () := by
  rw [copyParts]
  by_cases hp : p < 1
  · rw [if_pos hp]
    simp
  · rw [if_neg hp, Prog.under_bind, Prog.under_atomic]
    cases hf : f (.copyPart p) with
    | some x => simp
    | none =>
      cases hb : st.part p with
      | none => simp
      | some bytes => exact absurd ⟨hf, by omega, by simp [hb]⟩ h

theorem under_copyParts (ps : List Nat) : ∀ {st : UploadState} {done : Bytes},
    st.files key = some done →
    (((copyParts key ps).under f st).1 = .ok () ↔ ∀ p ∈ ps, Copies f st p) ∧
    ((∀ p ∈ ps, Copies f st p) → ((copyParts key ps).under f st).2.files key =
      some (done ++ ps.flatMap fun p => (st.part p).getD [])) := by
  induction ps with
  | nil =>
    intro st done hd
    simp [copyParts, hd]
  | cons p ps ih =>
    intro st done hd
    by_cases hcopy : Copies f st p
    · obtain ⟨hf, hp, hpart⟩ := hcopy
      obtain ⟨bytes, hb⟩ := Option.isSome_iff_exists.mp hpart
      obtain ⟨h1, h2⟩ := @ih
        { st with files := Function.update st.files key ((st.files key).map (· ++ bytes)) }
        (done ++ bytes) (by simp [hd])
      rw [copyParts, if_neg (by omega), Prog.under_bind, Prog.under_atomic]
      simp only [hf, hb]
      refine ⟨h1.trans ⟨fun h => ?_, fun h q hq => h q (by simp [hq])⟩, fun h => ?_⟩
      · exact List.forall_mem_cons.mpr ⟨⟨hf, hp, hpart⟩, h⟩
      · simpa [hb] using h2 fun q hq => h q (by simp [hq])
    · have hno : ¬∀ q ∈ p :: ps, Copies f st q := fun h => hcopy (h p (by simp))
      exact ⟨⟨fun h => absurd h (under_copyParts_refused hcopy), fun h => absurd h hno⟩,
        fun h => absurd h hno⟩

theorem under_assemble {parts : List Nat} (hne : parts ≠ []) (st : UploadState) :
    (((assembleChunkParts parts key).under f st).1 = .ok () ↔ Assembles f st parts) ∧
    (Assembles f st parts →
      ((assembleChunkParts parts key).under f st).2.files key = some (concatParts st parts)) := by
  have hemp : ¬parts.isEmpty = true := by simpa using hne
  rw [assembleChunkParts, if_neg hemp, Prog.under_bind, Prog.under_write]
  cases hf : f .openFile with
  | some x =>
    have hno : ¬Assembles f st parts := by
      intro h
      simp [Assembles, hf] at h
    exact ⟨⟨fun h => by simp at h, fun h => absurd h hno⟩, fun h => absurd h hno⟩
  | none =>
    obtain ⟨h1, h2⟩ := @under_copyParts f key (sortedSet parts)
      { st with files := Function.update st.files key (some []) } [] (by simp)
    have hall : (∀ p ∈ sortedSet parts, Copies f st p) ↔ Assembles f st parts := by
      simp [Assembles, hf, mem_sortedSet]
    refine ⟨h1.trans hall, fun h => ?_⟩
    simpa [concatParts] using h2 (hall.mpr h)

theorem sameJobs_assemble (parts : List Nat) (st : UploadState) :
    SameJobs st ((assembleChunkParts parts key).under f st).2 := by
  have hstep : (assembleChunkParts parts key).Within fun _ g => ∀ st, SameJobs st (g st) := by
    unfold assembleChunkParts
    split
    · exact Prog.Within.throw _
    · refine Prog.Within.bind (Prog.Within.write fun st => ⟨rfl, rfl⟩) fun _ => ?_
      generalize sortedSet parts = ps
      induction ps with
      | nil => exact Prog.Within.pure ()
      | cons p ps ih =>
        unfold copyParts
        split
        · exact Prog.Within.throw _
        · refine Prog.Within.bind (Prog.Within.atomic ?_) fun _ => ih
          intro st
          dsimp only
          cases st.part p <;> exact ⟨rfl, rfl⟩
  exact hstep.under SameJobs.refl SameJobs.trans (fun _ _ st h => h st) st

/-! ### The end of the session -/

theorem under_deleteUploadParts (st : UploadState) : ∃ st', deleteUploadParts.under f st =
    (.ok (), st') ∧ SameJobs st st' ∧ st'.session = st.session ∧ st'.files = st.files := by
  rw [deleteUploadParts, Prog.under_tryCatch, Prog.under_write]
  cases f .deleteParts with
  | none => exact ⟨_, rfl, ⟨rfl, rfl⟩, rfl, rfl⟩
  | some x =>
    obtain ⟨e, late⟩ := x
    cases late
    · exact ⟨_, rfl, ⟨rfl, rfl⟩, rfl, rfl⟩
    · exact ⟨_, rfl, ⟨rfl, rfl⟩, rfl, rfl⟩

theorem under_deleteUploadSession (st : UploadState) :
    SameJobs st ((deleteUploadSession cfg).under f st).2 ∧
      ((deleteUploadSession cfg).under f st).2.files = st.files ∧
      (((deleteUploadSession cfg).under f st).1 = .ok () ↔ f .deleteSession = none) ∧
      (f .deleteSession = none → ((deleteUploadSession cfg).under f st).2.session = none) := by
  have hidem := @Prog.under_retry_idem Label UploadState Exn f .deleteSession
    (fun st => { st with session := none }) fun _ => rfl
  rw [deleteUploadSession, runRedisRetry, hidem, Prog.under_write]
  cases f .deleteSession with
  | none => exact ⟨⟨rfl, rfl⟩, rfl, by simp, fun _ => rfl⟩
  | some x =>
    obtain ⟨e, late⟩ := x
    cases late
    · exact ⟨⟨rfl, rfl⟩, rfl, by simp, by simp⟩
    · exact ⟨⟨rfl, rfl⟩, rfl, by simp, by simp⟩

theorem under_closeSession (hne : req.chosen s ≠ []) (st : UploadState) :
    SameJobs st ((closeSession cfg job req s).under f st).2 ∧
      (((closeSession cfg job req s).under f st).1 = .ok () ↔
        Assembles f st (req.chosen s) ∧ f .deleteSession = none) ∧
      (((closeSession cfg job req s).under f st).1 = .ok () →
        ((closeSession cfg job req s).under f st).2.session = none ∧
        ((closeSession cfg job req s).under f st).2.files (storageKey job s) =
          some (concatParts st (req.chosen s))) := by
  obtain ⟨hok, hfile⟩ := @under_assemble f (storageKey job s) (req.chosen s) hne st
  have hsame := @sameJobs_assemble f (storageKey job s) (req.chosen s) st
  rw [closeSession, Prog.under_tryFinally, Prog.under_tryCatch]
  rcases ha : (assembleChunkParts (req.chosen s) (storageKey job s)).under f st with ⟨r, st1⟩
  rw [ha] at hok hfile hsame
  obtain ⟨st2, h2, hsame2, hsess2, hfiles2⟩ := @under_deleteUploadParts f st1
  obtain ⟨hsame3, hfiles3, hok3, hsess3⟩ := @under_deleteUploadSession cfg f st2
  have hall := (hsame.trans hsame2).trans hsame3
  cases r with
  | error e =>
    simp only [Prog.under_throw, Prog.under_bind, h2]
    rcases hd : (deleteUploadSession cfg).under f st2 with ⟨r, st3⟩
    rw [hd] at hall
    have hno : ¬Assembles f st (req.chosen s) := fun h => by simpa using hok.mpr h
    cases r <;> exact ⟨hall, by simp [hno], by simp⟩
  | ok a =>
    simp only [Prog.under_bind, h2]
    rcases hd : (deleteUploadSession cfg).under f st2 with ⟨r, st3⟩
    rw [hd] at hall hfiles3 hok3 hsess3
    have hyes : Assembles f st (req.chosen s) := hok.mp rfl
    cases r with
    | error e =>
      have hno : f .deleteSession ≠ none := fun h => by simpa using hok3.mpr h
      exact ⟨hall, by simp [hno], by simp⟩
    | ok b =>
      have hdel := hok3.mp rfl
      refine ⟨hall, by simp [hyes, hdel], fun _ => ⟨hsess3 hdel, ?_⟩⟩
      simp only at hfiles3
      rw [hfiles3, hfiles2]
      exact hfile hyes

/-! ### The queue -/

/-- An entry of the queue for the job, with its file. -/
def Queued (job : JobId) (bytes : Bytes) (st : UploadState) : Prop :=
  ∃ payload ∈ st.bulkQueue, payload.jobId = job ∧ st.files payload.storageKey = some bytes

/-- The entry gets into the queue and its file is kept. A push that raises after its effect has the
file deleted, if that works. -/
def Enqueues (f : Env) : Prop :=
  f .register = none ∧ (f .enqueue = none ∨
    (∃ e, f .enqueue = some (e, true)) ∧ ∃ e, f .deleteFile = some (e, false))

theorem not_queued {bytes : Bytes} (h : ∀ payload ∈ st.bulkQueue, payload.jobId ≠ job) :
    ¬Queued job bytes st := by
  rintro ⟨payload, hmem, hjob, _⟩
  exact h payload hmem hjob

def pushed (payload : BulkJobPayload) (k : Nat) (st : UploadState) : UploadState :=
  { st with bulkQueue := List.replicate k payload ++ st.bulkQueue }

theorem iterate_push (payload : BulkJobPayload) (k : Nat) (st : UploadState) :
    (fun st : UploadState => { st with bulkQueue := payload :: st.bulkQueue })^[k] st =
      pushed payload k st := by
  induction k generalizing st with
  | zero => rfl
  | succ k ih =>
    rw [Function.iterate_succ_apply, ih]
    simp [pushed, List.replicate_succ', List.append_assoc]

theorem queued_iff {payload : BulkJobPayload} {bytes : Bytes} {k : Nat} {queue : List BulkJobPayload}
    (hq : st.bulkQueue = List.replicate (k + 1) payload ++ queue) (hjob : payload.jobId = job)
    (hfresh : ∀ payload ∈ queue, payload.jobId ≠ job) :
    Queued job bytes st ↔ st.files payload.storageKey = some bytes := by
  constructor
  · rintro ⟨entry, hmem, hj, hfile⟩
    rw [hq] at hmem
    rcases List.mem_append.mp hmem with hmem | hmem
    · rw [List.eq_of_mem_replicate hmem] at hfile
      exact hfile
    · exact absurd hj (hfresh entry hmem)
  · intro h
    refine ⟨payload, ?_, hjob, h⟩
    simp [hq, List.replicate_succ]

theorem under_enqueue (payload : BulkJobPayload) (st : UploadState) : ∃ k : Nat,
    (enqueue cfg payload).under f st =
      match f .enqueue with
      | none => (.ok (), pushed payload 1 st)
      | some (_, late) => (.error .runtime, if late then pushed payload (k + 1) st else st) := by
  refine ⟨(if cfg.redisRetryEnqueueMaxAttempts = 0 then 5
    else cfg.redisRetryEnqueueMaxAttempts) - 1, ?_⟩
  rw [enqueue, Prog.under_tryCatch, runRedisRetry, Prog.under_retry_write]
  cases f .enqueue with
  | none => rfl
  | some x =>
    obtain ⟨e, late⟩ := x
    simp only [iterate_push, Prog.under_throw]

theorem under_register (key : Text) (st : UploadState) : ∃ st',
    ((registerBulkImportJob cfg job key).under f st = match f .register with
      | none => (.ok (), st')
      | some (e, _) => (.error e, st')) ∧
    SameJobs st st' ∧ st'.session = st.session ∧ st'.files = st.files := by
  have hidem := @Prog.under_retry_idem Label UploadState Exn f .register
    (fun st => { st with registered := Function.update st.registered job (some key) })
    fun _ => by simp
  rw [registerBulkImportJob, runRedisRetry, hidem, Prog.under_write]
  cases f .register with
  | none => exact ⟨_, rfl, ⟨rfl, rfl⟩, rfl, rfl⟩
  | some x =>
    obtain ⟨e, late⟩ := x
    cases late
    · exact ⟨_, rfl, ⟨rfl, rfl⟩, rfl, rfl⟩
    · exact ⟨_, rfl, ⟨rfl, rfl⟩, rfl, rfl⟩

theorem under_deleteFile (key : Text) (st : UploadState) : ∃ st',
    (deleteFile key).under f st = (.ok (), st') ∧ SameJobs st st' ∧ st'.session = st.session ∧
      ((∃ e, f .deleteFile = some (e, false)) ∧ st'.files = st.files ∨
        (¬∃ e, f .deleteFile = some (e, false)) ∧ st'.files key = none) := by
  rw [deleteFile, Prog.under_tryCatch, Prog.under_write]
  cases hf : f .deleteFile with
  | none => exact ⟨_, rfl, ⟨rfl, rfl⟩, rfl, .inr ⟨by simp, by simp⟩⟩
  | some x =>
    obtain ⟨e, late⟩ := x
    cases late
    · exact ⟨_, rfl, ⟨rfl, rfl⟩, rfl, .inl ⟨⟨e, rfl⟩, rfl⟩⟩
    · exact ⟨_, rfl, ⟨rfl, rfl⟩, rfl, .inr ⟨by simp, by simp⟩⟩

theorem under_queueUpload {bytes : Bytes} (mode : ImportMode)
    (hfile : st.files (storageKey job s) = some bytes)
    (hfresh : ∀ payload ∈ st.bulkQueue, payload.jobId ≠ job) :
    ((queueUpload cfg job req s mode).under f st).2.session = st.session ∧
      ((queueUpload cfg job req s mode).under f st).2.jobs = st.jobs ∧
      (Queued job bytes ((queueUpload cfg job req s mode).under f st).2 ↔ Enqueues f) := by
  obtain ⟨st1, h1, hsame1, hsess1, hfiles1⟩ :=
    @under_register cfg f job (storageKey job s) st
  obtain ⟨k, h2⟩ := @under_enqueue cfg f (req.payload cfg job s mode) st1
  have hjob : (req.payload cfg job s mode).jobId = job := rfl
  have hfresh1 : ∀ payload ∈ st1.bulkQueue, payload.jobId ≠ job := by
    rw [hsame1.queue]
    exact hfresh
  rw [queueUpload, Prog.under_tryCatch, Prog.under_bind, h1]
  cases hr : f .register with
  | some x =>
    obtain ⟨st', hd, hsame, hsess, _⟩ := @under_deleteFile f (storageKey job s) st1
    simp only [Prog.under_bind, hd, Prog.under_throw]
    refine ⟨hsess.trans hsess1, hsame.jobs.trans hsame1.jobs, ?_⟩
    have hno : ¬Queued job bytes st' := not_queued (by rw [hsame.queue]; exact hfresh1)
    simp [hno, Enqueues, hr]
  | none =>
    simp only [h2]
    cases he : f .enqueue with
    | none =>
      dsimp only
      refine ⟨hsess1, hsame1.jobs, ?_⟩
      have hq : (pushed (req.payload cfg job s mode) 1 st1).bulkQueue =
          List.replicate (0 + 1) (req.payload cfg job s mode) ++ st1.bulkQueue := rfl
      rw [queued_iff hq hjob hfresh1]
      simp [pushed, CompleteRequest.payload, hfiles1, hfile, Enqueues, hr, he]
    | some x =>
      obtain ⟨e, late⟩ := x
      cases late with
      | false =>
        obtain ⟨st', hd, hsame, hsess, _⟩ := @under_deleteFile f (storageKey job s) st1
        simp only [Prog.under_bind, Bool.false_eq_true, if_false, hd, Prog.under_throw]
        refine ⟨hsess.trans hsess1, hsame.jobs.trans hsame1.jobs, ?_⟩
        have hno : ¬Queued job bytes st' := not_queued (by rw [hsame.queue]; exact hfresh1)
        simp [hno, Enqueues, he]
      | true =>
        obtain ⟨st', hd, hsame, hsess, hdel⟩ := @under_deleteFile f (storageKey job s)
          (pushed (req.payload cfg job s mode) (k + 1) st1)
        simp only [Prog.under_bind, if_true, hd, Prog.under_throw]
        refine ⟨hsess.trans hsess1, hsame.jobs.trans hsame1.jobs, ?_⟩
        rw [queued_iff hsame.queue hjob hfresh1]
        rcases hdel with ⟨hkept, hfiles⟩ | ⟨hgone, hfiles⟩
        · simp [hfiles, pushed, CompleteRequest.payload, hfiles1, hfile, Enqueues, hr, he, hkept]
        · simp [CompleteRequest.payload, hfiles, Enqueues, he, hgone]

theorem under_getUploadSession (st : UploadState) :
    (getUploadSession cfg .getSession).under f st =
      match f .getSession with
      | none => (.ok st.session, st)
      | some (e, _) => (.error e, st) := by
  have hread := @Prog.under_read Label UploadState Exn _ f .getSession UploadState.session st
  unfold getUploadSession runRedisRetry
  cases hf : f .getSession with
  | none => exact Prog.under_retry_ok (by rw [hread, hf]) _
  | some x => exact Prog.under_retry_error (by rw [hread, hf]) (by rw [hread, hf]) _

theorem under_listShpInZip (st : UploadState) : (listShpInZip s).under f st = (.ok (), st) := by
  unfold listShpInZip
  split
  · rw [Prog.under_tryCatch, Prog.under_read]
    cases f .listShp <;> rfl
  · rfl

end Stages

/-! ## All or nothing -/

/-- The job id is new. -/
def Fresh (job : JobId) (st : UploadState) : Prop :=
  st.jobs job = none ∧ ∀ payload ∈ st.bulkQueue, payload.jobId ≠ job

/-- A job for the assembled file is queued and the session is closed; or session and parts are
there and no open job is new. -/
def AllOrNothing (job : JobId) (req : CompleteRequest) (st after : UploadState) : Prop :=
  (after.session = none ∧ ∃ s, st.session = some s ∧ (∀ p ∈ req.chosen s, (st.part p).isSome) ∧
      Queued job (concatParts st (req.chosen s)) after) ∨
    (after.session = st.session ∧ after.part = st.part ∧
      ∀ j x, after.jobs j = some x → x.terminal = true ∨ st.jobs j = some x)

/-- The call is refused before it creates a job. -/
def Refused (f : Env) (req : CompleteRequest) (st : UploadState) : Prop :=
  (∃ e, req.permitted = .error e) ∨ f .getSession ≠ none ∨
    ∀ s, st.session = some s → s.collectionId ≠ req.collectionId ∨ req.chosen s = []

/-- Nothing that matters fails. -/
def Finishes (cfg : UploadSettings) (f : Env) (req : CompleteRequest) (st : UploadState)
    (s : UploadSession) : Prop :=
  f .createJob = none ∧ f .indexJob = none ∧ Assembles f st (req.chosen s) ∧
    f .deleteSession = none ∧ (∃ p, req.params cfg s = .ok p) ∧ Enqueues f

def Completes (cfg : UploadSettings) (f : Env) (req : CompleteRequest) (st : UploadState) : Prop :=
  Refused f req st ∨ (∃ e, f .createJob = some (e, false)) ∨
    ∃ s, st.session = some s ∧ Finishes cfg f req st s

section Outcome
variable {cfg : UploadSettings} {f : Env} {job : JobId} {req : CompleteRequest}
  {s : UploadSession} {st after : UploadState}

theorem allOrNothing_refl (st : UploadState) : AllOrNothing job req st st :=
  .inr ⟨rfl, rfl, fun _ _ h => .inr h⟩

/-- Once the job is there, only the first way is left. -/
theorem allOrNothing_iff_queued (hfresh : Fresh job st) (hs : st.session = some s)
    (hjobs : after.jobs = (st.withJob job).jobs) :
    AllOrNothing job req st after ↔ after.session = none ∧
      (∀ p ∈ req.chosen s, (st.part p).isSome) ∧
      Queued job (concatParts st (req.chosen s)) after := by
  constructor
  · rintro (⟨h1, s', hs', h2⟩ | ⟨_, _, h3⟩)
    · cases hs.symm.trans hs'
      exact ⟨h1, h2⟩
    · have hp : after.jobs job = some .pending := by simp [hjobs, UploadState.withJob]
      rcases h3 job .pending hp with h | h
      · cases h
      · rw [hfresh.1] at h
        cases h
  · rintro ⟨h1, h2⟩
    exact .inl ⟨h1, s, hs, h2⟩

/-- An exception after the job record is written and before the queue. -/
theorem not_allOrNothing (hfresh : Fresh job st) (hs : st.session = some s)
    (hsame : SameJobs (st.withJob job) after) : ¬AllOrNothing job req st after := by
  rw [allOrNothing_iff_queued hfresh hs hsame.jobs]
  rintro ⟨_, _, hq⟩
  refine not_queued ?_ hq
  rw [hsame.queue]
  exact hfresh.2

/-- The call after its checks, when the job record is written. -/
theorem completeParts_iff (hfresh : Fresh job st) (hs : st.session = some s)
    (hne : req.chosen s ≠ []) (hc : ∀ e, f .createJob ≠ some (e, false)) :
    AllOrNothing job req st ((completeParts cfg job req s).under f st).2 ↔
      Finishes cfg f req st s := by
  have hfail : ∀ {after : UploadState}, SameJobs (st.withJob job) after →
      ¬Finishes cfg f req st s →
      (AllOrNothing job req st after ↔ Finishes cfg f req st s) := fun h hno =>
    ⟨fun h' => absurd h' (not_allOrNothing hfresh hs h), fun h' => absurd h' hno⟩
  rw [completeParts, Prog.under_bind, under_createJob]
  cases hcreate : f .createJob with
  | some x =>
    obtain ⟨e, late⟩ := x
    cases late with
    | false => exact absurd hcreate (hc e)
    | true => exact hfail (SameJobs.refl _) fun h => by simp [Finishes, hcreate] at h
  | none =>
    cases hindex : f .indexJob with
    | some x => exact hfail (SameJobs.refl _) fun h => by simp [Finishes, hindex] at h
    | none =>
      obtain ⟨hsame, hok, hclosed⟩ := @under_closeSession cfg f job req s hne (st.withJob job)
      have hok' : ((closeSession cfg job req s).under f (st.withJob job)).1 = .ok () ↔
        Assembles f st (req.chosen s) ∧ f .deleteSession = none := hok
      simp only [Prog.under_bind]
      rcases hclose : (closeSession cfg job req s).under f (st.withJob job) with ⟨r, st2⟩
      rw [hclose] at hsame hok' hclosed
      cases r with
      | error e =>
        refine hfail hsame fun h => ?_
        have := hok'.mpr ⟨h.2.2.1, h.2.2.2.1⟩
        cases this
      | ok a =>
        obtain ⟨hsess, hfile⟩ := hclosed rfl
        obtain ⟨hasm, hdel⟩ := hok'.mp rfl
        simp only [under_listShpInZip]
        cases hparams : req.params cfg s with
        | error e => exact hfail hsame fun h => by simp [Finishes, hparams] at h
        | ok m =>
          have hfresh2 : ∀ payload ∈ st2.bulkQueue, payload.jobId ≠ job := by
            rw [hsame.queue]
            exact hfresh.2
          obtain ⟨h1, h2, h3⟩ := @under_queueUpload cfg f job req s st2 _ m.1 hfile hfresh2
          have hjobs := h2.trans hsame.jobs
          refine (allOrNothing_iff_queued hfresh hs hjobs).trans ⟨fun h => ?_, fun h => ?_⟩
          · exact ⟨hcreate, hindex, hasm, hdel, ⟨m, hparams⟩, h3.mp h.2.2⟩
          · exact ⟨h1.trans hsess, fun p hp => (hasm.2 p hp).2.2, h3.mpr h.2.2.2.2.2⟩

end Outcome

theorem all_or_nothing_iff (cfg : UploadSettings) (f : Env) (job : JobId) (req : CompleteRequest)
    (st : UploadState) (hfresh : Fresh job st) :
    AllOrNothing job req st ((completeBulkUploadSession cfg job req).under f st).2 ↔
      Completes cfg f req st := by
  have hback : Refused f req st →
      (AllOrNothing job req st st ↔ Completes cfg f req st) := fun h =>
    ⟨fun _ => .inl h, fun _ => allOrNothing_refl st⟩
  rw [completeBulkUploadSession, Prog.under_bind]
  cases hp : req.permitted with
  | error e => exact hback (.inl ⟨e, hp⟩)
  | ok u =>
    simp only [liftCheck, Prog.under, Prog.under_bind, under_getUploadSession]
    cases hg : f .getSession with
    | some x => exact hback (.inr (.inl (by simp [hg])))
    | none =>
      have hgone : (∀ s, st.session = some s →
          s.collectionId ≠ req.collectionId ∨ req.chosen s = []) → Refused f req st :=
        fun h => .inr (.inr h)
      cases hs : st.session with
      | none => exact hback (hgone fun s h => by rw [hs] at h; cases h)
      | some s =>
        dsimp only
        split
        · rename_i hcol
          refine hback (hgone fun s' h => .inl ?_)
          cases hs.symm.trans h
          exact hcol
        · rename_i hcol
          split
          · rename_i hemp
            refine hback (hgone fun s' h => .inr ?_)
            cases hs.symm.trans h
            simpa using hemp
          · rename_i hemp
            have hne : req.chosen s ≠ [] := by simpa using hemp
            have hnot : ¬Refused f req st := by
              rintro (⟨e, he⟩ | h | h)
              · rw [hp] at he
                cases he
              · exact h hg
              · exact (h s hs).elim hcol hne
            by_cases hc : ∃ e, f .createJob = some (e, false)
            · obtain ⟨e, he⟩ := hc
              rw [completeParts, Prog.under_bind, under_createJob, he]
              exact ⟨fun _ => .inr (.inl ⟨e, he⟩), fun _ => allOrNothing_refl st⟩
            · rw [completeParts_iff hfresh hs hne fun e he => hc ⟨e, he⟩]
              refine ⟨fun h => .inr (.inr ⟨s, hs, h⟩), ?_⟩
              rintro (h | h | ⟨s', hs', h⟩)
              · exact absurd h hnot
              · exact absurd h hc
              · cases hs.symm.trans hs'
                exact h

/-! ## One upload -/

/-- One part was uploaded. -/
def onePart : UploadState where
  session := some
    ⟨"a".toList, none, "roads.geojson".toList, "append".toList, 1000, false, [], [1]⟩
  part p := if p = 1 then some [123, 125] else none
  files _ := none
  jobs _ := none
  registered _ := none
  bulkQueue := []
  completed p := if p = 1 then some [123, 125] else none
  unfinished := []

def uploadSettings : UploadSettings := ⟨1, 1000, true⟩

/-- A call without a body but for the mode. -/
def completeWith (mode : String) : CompleteRequest :=
  ⟨.ok (), "a".toList, none, [], mode.toList, .absent, .absent⟩

/-- The mode is checked when parts and session are gone and the job is pending. -/
theorem refused_mode_loses_upload :
    ¬AllOrNothing importer (completeWith "overwrite") onePart
      ((completeBulkUploadSession uploadSettings importer (completeWith "overwrite")).under
        (fun _ => none) onePart).2 := by
  have hqueue : ((completeBulkUploadSession uploadSettings importer
      (completeWith "overwrite")).under (fun _ => none) onePart).2.bulkQueue = [] := by
    decide +kernel
  rintro (⟨_, _, _, _, payload, hmem, _⟩ | ⟨hsession, _⟩)
  · rw [hqueue] at hmem
    cases hmem
  · revert hsession
    decide +kernel

theorem completed_upload_is_queued : Fresh importer onePart ∧
    AllOrNothing importer (completeWith "") onePart
      ((completeBulkUploadSession uploadSettings importer (completeWith "")).under
        (fun _ => none) onePart).2 := by
  have hfresh : Fresh importer onePart := ⟨rfl, by simp [onePart]⟩
  refine ⟨hfresh, (all_or_nothing_iff uploadSettings _ importer _ onePart hfresh).mpr ?_⟩
  refine .inr (.inr ⟨_, rfl, rfl, rfl, ⟨rfl, ?_⟩, rfl, ?_, rfl, .inl rfl⟩)
  · intro p hp
    obtain rfl : p = 1 := by simpa [completeWith, CompleteRequest.chosen] using hp
    exact ⟨rfl, le_rfl, rfl⟩
  · exact ⟨(.plain .append, []), by decide +kernel⟩

end Upload
end Geofastmap
