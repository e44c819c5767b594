import Mathlib.Data.List.Sort
import Geofastmap.Db.Partitions
import Geofastmap.Interleave.Pool

/-!
# Geofastmap.Bulk.State

What the bulk import services share: the job records and the finalize queue in Redis, the
collection mutexes, and the database. A job id is a `uuid4`, so the staging tables of two jobs
have different names (`stagingTableName_inj`).

Every access to Redis and every transaction is one atomic step. Times count microseconds.
-/

namespace Geofastmap
namespace Bulk

open Db Interleave

/-- The text of a `uuid4` is letters, digits and dashes, with a letter or digit at both ends. -/
structure JobId where
  text : Text
  chars : ∀ ch ∈ text, ch.isAlphanum = true ∨ ch = '-'
  short : text.length ≤ 48
  first : ∃ ch ∈ text.head?, ch.isAlphanum = true
  last : ∃ ch ∈ text.getLast?, ch.isAlphanum = true
deriving DecidableEq

def stagingTablePrefix : Text := "bulk_staging_".toList

def stagingTableName (j : JobId) : RelName :=
  stagingTablePrefix ++ orElseText (Sql.strip '_' ((sanitize j.text).take 48)) "job".toList

theorem strip_eq_self {s : Text} {ch : Char} (h1 : ∀ x ∈ s.head?, x ≠ ch)
    (h2 : ∀ x ∈ s.getLast?, x ≠ ch) : Sql.strip ch s = s := by
  have hd : ∀ {l : Text}, (∀ x ∈ l.head?, x ≠ ch) → l.dropWhile (· == ch) = l := by
    intro l hl
    cases l with
    | nil => rfl
    | cons x xs => simp [hl x (by simp)]
  rw [Sql.strip, hd h1, hd (by simpa using h2), List.reverse_reverse]

/-- The character of a job id in the name of its staging table. -/
theorem sanitize_char {ch : Char} (h : ch.isAlphanum = true ∨ ch = '-') :
    (if ch.isAlphanum || ch == '_' then ch else '_') = if ch = '-' then '_' else ch := by
  rcases h with h | rfl
  · have : ch ≠ '-' := by rintro rfl; revert h; decide
    simp [h, this]
  · decide

theorem sanitize_jobId (j : JobId) :
    sanitize j.text = j.text.map fun ch => if ch = '-' then '_' else ch :=
  List.map_congr_left fun ch hch => sanitize_char (j.chars ch hch)

theorem dash_ne_underscore {ch : Char} (h : ch.isAlphanum = true) :
    (if ch = '-' then '_' else ch) ≠ '_' := by
  split
  · rename_i he; rw [he] at h; revert h; decide
  · rintro rfl; revert h; decide

theorem stagingTableName_eq (j : JobId) : stagingTableName j =
    stagingTablePrefix ++ j.text.map fun ch => if ch = '-' then '_' else ch := by
  obtain ⟨a, ha, ha'⟩ := j.first
  obtain ⟨b, hb, hb'⟩ := j.last
  have hne : j.text ≠ [] := by intro h; rw [h] at ha; cases ha
  have h1 : ∀ x ∈ (sanitize j.text).head?, x ≠ '_' := by
    intro x hx
    rw [sanitize_jobId, List.head?_map, Option.mem_def.mp ha] at hx
    rw [← Option.some.inj hx]
    exact dash_ne_underscore ha'
  have h2 : ∀ x ∈ (sanitize j.text).getLast?, x ≠ '_' := by
    intro x hx
    rw [sanitize_jobId, List.getLast?_map, Option.mem_def.mp hb] at hx
    rw [← Option.some.inj hx]
    exact dash_ne_underscore hb'
  have hlen : (sanitize j.text).take 48 = sanitize j.text :=
    List.take_of_length_le (by simpa [sanitize] using j.short)
  have hcons : (sanitize j.text).isEmpty = false := by
    cases h : j.text with
    | nil => exact absurd h hne
    | cons x xs => simp [sanitize]
  rw [stagingTableName, hlen, strip_eq_self h1 h2, orElseText, hcons, sanitize_jobId]
  rfl

theorem stagingTableName_inj {i j : JobId} (h : stagingTableName i = stagingTableName j) :
    i = j := by
  rw [stagingTableName_eq, stagingTableName_eq, List.append_cancel_left_eq] at h
  have hinj : ∀ a ∈ i.text, ∀ b ∈ j.text,
      (if a = '-' then '_' else a) = (if b = '-' then '_' else b) → a = b := by
    intro a ha b hb hab
    have ha' := i.chars a ha
    have hb' := j.chars b hb
    rcases ha' with ha' | rfl <;> rcases hb' with hb' | rfl
    · have h1 : a ≠ '-' := by rintro rfl; revert ha'; decide
      have h2 : b ≠ '-' := by rintro rfl; revert hb'; decide
      simpa [h1, h2] using hab
    · exact absurd hab (dash_ne_underscore ha')
    · exact absurd hab.symm (dash_ne_underscore hb')
    · rfl
  have htext : i.text = j.text := by
    refine List.ext_getElem (by simpa using congrArg List.length h) fun n h1 h2 => ?_
    refine hinj _ (List.getElem_mem h1) _ (List.getElem_mem h2) ?_
    have := List.getElem_of_eq h (by simpa using h1 : n < _)
    simpa using this
  cases i; cases j; cases htext; rfl

theorem chars_of_all {s : Text} (h : (s.all fun ch => ch.isAlphanum || ch == '-') = true) :
    ∀ ch ∈ s, ch.isAlphanum = true ∨ ch = '-' := by
  intro ch hch
  simpa using List.all_eq_true.mp h ch hch

/-- The job of the runs on fixed inputs. -/
def importer : JobId where
  text := "0b5e1c2a-7d4f-4a39-9c1e-2f6d8e0a1b3c".toList
  chars := chars_of_all (by decide)
  short := by decide
  first := ⟨'0', rfl, rfl⟩
  last := ⟨'c', rfl, rfl⟩

inductive Status where
  | pending | running | replacing | finalizing | completed | failed | cancelled
deriving DecidableEq, Repr

/-- `is_terminal_job_status`. -/
def Status.terminal : Status → Bool
  | .completed | .failed | .cancelled => true
  | _ => false

inductive Mode where
  | append
  | replace
deriving DecidableEq, Repr

structure JobInfo where
  jobId : JobId
  collectionId : CollectionId
  status : Status
  /-- The empty text stands for no message. -/
  message : Text
  itemsCreated : Nat
  itemsFailed : Nat
  createdAt : Nat
  updatedAt : Nat
  finishedAt : Option Nat
  lastProgressAt : Option Nat
  ownerId : Option Nat
deriving DecidableEq

structure BulkFinalizePayload where
  jobId : JobId
  collectionId : CollectionId
  mode : Mode
  itemsCreated : Nat
  itemsFailed : Nat
  ownerId : Option Nat
  queueComputeTiles : Bool
  attempt : Nat
deriving DecidableEq

/-- The import mode of an upload; a replace with filters is refused by the worker. -/
inductive ImportMode where
  | plain (m : Mode)
  | replaceFiltered
  | unknown (text : Text)
deriving DecidableEq, Repr

inductive JobKind where
  | single | parent | shard | rasterBatch
deriving DecidableEq, Repr

structure BulkJobPayload where
  jobId : JobId
  collectionId : CollectionId
  storageKey : Text
  mode : ImportMode
  batchSize : Nat
  ownerId : Option Nat
  queueComputeTiles : Bool
  jobKind : JobKind
deriving DecidableEq

/-- The hash under `geofastmap:bulk_finalize_state:<job>`; a field that was never written is
missing. -/
structure FinalizeState where
  collectionId : Option CollectionId
  mode : Option Mode
  itemsCreated : Option Nat
  itemsFailed : Option Nat
  ownerId : Option Nat
  queueComputeTiles : Option Bool
  attempt : Option Nat
  error : Option Text
deriving DecidableEq

def FinalizeState.empty : FinalizeState := ⟨none, none, none, none, none, none, none, none⟩

structure Collection where
  id : CollectionId
  featureCount : Nat
deriving DecidableEq

inductive ExtentMode where
  | immediate | deferred | bestEffort
deriving DecidableEq

/-- The settings the bulk services read. Durations are microseconds. -/
structure Settings where
  bulkQueueRedis : Bool
  bulkFinalizeQueueEnabled : Bool
  bulkWatchdogFailStaleRunning : Option Bool
  bulkJobStale : Nat
  bulkJobPendingStale : Nat
  bulkFinalizeStale : Nat
  bulkRunningRecoverStaging : Nat
  bulkFinalizeDuplicateGiveUpAttempts : Nat
  bulkReplaceDeleteBatchRows : Nat
  bulkDbRetryMaxAttempts : Nat
  bulkExtentUpdateMode : ExtentMode
  bulkCopyBatchRows : Nat
  bulkFeaturesPerInsert : Nat
  bulkGeojsonlFastPath : Bool
  bulkPerFeatureSavepoint : Bool
  bulkSkipFeaturesTouchTrigger : Bool
  bulkReplaceShadowImport : Bool
  redisRetryEnqueueMaxAttempts : Nat
  redisRetryReadMaxAttempts : Nat
  /-- `bulk_auto_tile_build_collections`, split at the commas. -/
  bulkAutoTileBuildCollections : List CollectionId
  /-- How often a swap is tried again after a lock timeout before the deadline. -/
  swapLockAttempts : Nat

/-- The defaults of `app/core/config.py`. -/
def Settings.default : Settings where
  bulkQueueRedis := true
  bulkFinalizeQueueEnabled := true
  bulkWatchdogFailStaleRunning := none
  bulkJobStale := 14400000000
  bulkJobPendingStale := 600000000
  bulkFinalizeStale := 86400000000
  bulkRunningRecoverStaging := 600000000
  bulkFinalizeDuplicateGiveUpAttempts := 3
  bulkReplaceDeleteBatchRows := 25000
  bulkDbRetryMaxAttempts := 4
  bulkExtentUpdateMode := .deferred
  bulkCopyBatchRows := 20000
  bulkFeaturesPerInsert := 32
  bulkGeojsonlFastPath := true
  bulkPerFeatureSavepoint := false
  bulkSkipFeaturesTouchTrigger := true
  bulkReplaceShadowImport := false
  redisRetryEnqueueMaxAttempts := 5
  redisRetryReadMaxAttempts := 20
  bulkAutoTileBuildCollections := []
  swapLockAttempts := 120

inductive Exn where
  | bulkImportCancelled
  | stagingDuplicateUnrecoverable (msg : Text)
  | integrity (msg : Text)
  | other (cls msg : Text)
deriving DecidableEq

/-- `str(e)`. -/
def Exn.text : Exn → Text
  | .bulkImportCancelled => []
  | .stagingDuplicateUnrecoverable msg => msg
  | .integrity msg => msg
  | .other _ msg => msg

/-- `type(e).__name__`. -/
def Exn.cls : Exn → Text
  | .bulkImportCancelled => "BulkImportCancelled".toList
  | .stagingDuplicateUnrecoverable _ => "StagingDuplicateUnrecoverableError".toList
  | .integrity _ => "IntegrityError".toList
  | .other cls _ => cls

/-- The exception class of an error of the database. -/
def Exn.ofDb (e : DbError) : Exn :=
  match e with
  | .uniqueViolation _ => .integrity e.text
  | .checkViolation _ => .integrity e.text
  | .noPartition => .integrity e.text
  | .undefinedTable _ => .other "ProgrammingError".toList e.text
  | .duplicateTable _ => .other "ProgrammingError".toList e.text
  | .overlap _ => .other "ProgrammingError".toList e.text
  | .notPartition _ => .other "ProgrammingError".toList e.text

structure Sys where
  catalog : Catalog
  collections : List Collection
  now : Nat
  jobs : List JobInfo
  mutex : List (CollectionId × JobId)
  registered : List JobId
  finalizeQueue : List BulkFinalizePayload
  finalizePending : List JobId
  finalizeState : List (JobId × FinalizeState)
  tileBuilds : List CollectionId
  /-- The bulk queue; a worker takes its last entry. -/
  bulkQueue : List BulkJobPayload
  /-- The keys of the uploaded files. -/
  uploads : List Text
  /-- History: the jobs whose file was read and staged to its end. -/
  loaded : List JobId
  /-- History: the collections of which a clean-up has counted no rows but those of its job, and
  which it has not emptied yet. -/
  cleaning : List CollectionId
  /-- History: the rows that the session of an import has committed. -/
  committed : List Row

/-- Nothing in Redis. -/
def Sys.idle (k : Catalog) : Sys := ⟨k, [], 0, [], [], [], [], [], [], [], [], [], [], [], []⟩

/-- The places where a recovery path reads what it decides by: the staged rows (`reconcile`,
`watchdog`, `orphan`), and the stored mode (`stored`, `orphanStored`). -/
inductive Path where
  | reconcile | watchdog | orphan | stored | orphanStored
deriving DecidableEq

/-- The commands on the mutex of a collection, on behalf of a job: `SET NX` and the `GET` after it
(`take`, `own`), the `GET` and the `DEL` of a release (`get`, `del`), and the expiry of the key.
`finish` is not a command: the import of the job is over. -/
inductive MutexOp where
  | take | own | finish | get | del | expire
deriving DecidableEq

/-- The steps that proofs and conditions speak of by name; the rest are Redis or database
accesses of no particular kind. -/
inductive Label where
  | redis
  | db
  /-- `promote_staging_sync` begins for a job. -/
  | promote (j : JobId) (mode : Mode)
  /-- `drop_staging_table_sync`. -/
  | dropStaging (j : JobId)
  /-- `swap_staging_into_collection_partition_sync` for a staging table. -/
  | swap (c : CollectionId) (staging : RelName)
  /-- The `INSERT` of an append promotion. -/
  | append (j : JobId)
  /-- `mark_finalize_pending`: the `SET` of the mark, and the `HSET` and `EXPIRE` of the state. -/
  | markPending (j : JobId)
  | markState (j : JobId)
  /-- The `LPUSH` of `enqueue_finalize`. -/
  | pushFinalize (j : JobId)
  /-- A recovery path looks at the staged rows, or at the stored mode, of a job it was given. -/
  | recover (path : Path) (job : JobInfo)
  | mutex (op : MutexOp) (c : CollectionId) (j : JobId)
  /-- A job record is read, or all of them are listed. -/
  | seeJob (j : JobId)
  | seeJobs
  /-- The `HSET` of `update_job`. -/
  | setStatus (j : JobId) (status : Option Status)
  /-- The store of the uploaded files. -/
  | storage
  /-- History: a load begins with a fresh staging table, or has staged all rows of its file. -/
  | load (j : JobId) (ended : Bool)
  /-- The commit of a session, and whether it has rows to write. -/
  | commit (rows : Bool)
  /-- A batch of a delete on `features`. -/
  | deleteBatch
  /-- The rows of a job lose their tag. -/
  | clearTags (j : JobId)
deriving DecidableEq

/-- The steps that are not in the source raise nothing. -/
def Label.ghost : Label → Bool
  | .mutex .finish _ _ => true
  | .load _ _ => true
  | _ => false

abbrev Work := Prog Label Sys Exn

/-! ## Redis -/

def redisRead {α : Type} (f : Sys → α) : Work α := Prog.read .redis f

def redisWrite (g : Sys → Sys) : Work Unit := Prog.write .redis g

/-- `run_redis_retry`, with the attempts it is given. -/
def runRedisRetry {α : Type} (attempts : Nat) (p : Work α) : Work α :=
  Prog.retry (attempts - 1) p

/-- The attempts of `run_redis_retry` without an argument: `max(1, int(setting or 5))`. -/
def Settings.enqueueAttempts (cfg : Settings) : Nat :=
  if cfg.redisRetryEnqueueMaxAttempts = 0 then 5 else cfg.redisRetryEnqueueMaxAttempts

/-- `max(1, int(setting or 15))`. -/
def Settings.readAttempts (cfg : Settings) : Nat :=
  if cfg.redisRetryReadMaxAttempts = 0 then 15 else cfg.redisRetryReadMaxAttempts

/-! ## Transactions -/

/-- A statement or a transaction: its effect is there as a whole or not at all. -/
def transaction {α : Type} (l : Label) (f : Catalog → Except DbError (α × Catalog)) : Work α :=
  Prog.atomic l fun s =>
    match f s.catalog with
    | .ok (a, k) => .ok (a, { s with catalog := k })
    | .error e => .error (Exn.ofDb e)

/-- A transaction without a result. -/
def execute (l : Label) (f : Catalog → Except DbError Catalog) : Work Unit :=
  transaction l fun k => (f k).map fun k' => ((), k')

/-- A query. -/
def query {α : Type} (f : Catalog → α) : Work α := Prog.read .db fun s => f s.catalog

/-- A query that raises when it cannot be answered. -/
def queryOr {α : Type} (l : Label) (f : Catalog → Except DbError α) : Work α :=
  transaction l fun k => (f k).map fun a => (a, k)

/-! ## Job records -/

def Sys.job (s : Sys) (j : JobId) : Option JobInfo := s.jobs.find? (·.jobId == j)

def getJob (cfg : Settings) (j : JobId) : Work (Option JobInfo) :=
  runRedisRetry cfg.readAttempts (Prog.read (.seeJob j) fun s => s.job j)

/-- What `update_job` is given; `none` leaves a field. -/
structure JobUpdate where
  status : Option Status := none
  message : Option Text := none
  itemsCreated : Option Nat := none
  itemsFailed : Option Nat := none

def JobUpdate.apply (u : JobUpdate) (now : Nat) (job : JobInfo) : JobInfo :=
  { job with
    status := u.status.getD job.status
    message := u.message.getD job.message
    itemsCreated := u.itemsCreated.getD job.itemsCreated
    itemsFailed := u.itemsFailed.getD job.itemsFailed
    finishedAt :=
      match u.status with
      | some st => if st.terminal && job.finishedAt.isNone then some now else job.finishedAt
      | none => job.finishedAt
    updatedAt := now
    lastProgressAt := some now }

def Sys.updateJob (s : Sys) (j : JobId) (u : JobUpdate) : Sys :=
  { s with jobs := s.jobs.map fun job => if job.jobId = j then u.apply s.now job else job }

def Sys.holder (s : Sys) (c : CollectionId) : Option JobId := s.mutex.lookup c

def Sys.freeMutex (s : Sys) (c : CollectionId) : Sys :=
  { s with mutex := s.mutex.filter (·.1 != c) }

/-- `release_collection_bulk_mutex`: the key is read, and deleted when the job holds it. -/
def releaseCollectionBulkMutex (cfg : Settings) (c : CollectionId) (j : JobId) : Work Unit :=
  if !cfg.bulkQueueRedis then pure ()
  else
    runRedisRetry cfg.enqueueAttempts do
      let holder ← Prog.read (.mutex .get c j) fun s => s.holder c
      if holder = some j then Prog.write (.mutex .del c j) fun s => s.freeMutex c

/-- `update_job`: the record is changed when it exists, and a terminal status gives the mutex of
its collection back; an error there is swallowed. -/
def updateJob (cfg : Settings) (j : JobId) (u : JobUpdate) : Work Unit := do
  let job ← runRedisRetry cfg.enqueueAttempts (redisRead fun s => s.job j)
  match job with
  | none => pure ()
  | some job =>
    runRedisRetry cfg.enqueueAttempts
      (Prog.write (.setStatus j u.status) fun s => s.updateJob j u)
    match u.status with
    | some st =>
      if st.terminal then
        try releaseCollectionBulkMutex cfg job.collectionId j catch _ => pure ()
    | none => pure ()

/-- `list_all_jobs(limit)`: the records, newest first. -/
def listAllJobs (limit : Nat) : Work (List JobInfo) :=
  Prog.read .seeJobs fun s => (s.jobs.insertionSort fun a b => b.updatedAt ≤ a.updatedAt).take limit

def getCollectionBulkMutexHolder (cfg : Settings) (c : CollectionId) : Work (Option JobId) :=
  if !cfg.bulkQueueRedis then pure none
  else runRedisRetry cfg.readAttempts (redisRead fun s => s.holder c)

def holdsCollectionBulkMutex (cfg : Settings) (c : CollectionId) (j : JobId) : Work Bool := do
  let holder ← getCollectionBulkMutexHolder cfg c
  return holder == some j

def unregisterBulkImportJob (j : JobId) : Work Unit :=
  try redisWrite fun s => { s with registered := s.registered.filter (· != j) } catch _ => pure ()

end Bulk
end Geofastmap
