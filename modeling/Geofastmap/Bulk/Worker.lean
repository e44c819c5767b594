import Geofastmap.Bulk.Load

/-!
# Geofastmap.Bulk.Worker

The bulk worker: the commands on the collection mutex (`bulk_collection_activity.py`), the raster
batches (`raster_batch.py`) and `process_bulk_job` with its deferral (`bulk_worker.py`), for the
default `bulk_copy_ingest_enabled`.

The import of a job ends where `_run_vector_import` returns or raises; a step without effect marks
that point (`endImport`), for the statements about who imports when.
-/

namespace Geofastmap
namespace Bulk

open Db Interleave

section
variable (H : Digest) (cfg : Settings) (files : Files)

/-! ## The mutex of a collection -/

/-- `SET key owner NX`. -/
def Sys.takeMutex (s : Sys) (c : CollectionId) (j : JobId) : Sys :=
  if (s.holder c).isNone then { s with mutex := (c, j) :: s.mutex } else s

/-- `try_acquire_collection_bulk_mutex`. -/
def tryAcquireCollectionBulkMutex (c : CollectionId) (j : JobId) : Work Bool :=
  if !cfg.bulkQueueRedis then pure true
  else
    runRedisRetry cfg.readAttempts do
      let free ← Prog.atomic (.mutex .take c j) fun s =>
        .ok ((s.holder c).isNone, s.takeMutex c j)
      if free then return true
      else
        let holder ← Prog.read (.mutex .own c j) fun s => s.holder c
        return holder == some j

/-- `refresh_collection_bulk_mutex`: the key is read, and its time to live moved. -/
def refreshCollectionBulkMutex (c : CollectionId) (j : JobId) : Work Unit :=
  if !cfg.bulkQueueRedis then pure ()
  else
    runRedisRetry cfg.enqueueAttempts do
      let holder ← redisRead fun s => s.holder c
      if holder = some j then redisWrite id

def endImport (c : CollectionId) (j : JobId) : Work Unit := Prog.write (.mutex .finish c j) id

/-- `reclaim_all_stale_bulk_mutexes`. -/
def reclaimAllStaleBulkMutexes : Work Unit :=
  if !cfg.bulkQueueRedis then pure ()
  else do
    let keys ← scanMutexKeys cfg
    Prog.forEach (fun c => if c.isEmpty then pure () else reclaimStaleCollectionBulkMutex cfg c)
      keys

/-! ## Waiting for the mutex -/

/-- `enqueue`. -/
def enqueue (payload : BulkJobPayload) : Work Unit :=
  let push : Work Unit := redisWrite fun s => { s with bulkQueue := payload :: s.bulkQueue }
  if cfg.bulkQueueRedis then
    tryCatch (runRedisRetry cfg.enqueueAttempts push) fun e =>
      throw (.other "RuntimeError".toList
        ("Failed to enqueue bulk job after retries: ".toList ++ e.text))
  else push

/-- The value of the status field. -/
def Status.text : Status → Text
  | .pending => "pending".toList
  | .running => "running".toList
  | .replacing => "replacing".toList
  | .finalizing => "finalizing".toList
  | .completed => "completed".toList
  | .failed => "failed".toList
  | .cancelled => "cancelled".toList

def holderJob (holder : Option JobId) : Work (Option JobInfo) :=
  match holder with
  | some h => getJob cfg h
  | none => pure none

/-- The message of a job that waits for the holder of the mutex. -/
def waitingMessage (holder : Option JobId) (job : Option JobInfo) : Text :=
  "Waiting for another bulk import on this collection".toList ++
    (match holder with
    | some h => " (job ".toList ++ h.text ++ ", status=".toList ++
        (match job with
        | some job => job.status.text
        | none => "missing".toList) ++ [')']
    | none => []) ++ "…".toList

/-- The end of `_defer_bulk_job_for_collection_mutex`: the job is set to wait and queued again. -/
def deferJob (payload : BulkJobPayload) (holder : Option JobId) (job : Option JobInfo) :
    Work Bool := do
  tryCatch
    (updateJob cfg payload.jobId
      { status := some .pending, message := some (waitingMessage holder job) })
    fun _ => pure ()
  tryCatch (enqueue cfg payload) fun _ => pure ()
  return true

/-- `_defer_bulk_job_for_collection_mutex` after the second attempt. -/
def deferAfterReclaim (payload : BulkJobPayload) : Work Bool := do
  let holder ← getCollectionBulkMutexHolder cfg payload.collectionId
  let job ← holderJob cfg holder
  if job.any fun job => job.status.terminal then
    reclaimStaleCollectionBulkMutex cfg payload.collectionId
    let acquired ← tryAcquireCollectionBulkMutex cfg payload.collectionId payload.jobId
    if acquired then return false
    else
      let holder ← getCollectionBulkMutexHolder cfg payload.collectionId
      let job ← holderJob cfg holder
      deferJob cfg payload holder job
  else deferJob cfg payload holder job

/-- `_defer_bulk_job_for_collection_mutex`. -/
def deferBulkJobForCollectionMutex (payload : BulkJobPayload) : Work Bool := do
  let acquired ← tryAcquireCollectionBulkMutex cfg payload.collectionId payload.jobId
  if acquired then return false
  else
    let _ ← getCollectionBulkMutexHolder cfg payload.collectionId
    reclaimStaleCollectionBulkMutex cfg payload.collectionId
    let acquired ← tryAcquireCollectionBulkMutex cfg payload.collectionId payload.jobId
    if acquired then return false
    else deferAfterReclaim cfg payload

/-! ## Raster batches -/

/-- `_raise_if_raster_job_cancelled`. -/
def raiseIfRasterJobCancelled (j : JobId) : Work Unit := raiseIfBulkCancelled cfg (some j)

/-- `create_raster_feature_from_source`. -/
def createRasterFeature : Raster → Work Unit
  | .error e => throw (raiseError e)
  | .ok r => execute .db fun k => k.insertFeature r

/-- The counts of a raster batch and its last error, empty when there is none. -/
structure RasterCount where
  created : Nat
  failed : Nat
  lastErr : Text

def RasterCount.fail (n : RasterCount) (error : Text) : RasterCount :=
  { n with failed := n.failed + 1, lastErr := error }

/-- The members of a ZIP in order; the first that raises ends it, the cancel check included. -/
def rasterMembers (j : JobId) : List Raster → RasterCount → Work RasterCount
  | [], n => pure n
  | r :: rest, n => do
    let raised ← attempt do
      raiseIfRasterJobCancelled cfg j
      createRasterFeature r
    match raised with
    | .error e => pure (n.fail (clip 500 e.text))
    | .ok _ => rasterMembers j rest { n with created := n.created + 1 }

def rasterProgress (j : JobId) (n : RasterCount) : Work Unit :=
  updateJob cfg j
    { status := some .running, itemsCreated := some n.created, itemsFailed := some n.failed }

def rasterEntry (j : JobId) (n : RasterCount) : RasterEntry → Work RasterCount
  | .skipped error => pure (n.fail error)
  | .unknownKind kind => do
    let n := n.fail ("Unknown manifest entry kind: ".toList ++ kind)
    rasterProgress cfg j n
    return n
  | .geotiff r => do
    let raised ← attempt (createRasterFeature r)
    let n := match raised with
      | .error e => n.fail (clip 500 e.text)
      | .ok _ => { n with created := n.created + 1 }
    rasterProgress cfg j n
    return n
  | .zip members => do
    let n ← rasterMembers cfg j members n
    rasterProgress cfg j n
    return n

/-- The loop of `_process_raster_batch_async`. -/
def rasterEntries (j : JobId) : List RasterEntry → RasterCount → Work RasterCount
  | [], n => pure n
  | ent :: rest, n => do
    raiseIfRasterJobCancelled cfg j
    let n ← rasterEntry cfg j n ent
    rasterEntries j rest n

def rasterCancelled (j : JobId) : Work Unit := do
  let job ← getJob cfg j
  updateJob cfg j
    { status := some .cancelled
      message := some "Cancelled by user.".toList
      itemsCreated := some ((job.map JobInfo.itemsCreated).getD 0)
      itemsFailed := some ((job.map JobInfo.itemsFailed).getD 0) }

/-- The last update of a raster batch. -/
def rasterOutcome (n : RasterCount) : JobUpdate :=
  let imported := "Imported ".toList ++ Sql.digits n.created ++ " raster item(s)".toList
  if n.failed ≠ 0 ∧ n.created = 0 then
    { status := some .failed
      message := some (orElseText n.lastErr "All raster imports failed.".toList)
      itemsCreated := some n.created
      itemsFailed := some n.failed }
  else
    { status := some .completed
      message := some (if n.failed = 0 then imported ++ ['.'] else
        imported ++ "; ".toList ++ Sql.digits n.failed ++ " failed.".toList ++
          if n.lastErr.isEmpty then [] else " Last error: ".toList ++ n.lastErr)
      itemsCreated := some n.created
      itemsFailed := some n.failed }

def rasterFinished (j : JobId) (n : RasterCount) : Work Unit := do
  updateJob cfg j (rasterOutcome n)
  if 0 < n.created then Prog.write .db id

/-- `_process_raster_batch_async`: the settings of the collection are read first. -/
def processRasterBatchEntries (j : JobId) (entries : List RasterEntry) : Work RasterCount := do
  query fun _ => ()
  rasterEntries cfg j entries ⟨0, 0, []⟩

/-- The archive under a storage key. -/
def readArchive (key : Text) : Work (List RasterEntry) := do
  let there ← Prog.read .storage fun s => s.uploads.contains key
  if !there then
    throw (.other "FileNotFoundError".toList
      ("[Errno 2] No such file or directory: ".toList ++ files.path key))
  else
    match files.archive key with
    | .ok entries => pure entries
    | .error e => throw (raiseError e)

/-- `run_raster_batch_job`. -/
def runRasterBatchJob (j : JobId) (key : Text) : Work Unit := do
  let entries ← readArchive files key
  updateJob cfg j { status := some .running, message := some "Converting rasters to COG…".toList }
  let r ← attempt (processRasterBatchEntries cfg j entries)
  match r with
  | .ok n => rasterFinished cfg j n
  | .error .bulkImportCancelled => rasterCancelled cfg j
  | .error e => throw e

/-! ## `process_bulk_job` -/

/-- `get_path_or_uri` refuses a key that leaves the upload directory. -/
def checkStorageKey (key : Text) : Work Unit :=
  if Sql.contains "..".toList key || Sql.startsWith ['/'] key then
    throw (.other "ValueError".toList "Invalid storage key".toList)
  else pure ()

/-- `storage.delete`, with an exception swallowed. -/
def storageDelete (key : Text) : Work Unit :=
  tryCatch (Prog.write .storage fun s => { s with uploads := s.uploads.filter (· != key) })
    fun _ => pure ()

/-- `max(3, int(setting or 15))`. -/
def Settings.progressAttempts : Nat := max 3 cfg.readAttempts

/-- A job update that is tried again. -/
def updateJobRetry (j : JobId) (u : JobUpdate) : Work Unit :=
  runRedisRetry cfg.progressAttempts (updateJob cfg j u)

/-- `on_progress` of `process_bulk_job`. -/
def reportProgress (payload : BulkJobPayload) (status : Status) (created : Nat) : Work Unit := do
  let job ← getJob cfg payload.jobId
  if job.any fun job => job.status == .failed || job.status == .cancelled then
    throw .bulkImportCancelled
  else
    tryCatch
      (runRedisRetry cfg.progressAttempts do
        refreshCollectionBulkMutex cfg payload.collectionId payload.jobId
        updateJob cfg payload.jobId { status := some status, itemsCreated := some created })
      fun _ => pure ()

/-- `on_progress("running", created, None)`. -/
def onProgress (payload : BulkJobPayload) (created : Nat) : Work Unit :=
  reportProgress cfg payload .running created

/-- `_run_vector_import`. -/
def runVectorImport (payload : BulkJobPayload) : Work (Nat × Nat × Option Text) :=
  match payload.mode with
  | .replaceFiltered =>
    pure (0, 0, some "replace_filtered is not supported; use mode=replace or append.".toList)
  | .unknown text => pure (0, 0, some ("Unsupported import mode: ".toList ++ text))
  | .plain mode =>
    runBulkCopyImport H cfg payload.collectionId payload.jobId (onProgress cfg payload) files
      payload.storageKey mode

/-- The job is set running, and its file imported. -/
def startImport (payload : BulkJobPayload) : Work (Nat × Nat × Option Text) := do
  updateJobRetry cfg payload.jobId
    { status := some .running, message := some "Starting bulk import…".toList }
  if payload.mode = .plain .replace then
    updateJobRetry cfg payload.jobId
      { status := some .replacing
        message := some "Loading replacement data into staging…".toList }
  runVectorImport H cfg files payload

/-- No row was staged. -/
def emptyImport (payload : BulkJobPayload) (failed : Nat) : Work Unit := do
  tryCatch (dropStagingTable payload.jobId) fun _ => pure ()
  updateJobRetry cfg payload.jobId
    { status := some .failed
      message := some (if failed = 0 then
          "No features were imported from the file (empty or unreadable).".toList
        else
          "No features were imported from the file (".toList ++ Sql.digits failed ++
            " geometries skipped or invalid).".toList)
      itemsCreated := some 0
      itemsFailed := some failed }

/-- The mode of the finalize payload: the rows of another mode are never staged. -/
def ImportMode.staged : ImportMode → Mode
  | .plain mode => mode
  | _ => .append

/-- The staged rows are handed to the finalize worker. -/
def handToFinalize (payload : BulkJobPayload) (created failed : Nat) : Work Unit := do
  let _ ← enqueueFinalize cfg
    { jobId := payload.jobId, collectionId := payload.collectionId, mode := payload.mode.staged,
      itemsCreated := created, itemsFailed := failed, ownerId := payload.ownerId,
      queueComputeTiles := payload.queueComputeTiles, attempt := 0 } false
  updateJobRetry cfg payload.jobId
    { status := some .finalizing
      message := some ("Loaded ".toList ++ Sql.commaDigits created ++
        " features into staging; partition swap queued…".toList)
      itemsCreated := some created
      itemsFailed := some failed }

def completeImport (payload : BulkJobPayload) (created failed : Nat) : Work Unit := do
  updateJob cfg payload.jobId
    { status := some .completed
      message := some ("Imported ".toList ++ Sql.digits created ++ " features.".toList ++
        if failed = 0 then [] else ' ' :: Sql.digits failed ++ " failed.".toList)
      itemsCreated := some created
      itemsFailed := some failed }
  queueTileBuildIfRequested cfg payload.collectionId payload.queueComputeTiles

/-- The record of a job whose import returned an error text. -/
def closedUpdate (status : Status) (message : Text) (created failed : Nat) : JobUpdate :=
  { status := some status, message := some message, itemsCreated := some created,
    itemsFailed := some failed }

/-- The end of the `try` of `process_bulk_job`, by what the import returned. An empty error text
is no error. -/
def recordImport (payload : BulkJobPayload) (created failed : Nat) : Option Text → Work Unit
  | none => completeImport cfg payload created failed
  | some err =>
    if err = finalizeQueued then
      if created = 0 then emptyImport cfg payload failed
      else handToFinalize cfg payload created failed
    else if err = cancelledText then
      updateJob cfg payload.jobId
        (closedUpdate .cancelled "Cancelled by user.".toList created failed)
    else if err.isEmpty then completeImport cfg payload created failed
    else updateJob cfg payload.jobId (closedUpdate .failed err created failed)

/-- The import returned: nothing is recorded for a job that was failed or cancelled. -/
def importReturned (payload : BulkJobPayload) (created failed : Nat) (err : Option Text) :
    Work Unit := do
  let job ← getJob cfg payload.jobId
  if job.any fun job => job.status == .failed || job.status == .cancelled then return ()
  else recordImport cfg payload created failed err

/-- The handlers of `process_bulk_job`. -/
def importRaised (payload : BulkJobPayload) : Exn → Work Unit
  | .bulkImportCancelled =>
    updateJob cfg payload.jobId
      { status := some .cancelled, message := some "Cancelled by user.".toList }
  | e => updateJob cfg payload.jobId { status := some .failed, message := some e.text }

/-- The `finally` of `process_bulk_job`. -/
def closeImport (payload : BulkJobPayload) : Work Unit := do
  releaseCollectionBulkMutex cfg payload.collectionId payload.jobId
  let queued ← tryCatch
    (do
      let job ← getJob cfg payload.jobId
      return job.any fun job => job.status == .finalizing)
    fun _ => pure false
  storageDelete payload.storageKey
  if !queued then unregisterBulkImportJob payload.jobId

/-- What a worker that has the mutex does up to the end of the import: nothing for a job that was
cancelled, else the import. -/
def importPhase (payload : BulkJobPayload) : Work (Option (Except Exn (Nat × Nat × Option Text))) :=
  do
    let job ← getJob cfg payload.jobId
    if job.any fun job => job.status == .cancelled then return none
    else
      let r ← attempt (startImport H cfg files payload)
      return some r

/-- The `try`, the handlers and the `finally`, after the import. -/
def afterImport (payload : BulkJobPayload) (r : Except Exn (Nat × Nat × Option Text)) : Work Unit :=
  Prog.tryFinally
    (tryCatch
      (match r with
      | .ok (created, failed, err) => importReturned cfg payload created failed err
      | .error e => throw e)
      (importRaised cfg payload))
    (closeImport cfg payload)

def dismissCancelled (payload : BulkJobPayload) : Work Unit := do
  releaseCollectionBulkMutex cfg payload.collectionId payload.jobId
  storageDelete payload.storageKey
  unregisterBulkImportJob payload.jobId

/-- `process_bulk_job` once the job has the mutex. -/
def importWithMutex (payload : BulkJobPayload) : Work Unit := do
  let phase ← Prog.tryFinally (importPhase H cfg files payload)
    (endImport payload.collectionId payload.jobId)
  match phase with
  | none => dismissCancelled cfg payload
  | some r => afterImport cfg payload r

/-- The raster branch of `process_bulk_job`. -/
def processRasterBatch (payload : BulkJobPayload) : Work Unit :=
  Prog.tryFinally
    (tryCatch (runRasterBatchJob cfg files payload.jobId payload.storageKey) fun e =>
      updateJob cfg payload.jobId { status := some .failed, message := some e.text })
    (do
      storageDelete payload.storageKey
      unregisterBulkImportJob payload.jobId)

def processBulkJob (payload : BulkJobPayload) : Work Unit := do
  checkStorageKey payload.storageKey
  if payload.jobKind = .rasterBatch then processRasterBatch cfg files payload
  else
    let deferred ← deferBulkJobForCollectionMutex cfg payload
    if deferred then return ()
    else importWithMutex H cfg files payload

end

end Bulk
end Geofastmap
