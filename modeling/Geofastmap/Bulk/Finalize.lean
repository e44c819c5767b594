import Geofastmap.Bulk.Staging

/-!
# Geofastmap.Bulk.Finalize

The finalize worker (`bulk_finalize_worker.py`, `finalize_worker_main.py`) and the cancel route
for bulk jobs (`api/routes/jobs.py`).
-/

namespace Geofastmap
namespace Bulk

open Db Interleave

section
variable (H : Digest) (cfg : Settings)

/-- `_queue_tile_build_if_requested`. -/
def queueTileBuildIfRequested (c : CollectionId) (requested : Bool) : Work Unit :=
  if !requested || !cfg.bulkQueueRedis then pure ()
  else if !cfg.bulkAutoTileBuildCollections.contains c then pure ()
  else
    tryCatch (redisWrite fun s => { s with tileBuilds := c :: s.tileBuilds }) fun _ => pure ()

def duplicateGiveUpAttempts : Nat := max 1 (orElseNat cfg.bulkFinalizeDuplicateGiveUpAttempts 3)

/-- The clean-up of a cancelled job, after its staging table is dropped. -/
def closeFinalize (j : JobId) : Work Unit := do
  clearFinalizePending cfg j
  unregisterBulkImportJob j

/-- The rest of `process_bulk_finalize_job` once the job is known to have staged rows. -/
def finalizeStaged (payload : BulkFinalizePayload) (staged : Nat) : Work Unit := do
  updateJob cfg payload.jobId
    { status := some .finalizing
      message := some ("Swapping ".toList ++ Sql.commaDigits staged ++
        " staged features into live partition…".toList)
      itemsCreated := some (orElseNat payload.itemsCreated staged)
      itemsFailed := some payload.itemsFailed }
  let prepared ← tryCatch (do let _ ← prepareStagingForPromote payload.jobId; pure true) fun e =>
    match e with
    | .stagingDuplicateUnrecoverable msg => do
      abandonStagingFinalizeJob H cfg payload.jobId payload.collectionId msg
        (orElseNat payload.itemsCreated staged) payload.itemsFailed
      pure false
    | e => throw e
  if !prepared then return ()
  else
    let count ← promoteStaging H cfg payload.collectionId payload.jobId payload.mode
    finalizeAfterPromote cfg payload.collectionId
    let imported := orElseNat count (orElseNat payload.itemsCreated staged)
    updateJob cfg payload.jobId
      { status := some .completed
        message := some ("Imported ".toList ++ Sql.commaDigits imported ++ " features.".toList ++
          if payload.itemsFailed = 0 then [] else
            ' ' :: Sql.digits payload.itemsFailed ++ " failed.".toList)
        itemsCreated := some imported
        itemsFailed := some payload.itemsFailed }
    closeFinalize cfg payload.jobId
    queueTileBuildIfRequested cfg payload.collectionId payload.queueComputeTiles

/-- The body of the `try` of `process_bulk_finalize_job`. -/
def finalizeBody (payload : BulkFinalizePayload) : Work Unit := do
  let staged ← stagingRowCount payload.jobId
  if staged = 0 then
    updateJob cfg payload.jobId
      { status := some .completed
        message := some "Finalize skipped: staging table empty (already promoted?).".toList
        itemsCreated := some payload.itemsCreated
        itemsFailed := some payload.itemsFailed }
    closeFinalize cfg payload.jobId
  else finalizeStaged H cfg payload staged

/-- The `except Exception` of `process_bulk_finalize_job`: give up on duplicates, else record the
error and raise it again. -/
def finalizeFailed (payload : BulkFinalizePayload) (e : Exn) : Work Unit := do
  let err := e.cls ++ ": ".toList ++ e.text
  let abandon (reason : Text) : Work Bool := do
    abandonStagingFinalizeJob H cfg payload.jobId payload.collectionId reason
      payload.itemsCreated payload.itemsFailed
    pure true
  let closed ←
    if isStagingPkDuplicateError e.text then do
      let dup ← tryCatch (do let _ ← prepareStagingForPromote payload.jobId; pure none) fun e =>
        match e with
        | .stagingDuplicateUnrecoverable msg => pure (some msg)
        | e => throw e
      match dup with
      | some msg => abandon msg
      | none =>
        if duplicateGiveUpAttempts cfg ≤ payload.attempt then
          abandon ("Duplicate staging primary keys persisted after ".toList ++
            Sql.digits (payload.attempt + 1) ++ " finalize attempts. ".toList ++ clip 200 err)
        else pure false
    else pure false
  if closed then return ()
  else
    recordFinalizeError cfg payload.jobId err payload.attempt
    updateJob cfg payload.jobId
      { status := some .finalizing
        message := some ("Partition swap failed (attempt ".toList ++
          Sql.digits (payload.attempt + 1) ++ "); will retry automatically. ".toList ++
          clip 300 err)
        itemsCreated := some payload.itemsCreated
        itemsFailed := some payload.itemsFailed }
    throw e

/-- `process_bulk_finalize_job`. -/
def processBulkFinalizeJob (payload : BulkFinalizePayload) : Work Unit := do
  let job ← getJob cfg payload.jobId
  if (job.map JobInfo.status) = some .cancelled then
    dropStagingTable payload.jobId
    closeFinalize cfg payload.jobId
  else
    tryCatch (finalizeBody H cfg payload) fun e =>
      match e with
      | .bulkImportCancelled => do
        tryCatch (dropStagingTable payload.jobId) fun _ => pure ()
        closeFinalize cfg payload.jobId
      | .stagingDuplicateUnrecoverable msg =>
        abandonStagingFinalizeJob H cfg payload.jobId payload.collectionId msg
          payload.itemsCreated payload.itemsFailed
      | e => finalizeFailed H cfg payload e

/-- `requeue_finalize_after_failure`. -/
def requeueFinalizeAfterFailure (payload : BulkFinalizePayload) : Work Unit := do
  let _ ← enqueueFinalize cfg { payload with attempt := payload.attempt + 1 } true

/-- One turn of the finalize worker: `BRPOP`, process, queue again after an exception. -/
def finalizeWorkerTurn : Work Unit := do
  let payload ← Prog.atomic .redis fun s =>
    .ok (s.finalizeQueue.getLast?, { s with finalizeQueue := s.finalizeQueue.dropLast })
  match payload with
  | none => pure ()
  | some payload =>
    tryCatch (processBulkFinalizeJob H cfg payload) fun _ =>
      tryCatch (requeueFinalizeAfterFailure cfg payload) fun _ => pure ()

/-- `cancel_job_record`, for a job of the bulk import. -/
def cancelJobRecord (job : JobInfo) : Work Unit := do
  let isBulk ← redisRead fun s => s.registered.contains job.jobId
  match job.status with
  | .completed | .failed | .cancelled => pure ()
  | .pending =>
    if isBulk then unregisterBulkImportJob job.jobId
    updateJob cfg job.jobId
      { status := some .cancelled, message := some "Cancelled by user.".toList }
  | .running | .replacing =>
    if isBulk then
      updateJob cfg job.jobId
        { status := some .cancelled
          message := some "Cancellation requested — stopping soon…".toList }
  | .finalizing =>
    if isBulk then
      removeFinalizeFromQueue cfg job.jobId
      clearFinalizePending cfg job.jobId
      tryCatch (dropStagingTable job.jobId) fun _ => pure ()
      unregisterBulkImportJob job.jobId
      updateJob cfg job.jobId
        { status := some .cancelled
          message := some "Cancelled during partition swap; staged data dropped.".toList }

/-- The cancel route: the record is read, then cancelled. -/
def cancelJob (j : JobId) : Work Unit := do
  let job ← getJob cfg j
  match job with
  | none => pure ()
  | some job => cancelJobRecord cfg job

end

end Bulk
end Geofastmap
