import Geofastmap.Bulk.Delete

/-!
# Geofastmap.Bulk.Staging

The staging table of a job, the finalize queue, and the promotion of staged rows to live rows:
`bulk_finalize_queue.py`, `bulk_staging.py` and `bulk_staging_recovery.py`.

Promotion is `promoteStaging`. A replace job swaps its staging table in as the partition of the
collection, so from then on the table named after the job holds the live rows; an append job
inserts its rows and drops the table in another transaction.
-/

namespace Geofastmap
namespace Bulk

open Db Interleave

/-- `s[:n]`. -/
def clip (n : Nat) (s : Text) : Text := s.take n

/-- `a or b` on numbers. -/
def orElseNat (a b : Nat) : Nat := if a = 0 then b else a

section
variable (cfg : Settings)

/-! ## The finalize queue -/

def isFinalizePending (j : JobId) : Work Bool :=
  if !cfg.bulkQueueRedis then pure false
  else runRedisRetry 5 (redisRead fun s => s.finalizePending.contains j)

/-- `HSET` on the state of a job. -/
def Sys.setFinalizeState (s : Sys) (j : JobId) (f : FinalizeState → FinalizeState) : Sys :=
  let old := (s.finalizeState.lookup j).getD .empty
  { s with finalizeState := (j, f old) :: s.finalizeState.filter (·.1 != j) }

def Sys.markPending (s : Sys) (j : JobId) : Sys :=
  { s with finalizePending := j :: s.finalizePending }

def Sys.storeFinalizeState (s : Sys) (payload : BulkFinalizePayload) : Sys :=
  s.setFinalizeState payload.jobId fun st =>
    { st with
      collectionId := some payload.collectionId
      mode := some payload.mode
      itemsCreated := some payload.itemsCreated
      itemsFailed := some payload.itemsFailed
      ownerId := payload.ownerId
      queueComputeTiles := some payload.queueComputeTiles }

/-- The body that `mark_finalize_pending` retries: `SET`, `HSET` and `EXPIRE`. -/
def markBody (payload : BulkFinalizePayload) : Work Unit := do
  Prog.write (.markPending payload.jobId) fun s => s.markPending payload.jobId
  Prog.write (.markState payload.jobId) fun s => s.storeFinalizeState payload
  Prog.write (.markState payload.jobId) id

def markFinalizePending (payload : BulkFinalizePayload) : Work Unit :=
  if !cfg.bulkQueueRedis then pure ()
  else runRedisRetry cfg.enqueueAttempts (markBody payload)

def getFinalizeState (j : JobId) : Work (Option FinalizeState) :=
  if !cfg.bulkQueueRedis then pure none
  else runRedisRetry 5 (redisRead fun s => s.finalizeState.lookup j)

def clearFinalizePending (j : JobId) : Work Unit :=
  if !cfg.bulkQueueRedis then pure ()
  else
    tryCatch (redisWrite fun s =>
      { s with
        finalizePending := s.finalizePending.filter (· != j)
        finalizeState := s.finalizeState.filter (·.1 != j) }) fun _ => pure ()

def recordFinalizeError (j : JobId) (message : Text) (attempt : Nat) : Work Unit :=
  if !cfg.bulkQueueRedis then pure ()
  else
    runRedisRetry cfg.enqueueAttempts (redisWrite fun s => s.setFinalizeState j fun st =>
      { st with attempt := some attempt, error := some (clip 2000 message) })

def enqueueFinalize (payload : BulkFinalizePayload) (force : Bool) : Work Bool :=
  if !cfg.bulkQueueRedis then pure false
  else
    runRedisRetry cfg.enqueueAttempts do
      let pending ← if force then pure false
        else redisRead fun s => s.finalizePending.contains payload.jobId
      if pending then return true
      else
        markFinalizePending cfg payload
        Prog.write (.pushFinalize payload.jobId) fun s =>
          { s with finalizeQueue := payload :: s.finalizeQueue }
        return true

def removeFinalizeFromQueue (j : JobId) : Work Unit :=
  if !cfg.bulkQueueRedis then pure ()
  else do
    let queue ← redisRead fun s => s.finalizeQueue
    -- an `LREM` that fails is skipped
    Prog.forEach (fun payload =>
        tryCatch (redisWrite fun s => { s with finalizeQueue := s.finalizeQueue.erase payload })
          fun _ => pure ())
      (queue.filter (·.jobId == j))

end

/-! ## The staging table -/

/-- `create_staging_table_sync`, in the transaction of its caller. -/
def createStagingTable (j : JobId) : Work Unit :=
  execute .db fun k => (k.drop (stagingTableName j)).createTable (stagingTableName j) true

def dropStagingTable (j : JobId) : Work Unit :=
  execute (.dropStaging j) fun k => .ok (k.drop (stagingTableName j))

def stagingTableExists (j : JobId) : Work Bool := query fun k => k.tableExists (stagingTableName j)

/-- `SELECT COUNT(*)` of a table, 0 when it is not there. -/
def rowCount (k : Catalog) (n : RelName) : Nat :=
  match k.find n with
  | some t => t.rows.length
  | none => 0

def stagingRowCount (j : JobId) : Work Nat := query fun k => rowCount k (stagingTableName j)

/-- `SELECT COUNT(*)` of a table; it raises when the table is not there. -/
def countRows (k : Catalog) (n : RelName) : Except DbError Nat :=
  (k.need n).map fun t => t.rows.length

/-! ## Duplicates -/

/-- `is_staging_pk_duplicate_error`. -/
def isStagingPkDuplicateError (text : Text) : Bool :=
  let msg := Sql.lower text
  (Sql.contains "uniqueviolation".toList msg || Sql.contains "duplicate key value".toList msg) &&
    (Sql.contains "bulk_staging".toList msg || Sql.contains "_pkey".toList msg ||
      Sql.contains "staging".toList msg)

/-- The rows that are not the newest of their key: `rn > 1` of the ranking by
`updated_at DESC, ctid DESC`. -/
def duplicateSlots (t : Table) : List (Nat × Row) :=
  t.slots.filter fun x => t.slots.any fun y =>
    decide (y.2.key = x.2.key) &&
      (decide (x.2.updatedAt < y.2.updatedAt) ||
        decide (x.2.updatedAt = y.2.updatedAt) && decide (x.1 < y.1))

/-- `staging_duplicate_count_sync`. -/
def stagingDuplicateCount (j : JobId) : Work Nat :=
  query fun k =>
    match k.find (stagingTableName j) with
    | some t => (duplicateSlots t).length
    | none => 0

/-- `dedupe_staging_table_sync`. -/
def dedupeStagingTable (j : JobId) : Work Nat :=
  transaction .db fun k =>
    match k.find (stagingTableName j) with
    | some t =>
      let ids := (duplicateSlots t).map Prod.fst
      .ok (ids.length, k.onTable (stagingTableName j) (Table.tame_deleteSlots ids.contains))
    | none => .ok (0, k)

/-- `prepare_staging_for_promote_sync`. -/
def prepareStagingForPromote (j : JobId) : Work Nat := do
  let dupes ← stagingDuplicateCount j
  if dupes = 0 then return 0
  else
    let removed ← dedupeStagingTable j
    let remaining ← stagingDuplicateCount j
    if remaining > 0 then
      throw (.stagingDuplicateUnrecoverable ("Staging still has ".toList ++ Sql.digits remaining ++
        " duplicate primary-key rows after removing ".toList ++ Sql.digits removed ++ ['.']))
    else return removed

section
variable (H : Digest) (cfg : Settings)

/-! ## Partitions -/

/-- `ensure_features_partition_sync`. -/
def ensureFeaturesPartition (c : CollectionId) : Work RelName := do
  let existing ← query fun k => k.resolveFeaturesPartitionRelname c
  match existing with
  | some n => transaction .db fun k => k.ensureExisting c n
  | none => transaction .db fun k => k.ensureMissing H c

/-- `_is_lock_timeout_error`. -/
def isLockTimeoutError (e : Exn) : Bool :=
  let msg := Sql.lower e.text
  Sql.contains "lock timeout".toList msg || Sql.contains "locknotavailable".toList msg ||
    Sql.contains "55p03".toList msg

/-- A transaction that is run again after a lock timeout, `n` times more at most. -/
def retryLock (p : Work Unit) (timeout : Exn) : Nat → Work Unit
  | 0 => tryCatch p fun e => if isLockTimeoutError e then throw timeout else throw e
  | n + 1 => tryCatch p fun e => if isLockTimeoutError e then retryLock p timeout n else throw e

/-- `swap_staging_into_collection_partition_sync`. -/
def swapStagingIntoCollectionPartition (c : CollectionId) (staging : RelName) : Work Unit := do
  execute .db fun k => k.prepareStagingForAttach c staging
  retryLock
    (execute (.swap c staging) fun k => k.swapStagingIntoCollectionPartition H c staging)
    (.other "TimeoutError".toList ("Partition swap for ".toList ++ c ++
      " could not acquire locks on `features`".toList))
    cfg.swapLockAttempts

/-- The transaction of `cleanup_failed_staging_import_sync`: the staging table is detached when it
is attached, and dropped. -/
def dropFailedStaging (staging : RelName) (k : Catalog) : Except DbError Catalog :=
  if k.tableExists staging then
    if k.partitionIsAttached staging then do
      let k ← k.detachPartition staging
      return k.drop staging
    else return k.drop staging
  else return k

def cleanupFailedStagingImport (j : JobId) (c : CollectionId) : Work Unit := do
  execute (.dropStaging j) (dropFailedStaging (stagingTableName j))
  let _ ← ensureFeaturesPartition H c

def abandonStagingFinalizeJob (j : JobId) (c : CollectionId) (reason : Text)
    (itemsCreated itemsFailed : Nat) : Work Unit := do
  cleanupFailedStagingImport H j c
  removeFinalizeFromQueue cfg j
  clearFinalizePending cfg j
  unregisterBulkImportJob j
  updateJob cfg j
    { status := some .failed
      message := some (clip 2000 ("Bulk import abandoned: ".toList ++ reason ++
        " Staging was removed — please re-import this file.".toList))
      itemsCreated := some itemsCreated
      itemsFailed := some itemsFailed }

/-! ## Promotion -/

/-- `promote_with_staging_recovery`. -/
def promoteWithStagingRecovery (j : JobId) (promoteFn : Work Unit) : Work Unit := do
  let _ ← prepareStagingForPromote j
  tryCatch promoteFn fun e =>
    match e with
    | .integrity msg =>
      if !isStagingPkDuplicateError msg then throw e
      else do
        let _ ← prepareStagingForPromote j
        tryCatch promoteFn fun e2 =>
          match e2 with
          | .integrity msg2 =>
            if isStagingPkDuplicateError msg2 then
              throw (.stagingDuplicateUnrecoverable (clip 500 msg2))
            else throw e2
          | _ => throw e2
    | _ => throw e

/-- The `INSERT` of an append promotion. -/
def appendPromote (j : JobId) : Work Unit :=
  execute (.append j) fun k => do
    let t ← k.need (stagingTableName j)
    k.insertFeatures t.rows

def promoteStaging (c : CollectionId) (j : JobId) (mode : Mode) : Work Nat := do
  let staging := stagingTableName j
  let count ← queryOr (.promote j mode) fun k => countRows k staging
  if count = 0 then
    dropStagingTable j
    return 0
  else
    match mode with
    | .replace =>
      let complete ← query fun k => k.partitionSwapAlreadyComplete c staging
      if complete then return count
      else
        promoteWithStagingRecovery j (swapStagingIntoCollectionPartition H cfg c staging)
        return count
    | .append =>
      let _ ← ensureFeaturesPartition H c
      promoteWithStagingRecovery j (appendPromote j)
      dropStagingTable j
      return count

/-- `_update_feature_count_sync`: the number of distinct ids. -/
def updateFeatureCount (c : CollectionId) : Work Unit :=
  runDbRetry (Prog.write .db fun s =>
    let n := ((s.catalog.rowsOf c).map Row.id).dedup.length
    { s with collections := s.collections.map fun col =>
        if col.id = c then { col with featureCount := n } else col }) (cfg.dbAttempts - 1)

/-- `_finalize_after_promote`. The extent and the time of the last update are columns that
nothing here reads; their statements can raise. -/
def finalizeAfterPromote (c : CollectionId) : Work Unit := do
  updateFeatureCount cfg c
  match cfg.bulkExtentUpdateMode with
  | .deferred => pure ()
  | .immediate => Prog.write .db id
  | .bestEffort => tryCatch (Prog.write .db id) fun _ => pure ()
  Prog.write .db id

end

end Bulk
end Geofastmap
