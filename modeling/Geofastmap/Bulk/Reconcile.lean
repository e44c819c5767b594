import Geofastmap.Bulk.Finalize

/-!
# Geofastmap.Bulk.Reconcile

`bulk_finalize_reconcile.py`: the pass that looks at finalizing and failed jobs, completes the ones
whose staging table is already the live partition, and promotes the staged rows of the others. The
counters of the pass and its dry run are left out.
-/

namespace Geofastmap
namespace Bulk

open Db Interleave

/-- `(job.status or "") == "replacing" or "replace" in msg`. -/
def readsReplace (job : JobInfo) : Bool :=
  job.status == .replacing || Sql.contains "replace".toList (Sql.lower job.message)

def digitsValue (s : Text) : Nat := s.foldl (fun n ch => 10 * n + (ch.toNat - '0'.toNat)) 0

/-- The first match of `attempt\\s+(\\d+)` in a text in lower case. -/
def attemptNumber (s : Text) : Option Nat :=
  s.tails.findSome? fun t =>
    if Sql.startsWith "attempt".toList t then
      let rest := t.drop 7
      let num := (rest.dropWhile isSpace).takeWhile Char.isDigit
      if (rest.head?.any isSpace) && !num.isEmpty then some (digitsValue num) else none
    else none

/-- `list_attached_feature_partitions_sync`: the names of the children with one value. -/
def attachedFeaturePartitions (k : Catalog) : List RelName :=
  k.partitionList.filterMap fun row =>
    match row.2 with
    | .values [x] => if row.1.isEmpty || x.isEmpty then none else some row.1
    | _ => none

section
variable (H : Digest) (cfg : Settings)

/-- The stored state of a job, read where a recovery path decides by it. -/
def getFinalizeStateAt (path : Path) (job : JobInfo) : Work (Option FinalizeState) :=
  if !cfg.bulkQueueRedis then Prog.read (.recover path job) fun _ => none
  else runRedisRetry 5 (Prog.read (.recover path job) fun s => s.finalizeState.lookup job.jobId)

/-- `_infer_import_mode`. -/
def inferImportMode (job : JobInfo) : Work Mode := do
  if readsReplace job then return .replace
  else
    let state ← getFinalizeStateAt cfg .stored job
    return ((state.bind FinalizeState.mode).getD .append)

/-- `_job_activity_age_seconds`, in microseconds; the times of a record that exist are tried in
order. -/
def jobActivityAge (job : JobInfo) : Work Nat :=
  redisRead fun s => s.now - job.lastProgressAt.getD job.updatedAt

/-- The age from which a job without progress may be recovered, at least `floor`. -/
def runningRecoverAge (floor : Nat) : Nat :=
  max floor (orElseNat cfg.bulkRunningRecoverStaging 600000000)

/-- `_load_still_in_progress`. -/
def loadStillInProgress (job : JobInfo) : Work Bool := do
  if job.status = .pending ∨ job.status = .running ∨ job.status = .replacing then return true
  else
    let held ← holdsCollectionBulkMutex cfg job.collectionId job.jobId
    if held then return true
    else if job.status = .finalizing ∧ job.itemsCreated = 0 then
      let age ← jobActivityAge job
      return decide (age < runningRecoverAge cfg 60000000)
    else return false

/-- `_is_reconcile_candidate`. -/
def isReconcileCandidate (job : JobInfo) : Work Bool := do
  if !(job.status == .finalizing || job.status == .failed || job.status == .running ||
      job.status == .replacing) then return false
  else
    let loading ← loadStillInProgress cfg job
    if loading then return false
    else
      return job.status == .finalizing || decide (0 < job.itemsCreated) ||
        ["partition swap", "overlap", "deadlock", "watchdog", "finalize", "bulk import stalled",
          "duplicate key", "uniqueviolation"].any fun k =>
            Sql.contains k.toList (Sql.lower job.message)

/-- `_should_abandon_duplicate_job`. -/
def shouldAbandonDuplicateJob (job : JobInfo) : Work Bool := do
  if !isStagingPkDuplicateError job.message then return false
  else
    let state ← getFinalizeState cfg job.jobId
    let attempt := (state.bind FinalizeState.attempt).getD 0
    if duplicateGiveUpAttempts cfg ≤ attempt then return true
    else
      let msg := Sql.lower job.message
      if Sql.contains "attempt ".toList msg then
        return (attemptNumber msg).any fun n => decide (duplicateGiveUpAttempts cfg ≤ n)
      else return false

/-- `_complete_swapped_job`. -/
def completeSwappedJob (job : JobInfo) (rows : Nat) (note : Text) : Work Unit := do
  finalizeAfterPromote cfg job.collectionId
  updateJob cfg job.jobId
    { status := some .completed
      message := some ("Recovered: ".toList ++ note ++ " (".toList ++ Sql.commaDigits rows ++
        " features).".toList)
      itemsCreated := some rows
      itemsFailed := some job.itemsFailed }
  closeFinalize cfg job.jobId

/-- `_reconcile_one_job` when the staging table is gone. -/
def reconcileGone (job : JobInfo) : Work Unit := do
  let live ← query fun k => k.resolveFeaturesPartitionRelname job.collectionId
  match live with
  | some n =>
    if Sql.startsWith stagingTablePrefix n && job.status == .finalizing then do
      let count ← tryCatch (queryOr .db fun k => countRows k n) fun _ => pure job.itemsCreated
      completeSwappedJob cfg job (orElseNat count job.itemsCreated)
        "live partition already attached".toList
    else pure ()
  | none => pure ()

/-- `_reconcile_one_job` when the staging table is empty and not attached. -/
def reconcileEmpty (job : JobInfo) : Work Unit := do
  let loading ← loadStillInProgress cfg job
  if loading then return ()
  else
    let live ← query fun k => k.resolveFeaturesPartitionRelname job.collectionId
    let count ← match live with
      | some n =>
        if Sql.startsWith stagingTablePrefix n then pure 0
        else do
          let count ← tryCatch (queryOr .db fun k => countRows k n) fun _ => pure job.itemsCreated
          pure (orElseNat count job.itemsCreated)
      | none => pure 0
    if count ≠ 0 then
      completeSwappedJob cfg job count "live partition already has data (staging dropped)".toList
    else
      tryCatch (dropStagingTable job.jobId) fun _ => pure ()
      updateJob cfg job.jobId
        { status := some .failed
          message := some (if 0 < job.itemsCreated then
            ("Bulk import lost staged data before partition swap could complete. " ++
              "Please re-import this file.").toList
            else
            ("Bulk import produced no features (empty staging table). " ++
              "Check the source file and re-import.").toList)
          itemsCreated := some 0
          itemsFailed := some job.itemsFailed }
      closeFinalize cfg job.jobId

/-- `_abandon_duplicate_job`. -/
def abandonDuplicateJob (job : JobInfo) (staged : Nat) (reason : Text) : Work Unit :=
  abandonStagingFinalizeJob H cfg job.jobId job.collectionId reason
    (orElseNat staged job.itemsCreated) job.itemsFailed

/-- Run `p`; on duplicates that cannot be removed the job is abandoned. -/
def orAbandon (job : JobInfo) (staged : Nat) (p : Work Unit) (next : Work Unit) : Work Unit := do
  let dup ← tryCatch (do p; pure none) fun e =>
    match e with
    | .stagingDuplicateUnrecoverable msg => pure (some msg)
    | e => throw e
  match dup with
  | some msg => abandonDuplicateJob H cfg job staged msg
  | none => next

/-- Promote, count, and complete. -/
def reconcilePromote (job : JobInfo) (mode : Mode) (message : Nat → Text) : Work Unit := do
  let count ← promoteStaging H cfg job.collectionId job.jobId mode
  finalizeAfterPromote cfg job.collectionId
  updateJob cfg job.jobId
    { status := some .completed
      message := some (message count)
      itemsCreated := some count
      itemsFailed := some job.itemsFailed }
  closeFinalize cfg job.jobId

/-- The promotion failed: queue the job for the finalize worker. -/
def reconcileRequeue (job : JobInfo) (staged : Nat) (mode : Mode) (err : Text) : Work Unit := do
  let pending ← isFinalizePending cfg job.jobId
  if pending then pure ()
  else
    let _ ← enqueueFinalize cfg
      { jobId := job.jobId, collectionId := job.collectionId, mode := mode,
        itemsCreated := staged, itemsFailed := job.itemsFailed, ownerId := job.ownerId,
        queueComputeTiles := false, attempt := 0 } true
  updateJob cfg job.jobId
    { status := some .finalizing
      message := some ("Reconcile: queued partition swap for ".toList ++ Sql.commaDigits staged ++
        " features after error: ".toList ++ clip 200 err)
      itemsCreated := some staged }

/-- `_reconcile_one_job` from the promotion on. -/
def reconcileStaged (job : JobInfo) (staged : Nat) (mode : Mode) : Work Unit :=
  tryCatch
    (reconcilePromote H cfg job mode fun count =>
      "Recovered: promoted ".toList ++ Sql.commaDigits count ++
        " staged features (bulk reconcile).".toList)
    fun e =>
      match e with
      | .stagingDuplicateUnrecoverable msg => abandonDuplicateJob H cfg job staged msg
      | e =>
        if isStagingPkDuplicateError e.text then
          orAbandon H cfg job staged
            (do
              let _ ← prepareStagingForPromote job.jobId
              reconcilePromote H cfg job mode fun count =>
                "Recovered: deduped and promoted ".toList ++ Sql.commaDigits count ++
                  " staged features (bulk reconcile).".toList)
            (pure ())
        else reconcileRequeue cfg job staged mode e.text

/-- `_reconcile_one_job` for staged rows that are not live yet. -/
def reconcilePending (job : JobInfo) (staged : Nat) : Work Unit := do
  let mode ← inferImportMode cfg job
  let prepare : Work Unit := do let _ ← prepareStagingForPromote job.jobId
  let abandon ← shouldAbandonDuplicateJob cfg job
  orAbandon H cfg job staged (if abandon then prepare else pure ())
    (orAbandon H cfg job staged prepare (reconcileStaged H cfg job staged mode))

/-- `_reconcile_one_job`. -/
def reconcileOneJob (job : JobInfo) : Work Unit := do
  let staging := stagingTableName job.jobId
  let there ← stagingTableExists job.jobId
  if !there then reconcileGone cfg job
  else
    let staged ← tryCatch
      (do
        let n ← Prog.read (.recover .reconcile job) fun s => rowCount s.catalog staging
        pure (some n))
      fun _ => pure none
    match staged with
    | none => pure ()
    | some staged =>
      let complete ← query fun k => k.partitionSwapAlreadyComplete job.collectionId staging
      if complete then
        completeSwappedJob cfg job (orElseNat staged job.itemsCreated)
          "staging partition already attached".toList
      else if staged = 0 then reconcileEmpty cfg job
      else reconcilePending H cfg job staged

/-- The pass over some jobs. -/
def reconcileCandidates (jobs : List JobInfo) : Work Unit :=
  Prog.forEach (fun job => do
      let candidate ← isReconcileCandidate cfg job
      if candidate then reconcileOneJob H cfg job)
    jobs

/-- `cleanup_detached_orphan_feature_partitions_sync`. -/
def cleanupDetachedOrphans (k : Catalog) : Catalog :=
  k.partitionList.foldl (fun k row =>
    match row.2 with
    | .values [x] =>
      if x.isEmpty || row.1.isEmpty then k
      else if safePartitionName H x = row.1 then k
      else if !k.tableExists (safePartitionName H x) then k
      else if k.partitionIsAttached (safePartitionName H x) then k
      else k.drop (safePartitionName H x)
    | _ => k) k

/-- `_reconcile_jobs_by_staging_table`: the jobs whose staging table is attached. -/
def reconcileJobsByStagingTable : Work Unit := do
  let jobs ← listAllJobs 5000
  let attached ← query attachedFeaturePartitions
  reconcileCandidates H cfg (attached.filterMap fun relname =>
    if Sql.startsWith stagingTablePrefix relname then
      ((jobs.filter fun job => stagingTableName job.jobId == relname).getLast?).filter
        fun job => job.status != .completed
    else none)

/-- `reconcile_all_stuck_finalize_jobs`, which is `run_finalize_watchdog_pass`. -/
def reconcileAllStuckFinalizeJobs (limit : Nat) : Work Unit := do
  execute .db fun k => .ok (cleanupDetachedOrphans H k)
  let jobs ← listAllJobs limit
  reconcileCandidates H cfg jobs
  reconcileJobsByStagingTable H cfg

end

end Bulk
end Geofastmap
