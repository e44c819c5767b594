import Geofastmap.Bulk.Reconcile

/-!
# Geofastmap.Bulk.Watchdog

`bulk_watchdog.py`: the passes that give mutexes back, fail or recover jobs without progress, drop
staging tables of no active job, and queue finalize work again.
-/

namespace Geofastmap
namespace Bulk

open Db Interleave

/-- `cleanup_orphan_staging_tables_sync`: every table whose name is `LIKE 'bulk_staging_%'`, but
the staging tables of the given jobs, is dropped. -/
def listOrphanStagingTables (k : Catalog) : List RelName :=
  (k.tables.map Table.name).filter (Sql.like (stagingTablePrefix ++ ['%']))

def cleanupOrphanStagingTables (activeJobIds : List JobId) : Work Unit := do
  let names ← query listOrphanStagingTables
  Prog.forEach (fun relname =>
      if activeJobIds.any fun j => stagingTableName j == relname then pure ()
      else execute .db fun k => .ok (k.drop relname))
    names

section
variable (H : Digest) (cfg : Settings)

def staleAge : Nat := max 60000000 (orElseNat cfg.bulkJobStale 14400000000)

def finalizeStaleAge : Nat := max 300000000 (orElseNat cfg.bulkFinalizeStale 86400000000)

def pendingStaleAge : Nat := max 120000000 (orElseNat cfg.bulkJobPendingStale 600000000)

/-- `_should_fail_stale_running`. -/
def shouldFailStaleRunning : Bool :=
  match cfg.bulkWatchdogFailStaleRunning with
  | some explicit => explicit
  | none => !cfg.bulkFinalizeQueueEnabled

/-- `_job_last_progress`. -/
def jobLastProgress (job : JobInfo) : Nat := job.lastProgressAt.getD job.updatedAt

/-- `_should_attempt_running_staging_recovery`. -/
def shouldAttemptRunningStagingRecovery (job : JobInfo) : Work Bool := do
  let now ← redisRead Sys.now
  let age := now - jobLastProgress job
  if age < runningRecoverAge cfg 300000000 then return false
  else
    let held ← holdsCollectionBulkMutex cfg job.collectionId job.jobId
    return !(held && decide (age < staleAge cfg))

/-- `_recover_running_job_to_finalize`. -/
def recoverRunningJobToFinalize (job : JobInfo) : Work Bool := do
  if !cfg.bulkQueueRedis || !cfg.bulkFinalizeQueueEnabled then return false
  else
    let staged ← tryCatch
      (Prog.read (.recover .watchdog job) fun s =>
        rowCount s.catalog (stagingTableName job.jobId))
      fun _ => pure 0
    if staged = 0 then return false
    else
      let mode : Mode := if readsReplace job then .replace else .append
      let pending ← isFinalizePending cfg job.jobId
      if pending then
        updateJob cfg job.jobId
          { status := some .finalizing
            message := some ("Loaded ".toList ++ Sql.commaDigits staged ++
              " features into staging; partition swap queued…".toList)
            itemsCreated := some staged }
        return true
      else
        let queued ← enqueueFinalize cfg
          { jobId := job.jobId, collectionId := job.collectionId, mode := mode,
            itemsCreated := staged, itemsFailed := job.itemsFailed, ownerId := job.ownerId,
            queueComputeTiles := false, attempt := 0 } false
        if !queued then return false
        else
          updateJob cfg job.jobId
            { status := some .finalizing
              message := some ("Recovered: ".toList ++ Sql.commaDigits staged ++
                " features in staging; partition swap queued (watchdog).".toList)
              itemsCreated := some staged }
          releaseCollectionBulkMutex cfg job.collectionId job.jobId
          return true

/-- `_should_attempt_running_staging_recovery(job) and _recover_running_job_to_finalize(job)`. -/
def tryRecoverRunningJob (job : JobInfo) : Work Bool := do
  let attempt ← shouldAttemptRunningStagingRecovery cfg job
  if attempt then recoverRunningJobToFinalize cfg job else pure false

/-- One mutex of `fail_stale_pending_mutex_holders`. -/
def failStalePendingHolder (c : CollectionId) : Work Unit := do
  let holder ← getCollectionBulkMutexHolder cfg c
  match holder with
  | none => pure ()
  | some holder =>
    let job ← getJob cfg holder
    match job with
    | none => pure ()
    | some job =>
      if job.status ≠ .pending then pure ()
      else
        let now ← redisRead Sys.now
        let age := now - job.updatedAt
        if age < pendingStaleAge cfg then pure ()
        else
          releaseCollectionBulkMutex cfg c holder
          tryCatch
            (updateJob cfg holder
              { status := some .failed
                message := some ("Bulk import interrupted before start (pending ".toList ++
                  Sql.digits (age / 1000000) ++
                  "s with collection lock); re-submit the upload.".toList) })
            fun _ => pure ()

/-- The collections of all mutex keys, nothing when the scan raises. -/
def scanMutexKeys : Work (List CollectionId) :=
  tryCatch (runRedisRetry cfg.enqueueAttempts (redisRead fun s => s.mutex.map Prod.fst))
    fun _ => pure []

def failStalePendingMutexHolders : Work Unit := do
  if !cfg.bulkQueueRedis then return ()
  else
    let keys ← scanMutexKeys cfg
    Prog.forEach (fun c => if c.isEmpty then pure () else failStalePendingHolder cfg c) keys

/-- A job of `fail_stale_running_jobs` that is recovered, or failed with its staging dropped. -/
def failStaleRunningJob (now : Nat) (job : JobInfo) : Work Unit := do
  if job.status ≠ .running ∧ job.status ≠ .replacing then return ()
  else
    let age := now - jobLastProgress job
    if age < staleAge cfg then return ()
    else
      let recovered ← tryRecoverRunningJob cfg job
      if recovered then return ()
      else
        let written ← tryCatch
          (do
            updateJob cfg job.jobId
              { status := some .failed
                message := some ("Bulk import stalled (no progress for ".toList ++
                  Sql.digits (age / 1000000) ++ "s); job marked failed by watchdog.".toList) }
            pure true)
          fun _ => pure false
        if !written then return ()
        else
          releaseCollectionBulkMutex cfg job.collectionId job.jobId
          tryCatch (dropStagingTable job.jobId) fun _ => pure ()

/-- The ids that `fail_stale_running_jobs` passes on as active. -/
def activeIds (jobs : List JobInfo) : List JobId :=
  (jobs.filter fun job => job.status == .pending || job.status == .running ||
    job.status == .replacing || job.status == .finalizing).map JobInfo.jobId

/-- `fail_stale_running_jobs`. -/
def failStaleRunningJobs : Work Unit := do
  if !cfg.bulkQueueRedis then return ()
  else if !shouldFailStaleRunning cfg then return ()
  else
    let now ← redisRead Sys.now
    let jobs ← listAllJobs 500
    Prog.forEach (failStaleRunningJob cfg now) jobs
    tryCatch (cleanupOrphanStagingTables (activeIds jobs)) fun _ => pure ()

/-- `recover_stale_running_jobs_with_staging`. -/
def recoverStaleRunningJobsWithStaging : Work Unit := do
  if !cfg.bulkQueueRedis || !cfg.bulkFinalizeQueueEnabled then return ()
  else
    let jobs ← listAllJobs 500
    Prog.forEach (fun job => do
        if job.status ≠ .running ∧ job.status ≠ .replacing then return ()
        else
          let _ ← tryRecoverRunningJob cfg job)
      jobs

/-- `fail_stale_finalizing_jobs`. -/
def failStaleFinalizingJobs : Work Unit := do
  if !cfg.bulkQueueRedis then return ()
  else
    let now ← redisRead Sys.now
    let jobs ← listAllJobs 500
    Prog.forEach (fun job => do
        if job.status ≠ .finalizing then return ()
        else
          let age := now - jobLastProgress job
          if age < finalizeStaleAge cfg then return ()
          else
            tryCatch
              (updateJob cfg job.jobId
                { status := some .failed
                  message := some ("Partition swap stalled (no progress for ".toList ++
                    Sql.digits (age / 1000000) ++ ("s). Staging data kept; re-run " ++
                      "bulk_recover_staging or re-upload.").toList) })
              fun _ => pure ())
      jobs

/-- `reclaim_stale_collection_bulk_mutex`. -/
def reclaimStaleCollectionBulkMutex (c : CollectionId) : Work Unit := do
  let holder ← getCollectionBulkMutexHolder cfg c
  match holder with
  | none => pure ()
  | some holder =>
    let job ← getJob cfg holder
    let now ← redisRead Sys.now
    let stale : Bool := match job with
      | none => true
      | some job => job.status.terminal || job.finishedAt.isSome ||
          (job.status == .pending && decide (pendingStaleAge cfg ≤ now - job.updatedAt))
    if stale then releaseCollectionBulkMutex cfg c holder

/-- `run_bulk_watchdog_pass`. -/
def runBulkWatchdogPass (failStaleRunning : Option Bool) : Work Unit := do
  if !cfg.bulkQueueRedis then return ()
  else
    let keys ← scanMutexKeys cfg
    Prog.forEach (fun c => do
        let holder ← getCollectionBulkMutexHolder cfg c
        match holder with
        | none => pure ()
        | some holder =>
          let job ← getJob cfg holder
          let ended : Bool := match job with
            | none => true
            | some job => job.status.terminal || job.finishedAt.isSome
          if ended then reclaimStaleCollectionBulkMutex cfg c)
      keys
    failStalePendingMutexHolders cfg
    recoverStaleRunningJobsWithStaging cfg
    if failStaleRunning.getD (shouldFailStaleRunning cfg) then failStaleRunningJobs cfg

/-- A job of `reconcile_orphan_finalize_jobs`. -/
def reconcileOrphanFinalizeJob (job : JobInfo) : Work Unit := do
  if !(job.status == .finalizing || job.status == .failed || job.status == .running ||
      job.status == .replacing) then return ()
  else
    let pending ← isFinalizePending cfg job.jobId
    if pending then return ()
    else
      let staged ← tryCatch
        (Prog.read (.recover .orphan job) fun s =>
          rowCount s.catalog (stagingTableName job.jobId))
        fun _ => pure 0
      if staged = 0 then return ()
      else
        let state ← getFinalizeStateAt cfg .orphanStored job
        let msg := Sql.lower job.message
        if job.status = .failed ∧ state.isNone ∧ !(["deadlock", "partition swap", "staging",
            "watchdog"].any fun k => Sql.contains k.toList msg) then return ()
        else
          let mode : Mode := (state.bind FinalizeState.mode).getD
            (if readsReplace job then .replace else .append)
          let queued ← enqueueFinalize cfg
            { jobId := job.jobId
              collectionId := (state.bind FinalizeState.collectionId).getD job.collectionId
              mode := mode
              itemsCreated := (state.bind FinalizeState.itemsCreated).getD
                (orElseNat job.itemsCreated staged)
              itemsFailed := (state.bind FinalizeState.itemsFailed).getD job.itemsFailed
              ownerId := (state.bind FinalizeState.ownerId) <|> job.ownerId
              queueComputeTiles := (state.bind FinalizeState.queueComputeTiles).getD false
              attempt := 0 } true
          if queued then
            updateJob cfg job.jobId
              { status := some .finalizing
                message := some ("Re-queued partition swap for ".toList ++
                  Sql.commaDigits staged ++ " staged features (self-heal).".toList)
                itemsCreated := some (orElseNat job.itemsCreated staged) }

/-- `reconcile_orphan_finalize_jobs`. -/
def reconcileOrphanFinalizeJobs : Work Unit := do
  if !cfg.bulkQueueRedis || !cfg.bulkFinalizeQueueEnabled then return ()
  else
    let jobs ← listAllJobs 500
    Prog.forEach (reconcileOrphanFinalizeJob cfg) jobs

end

end Bulk
end Geofastmap
