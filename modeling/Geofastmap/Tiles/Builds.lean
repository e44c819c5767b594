import Mathlib.Logic.Function.Basic
import Geofastmap.Bulk.State

/-!
# Geofastmap.Tiles.Builds

Static tile builds (`tile_build_queue.py`, `tile_worker_main.py`) and the routes that submit and
cancel them. A build has a job record, an entry in the queue, and the lease of its collection
(`pending`), which is set when the build is queued, renewed while it runs and deleted at its end.

* `enqueueTileBuild` : the lease is read, set, and the build is pushed, in three commands.
* `tileWorker` : one turn of the worker loop, from `BRPOP` to the end of the build.
* `requestTileBuild`, `cancelJobRecord`, `cancelTileBuild`, `recoverOrphanedTileBuilds` : they may
  delete the lease.

The steps `beginBuild`, `endBuild` and `leave` are history: a worker is inside the build, and a
call is over. The deletion of a lease by a worker is `release`, any other one is `clear`.
-/

namespace Geofastmap
namespace Tiles

open Db Bulk Interleave

structure BuildJob where
  collectionId : CollectionId
  status : Status
  updatedAt : Nat
deriving DecidableEq

structure BuildState where
  jobs : JobId → Option BuildJob
  /-- The jobs that `list_all_jobs` returns. -/
  listed : List JobId
  latest : CollectionId → Option JobId
  /-- The lease of a collection. -/
  pending : CollectionId → Option JobId
  /-- The queue; a worker takes its last entry. -/
  queue : List (CollectionId × JobId)
  bulkActive : CollectionId → Bool
  /-- Seconds. -/
  now : Nat

inductive Label where
  /-- A command on a job record, a read of a lease, a query, the clock. -/
  | other
  | brpop
  /-- The three commands of `enqueue_tile_build`. -/
  | enqueueGet (c : CollectionId) (j : JobId)
  | enqueueSet (c : CollectionId) (j : JobId)
  | lpush (c : CollectionId) (j : JobId)
  /-- The `SET` of `refresh_pending`. -/
  | refreshSet (c : CollectionId) (j : JobId)
  | release (c : CollectionId) (j : JobId)
  | clear (c : CollectionId)
  | expire (c : CollectionId)
  | beginBuild (c : CollectionId) (j : JobId)
  | endBuild (c : CollectionId) (j : JobId)
  | leave
deriving DecidableEq

inductive Exn where
  | http (status : Nat)
  | io
deriving DecidableEq

abbrev Work := Prog Label BuildState Exn

structure TileSettings where
  redisRetryEnqueueMaxAttempts : Nat
  redisRetryReadMaxAttempts : Nat

def BuildState.lease (c : CollectionId) (j : Option JobId) (s : BuildState) : BuildState :=
  { s with pending := Function.update s.pending c j }

section
variable (cfg : TileSettings)

def retryWrite {α : Type} (p : Work α) : Work α :=
  Prog.retry ((if cfg.redisRetryEnqueueMaxAttempts = 0 then 5
    else cfg.redisRetryEnqueueMaxAttempts) - 1) p

def retryRead {α : Type} (p : Work α) : Work α :=
  Prog.retry ((if cfg.redisRetryReadMaxAttempts = 0 then 15
    else cfg.redisRetryReadMaxAttempts) - 1) p

/-! ## The queue module -/

def getTileBuildJob (j : JobId) : Work (Option BuildJob) :=
  retryRead cfg (Prog.read .other fun s => s.jobs j)

/-- `create_job` and the key of the latest job. -/
def createTileBuildJob (c : CollectionId) (j : JobId) : Work Unit := do
  retryWrite cfg (Prog.write .other fun s => { s with
    jobs := Function.update s.jobs j (some ⟨c, .pending, s.now⟩)
    listed := j :: s.listed })
  Prog.write .other fun s => { s with latest := Function.update s.latest c (some j) }

/-- The id in the key of the latest job, with its record. -/
def getLatestTileBuildJob (c : CollectionId) : Work (Option (JobId × BuildJob)) := do
  let latest ← Prog.read .other fun s => s.latest c
  match latest with
  | none => return none
  | some j =>
    let job ← getTileBuildJob cfg j
    return job.map fun job => (j, job)

def updateTileBuildJob (j : JobId) (status : Option Status) : Work Unit := do
  let found ← retryWrite cfg (Prog.read .other fun s => (s.jobs j).isSome)
  if found then
    retryWrite cfg (Prog.write .other fun s => { s with
      jobs := Function.update s.jobs j ((s.jobs j).map fun job =>
        { job with status := status.getD job.status, updatedAt := s.now }) })
  else pure ()

def getPendingJobId (c : CollectionId) : Work (Option JobId) :=
  Prog.read .other fun s => s.pending c

/-- The lease is extended if it is still the job's. -/
def refreshPending (c : CollectionId) (j : JobId) : Work Bool := do
  let current ← getPendingJobId c
  if current ≠ some j then return false
  else
    Prog.write (.refreshSet c j) (BuildState.lease c (some j))
    return true

/-- `DEL` of the lease, whoever holds it. -/
def clearPending (l : Label) (c : CollectionId) : Work Unit :=
  Prog.write l (BuildState.lease c none)

def enqueueTileBuild (c : CollectionId) (j : JobId) : Work Bool := do
  let current ← Prog.read (.enqueueGet c j) fun s => s.pending c
  if current.isSome then return false
  else
    Prog.write (.enqueueSet c j) (BuildState.lease c (some j))
    Prog.write (.lpush c j) fun s => { s with queue := (c, j) :: s.queue }
    return true

/-! ## The worker -/

def stopCheck (j : JobId) : Work Bool := do
  let job ← getTileBuildJob cfg j
  return job.any (·.status = .cancelled)

/-- `wait_until_collection_bulk_idle`, for a bounded number of polls; each entry says whether a
message is due. -/
def waitUntilCollectionBulkIdle (c : CollectionId) (j : JobId) : List Bool → Work Bool
  | [] => return true
  | due :: polls => do
    let active ← Prog.read .other fun s => s.bulkActive c
    if active = false then return true
    else
      let stop ← stopCheck cfg j
      if stop then return false
      else
        if due then updateTileBuildJob cfg j none else pure ()
        waitUntilCollectionBulkIdle c j polls

inductive BuildResult where
  | done | failed | cancelled
deriving DecidableEq

/-- What a worker meets in one turn: the polls of the wait, whether the collection is a composite
without members, how often the build asks whether it should stop, and whether it succeeds. -/
structure BuildPlan where
  waits : List Bool
  memberless : Bool
  checks : Nat
  succeeds : Bool

/-- The checks of a build for a cancelled job. -/
def pollStop (j : JobId) : Nat → Work Bool
  | 0 => return false
  | n + 1 => do
    let stop ← stopCheck cfg j
    if stop then return true else pollStop j n

/-- `build_pmtiles_sync` and `build_composite_pmtiles_sync`. -/
def buildPmtiles (plan : BuildPlan) (c : CollectionId) (j : JobId) : Work BuildResult := do
  Prog.write (.beginBuild c j) id
  Prog.tryFinally
    (do
      let stopped ← pollStop cfg j plan.checks
      return if stopped then .cancelled else if plan.succeeds then .done else .failed)
    (Prog.write (.endBuild c j) id)

/-- The body of the worker's `try`; no result stands for `continue`. -/
def runBuild (plan : BuildPlan) (c : CollectionId) (j : JobId) : Work (Option BuildResult) := do
  let idle ← waitUntilCollectionBulkIdle cfg c j plan.waits
  if idle = false then
    clearPending (.release c j) c
    return none
  else
    Prog.read .other fun _ => ()
    if plan.memberless then return some .failed
    else
      updateTileBuildJob cfg j none
      let result ← buildPmtiles cfg plan c j
      return some result

/-- The worker after `clear_pending`. -/
def reportBuild (j : JobId) (result : BuildResult) : Work Unit := do
  if result = .cancelled then updateTileBuildJob cfg j (some .cancelled)
  else
    let cancelled ← stopCheck cfg j
    if cancelled then pure ()
    else updateTileBuildJob cfg j (some (if result = .done then .completed else .failed))

def processTileBuild (plan : BuildPlan) (c : CollectionId) (j : JobId) : Work Unit := do
  let cancelled ← stopCheck cfg j
  if cancelled then clearPending (.release c j) c
  else
    updateTileBuildJob cfg j (some .running)
    let _ ← refreshPending c j
    let result ← tryCatch (runBuild cfg plan c j) fun _ => do
      clearPending (.release c j) c
      updateTileBuildJob cfg j (some .failed)
      return none
    match result with
    | none => pure ()
    | some result =>
      clearPending (.release c j) c
      reportBuild cfg j result

def tileWorker (plan : BuildPlan) : Work Unit := do
  let entry ← Prog.atomic .brpop fun s =>
    .ok (s.queue.getLast?, { s with queue := s.queue.dropLast })
  match entry with
  | none => pure ()
  | some (c, j) => processTileBuild cfg plan c j

/-- One beat of the thread beside a build. -/
def heartbeat (c : CollectionId) (j : JobId) : Work Unit := do
  let held ← refreshPending c j
  if held then
    let job ← getTileBuildJob cfg j
    if job.any (·.status = .running) then updateTileBuildJob cfg j none else pure ()
  else pure ()

def staleRunningTileBuildSeconds : Nat := 6 * 60 * 60

def recoverOrphan (entry : JobId × BuildJob) : Work Unit := do
  let (j, job) := entry
  if job.status ≠ .running then pure ()
  else
    let latest ← getLatestTileBuildJob cfg job.collectionId
    if latest.map Prod.fst ≠ some j then pure ()
    else
      let pending ← getPendingJobId job.collectionId
      if pending = some j then pure ()
      else
        let now ← Prog.read .other BuildState.now
        if now - job.updatedAt < staleRunningTileBuildSeconds then pure ()
        else
          updateTileBuildJob cfg j (some .failed)
          clearPending (.clear job.collectionId) job.collectionId

/-- `_recover_orphaned_tile_builds`, when a worker starts. -/
def recoverOrphanedTileBuilds : Work Unit := do
  let jobs ← Prog.read .other fun s => s.listed.filterMap fun j => (s.jobs j).map fun job => (j, job)
  Prog.forEach (recoverOrphan cfg) jobs

/-! ## Routes -/

/-- A request for a build: what the checks before it raise, and whether the tiles are out of date. -/
structure BuildRequest where
  refused : Option Exn
  needBuild : Bool
  memberless : Bool

/-- The end of a submission; also that of a bulk import or a process that asks for tiles. -/
def submitTileBuild (c : CollectionId) (j : JobId) : Work Unit := do
  createTileBuildJob cfg c j
  updateTileBuildJob cfg j none
  let enqueued ← enqueueTileBuild c j
  if enqueued then pure () else
    let _ ← getPendingJobId c
    pure ()

def startTileBuild (req : BuildRequest) (c : CollectionId) (j : JobId) : Work Unit :=
  if req.memberless then throw (.http 400)
  else if req.needBuild then submitTileBuild cfg c j
  else pure ()

/-- A job that is queued or running and was touched in the last 30 minutes. -/
def BuildJob.recent (now : Nat) (job : BuildJob) : Bool :=
  (job.status = .pending ∨ job.status = .running) ∧ now - job.updatedAt ≤ 30 * 60

/-- `build_tiles`; `j` is the id of the new job. -/
def requestTileBuild (req : BuildRequest) (c : CollectionId) (j : JobId) : Work Unit :=
  match req.refused with
  | some e => throw e
  | none => do
    let pending ← getPendingJobId c
    match pending with
    | none => startTileBuild cfg req c j
    | some other =>
      let latest ← getLatestTileBuildJob cfg c
      let now ← Prog.read .other BuildState.now
      if latest.any fun job => job.2.recent now then updateTileBuildJob cfg other none
      else
        clearPending (.clear c) c
        startTileBuild cfg req c j

def BuildJob.open (job : BuildJob) : Bool := job.status = .pending ∨ job.status = .running

/-- `cancel_job_record` for a tile build. -/
def cancelJobRecord (j : JobId) : Work Unit := do
  let job ← getTileBuildJob cfg j
  match job with
  | none => pure ()
  | some job =>
    let latest ← tryCatch (getLatestTileBuildJob cfg job.collectionId) fun _ => return none
    if latest.map Prod.fst = some j ∧ job.open = true then
      clearPending (.clear job.collectionId) job.collectionId
      updateTileBuildJob cfg j (some .cancelled)
    else pure ()

/-- `cancel_tile_build`. -/
def cancelTileBuild (c : CollectionId) : Work Unit := do
  let latest ← getLatestTileBuildJob cfg c
  clearPending (.clear c) c
  match latest with
  | none => pure ()
  | some (j, job) =>
    if job.open = true then updateTileBuildJob cfg j (some .cancelled) else pure ()

end

end Tiles
end Geofastmap
