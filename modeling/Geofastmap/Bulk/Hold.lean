import Geofastmap.Bulk.Steps
import Geofastmap.Bulk.Worker
import Geofastmap.Interleave.Typestate

/-!
# Geofastmap.Bulk.Hold

Where the bulk services stand with the mutex of a collection. A program is idle, imports for a job
(from a successful `try_acquire_collection_bulk_mutex` to the end of its import), or is about to
delete a lock that it read as its job's (`releasing`). These are own states of the programs:
`holdState` says how the commands move them.

The worker takes a mutex only when idle and is idle again at its end (`typed_processBulkJob`); the
watchdog, the reclaim passes, the cancel route and the job updates start and end idle.
-/

namespace Geofastmap
namespace Bulk

open Db Interleave

inductive Hold where
  | idle
  | importing (c : CollectionId) (j : JobId)
  | releasing (c : CollectionId) (j : JobId)
deriving DecidableEq

/-- The lock an own state stands for. -/
def Hold.lock : Hold → Option (CollectionId × JobId)
  | .idle => none
  | .importing c j => some (c, j)
  | .releasing c j => some (c, j)

/-- The command is not one on a mutex, and leaves all of them. -/
def LeavesMutex (l : Label) (g : Sys → Sys) : Prop :=
  (∀ op c j, l ≠ .mutex op c j) ∧ ∀ s, (g s).mutex = s.mutex

def holdState : Typestate Label Sys Hold where
  after l s φ :=
    match l with
    | .mutex .take c j => if (s.holder c).isNone then .importing c j else φ
    | .mutex .own c j => if s.holder c = some j then .importing c j else φ
    | .mutex .get c j => if s.holder c = some j then .releasing c j else .idle
    | .mutex .finish _ _ => .idle
    | .mutex .del _ _ => .idle
    | _ => φ
  failed l φ :=
    match l with
    | .mutex .expire _ _ => φ
    | .mutex _ _ _ => .idle
    | _ => φ
  allows φ l g :=
    match l with
    | .mutex .take c j => φ = .idle ∧ ∀ s, g s = s.takeMutex c j
    | .mutex .own _ _ => φ = .idle ∧ ∀ s, g s = s
    | .mutex .get _ _ => φ = .idle ∧ ∀ s, g s = s
    | .mutex .finish _ _ => ∀ s, g s = s
    | .mutex .del c j => φ = .releasing c j ∧ ∀ s, g s = s.freeMutex c
    | .mutex .expire c _ => ∀ s, g s = s.freeMutex c
    | _ => ∀ s, (g s).mutex = s.mutex
  raises l := l.ghost = false

/-! ## The programs -/

section
variable {α : Type} {φ : Hold} {cfg : Settings} {c : CollectionId} {j : JobId}

theorem restores_of_leaves {p : Work α} (h : p.Within LeavesMutex) : Restores holdState φ p := by
  refine Prog.Within.restores h fun l g hl => ?_
  obtain ⟨hno, hg⟩ := hl
  cases l with
  | mutex op c j => exact absurd rfl (hno op c j)
  | _ => exact ⟨hg, fun _ => rfl, rfl⟩

theorem leaves_of_quiet {l : Label} {g : Sys → Sys} (h : Quiet l g) : LeavesMutex l g := by
  refine ⟨?_, fun s => (h.2 s).mutex⟩
  rintro op c j rfl
  exact absurd h.1 (by simp [Label.plain])

theorem restores_quietly {p : Work α} (h : Quietly p) : Restores holdState φ p :=
  restores_of_leaves (h.mono fun _ _ => leaves_of_quiet)

theorem leaves_onDb {l : Label} (hl : ∀ op c j, l ≠ .mutex op c j)
    (f : Catalog → Except DbError Catalog) : LeavesMutex l (Sys.onDb f) := by
  refine ⟨hl, fun s => ?_⟩
  unfold Sys.onDb
  split <;> rfl

theorem restores_execute {l : Label} (hl : ∀ op c j, l ≠ .mutex op c j)
    (f : Catalog → Except DbError Catalog) : Restores holdState φ (execute l f) :=
  restores_of_leaves (within_execute (leaves_onDb hl _))

theorem restores_read {l : Label} (hl : ∀ op c j, l ≠ .mutex op c j) (f : Sys → α) :
    Restores holdState φ (Prog.read l f : Work α) :=
  restores_of_leaves (Prog.Within.read f ⟨hl, fun _ => rfl⟩)

theorem restores_write {l : Label} (hl : ∀ op c j, l ≠ .mutex op c j) {g : Sys → Sys}
    (hg : ∀ s, (g s).mutex = s.mutex) : Restores holdState φ (Prog.write l g : Work Unit) :=
  restores_of_leaves (Prog.Within.write ⟨hl, hg⟩)

/-- `GET` and `DEL`: the own state says in between whose lock will be deleted. -/
theorem restores_release : Restores holdState .idle (releaseCollectionBulkMutex cfg c j) := by
  unfold releaseCollectionBulkMutex
  split
  · exact Restores.pure ()
  · refine Restores.retry ?_ _
    unfold Restores
    rw [Prog.typed_bind]
    refine Prog.Typed.read ⟨rfl, fun _ => rfl⟩ (fun s => ?_) fun e => rfl
    by_cases h : s.holder c = some j
    · simp only [holdState, h, if_true]
      exact Prog.Typed.write ⟨rfl, fun _ => rfl⟩ (fun _ => rfl) fun _ => rfl
    · simp only [holdState, h, if_false]
      exact Restores.pure ()

theorem restores_setStatus (u : JobUpdate) : Restores holdState φ
    (runRedisRetry cfg.enqueueAttempts
      (Prog.write (.setStatus j u.status) fun s => s.updateJob j u)) := by
  refine Restores.retry ?_ _
  exact restores_write (by simp) fun _ => rfl

theorem restores_updateJob (u : JobUpdate) : Restores holdState .idle (updateJob cfg j u) := by
  refine Restores.bind (Restores.retry (restores_quietly (quietly_redisRead _)) _) fun job => ?_
  cases job with
  | none => exact Restores.pure ()
  | some job =>
    refine Restores.bind (restores_setStatus u) fun _ => ?_
    split
    · split
      · exact Restores.tryCatch restores_release fun _ => Restores.pure ()
      · exact Restores.pure ()
    · exact Restores.pure ()

/-- An update to a status that is not terminal leaves the mutexes alone. -/
theorem restores_openUpdate {u : JobUpdate} (hu : ∀ st ∈ u.status, st.terminal = false) :
    Restores holdState φ (updateJob cfg j u) := by
  refine Restores.bind (Restores.retry (restores_quietly (quietly_redisRead _)) _) fun job => ?_
  cases job with
  | none => exact Restores.pure ()
  | some job =>
    refine Restores.bind (restores_setStatus u) fun _ => ?_
    split
    · rename_i st hst
      simp only [hu st hst, Bool.false_eq_true, if_false]
      exact Restores.pure ()
    · exact Restores.pure ()

/-! ### Watchdog, reclaim and cancel -/

theorem restores_ite {p : Prop} [Decidable p] {a b : Work α} (ha : Restores holdState φ a)
    (hb : Restores holdState φ b) : Restores holdState φ (if p then a else b) := by
  split
  · exact ha
  · exact hb

theorem restores_reclaim : Restores holdState .idle (reclaimStaleCollectionBulkMutex cfg c) := by
  refine Restores.bind (restores_quietly quietly_getHolder) fun holder => ?_
  cases holder with
  | none => exact Restores.pure ()
  | some holder =>
    refine Restores.bind (restores_quietly quietly_getJob) fun job => ?_
    refine Restores.bind (restores_quietly (quietly_redisRead _)) fun now => ?_
    exact restores_ite restores_release (Restores.pure ())

theorem restores_scanMutexKeys : Restores holdState φ (scanMutexKeys cfg) :=
  Restores.tryCatch (Restores.retry (restores_quietly (quietly_redisRead _)) _)
    fun _ => Restores.pure _

theorem restores_reclaimAll : Restores holdState .idle (reclaimAllStaleBulkMutexes cfg) := by
  refine restores_ite (Restores.pure ()) ?_
  refine Restores.bind restores_scanMutexKeys fun keys => Restores.forEach fun c _ => ?_
  exact restores_ite (Restores.pure ()) restores_reclaim

theorem restores_markBody (payload : BulkFinalizePayload) :
    Restores holdState φ (markBody payload) := by
  refine Restores.bind (restores_write (by simp) fun _ => rfl) fun _ => ?_
  refine Restores.bind (restores_write (by simp) fun _ => rfl) fun _ => ?_
  exact restores_write (by simp) fun _ => rfl

theorem restores_enqueueFinalize (payload : BulkFinalizePayload) (force : Bool) :
    Restores holdState φ (enqueueFinalize cfg payload force) := by
  unfold enqueueFinalize
  refine restores_ite (Restores.pure _) (Restores.retry ?_ _)
  have hpush : Restores holdState φ (do
      markFinalizePending cfg payload
      Prog.write (.pushFinalize payload.jobId) fun s =>
        { s with finalizeQueue := payload :: s.finalizeQueue }
      return true : Work Bool) := by
    refine Restores.bind ?_ fun _ => Restores.bind (restores_write (by simp) fun _ => rfl)
      fun _ => Restores.pure _
    exact restores_ite (Restores.pure ()) (Restores.retry (restores_markBody payload) _)
  have hrest : ∀ pending : Bool, Restores holdState φ (if pending = true then pure true else do
      markFinalizePending cfg payload
      Prog.write (.pushFinalize payload.jobId) fun s =>
        { s with finalizeQueue := payload :: s.finalizeQueue }
      return true : Work Bool) :=
    fun pending => restores_ite (Restores.pure _) hpush
  split
  · exact hrest false
  · exact Restores.bind (restores_quietly (quietly_redisRead _)) hrest

theorem restores_recoverRunning (job : JobInfo) :
    Restores holdState .idle (recoverRunningJobToFinalize cfg job) := by
  unfold recoverRunningJobToFinalize
  refine restores_ite (Restores.pure _) ?_
  refine Restores.bind (Restores.tryCatch (restores_read (by simp) _) fun _ => Restores.pure _)
    fun staged => ?_
  refine restores_ite (Restores.pure _) ?_
  refine Restores.bind (restores_quietly quietly_isFinalizePending) fun pending => ?_
  refine restores_ite ?_ ?_
  · exact Restores.bind (restores_updateJob _) fun _ => Restores.pure _
  · refine Restores.bind (restores_enqueueFinalize _ _) fun queued => ?_
    refine restores_ite (Restores.pure _) ?_
    refine Restores.bind (restores_updateJob _) fun _ => ?_
    exact Restores.bind restores_release fun _ => Restores.pure _

theorem restores_tryRecover (job : JobInfo) :
    Restores holdState .idle (tryRecoverRunningJob cfg job) := by
  refine Restores.bind (restores_quietly (quietly_shouldAttemptRecovery job)) fun attempt => ?_
  exact restores_ite (restores_recoverRunning job) (Restores.pure _)

theorem restores_failStalePendingHolder :
    Restores holdState .idle (failStalePendingHolder cfg c) := by
  refine Restores.bind (restores_quietly quietly_getHolder) fun holder => ?_
  cases holder with
  | none => exact Restores.pure ()
  | some holder =>
    refine Restores.bind (restores_quietly quietly_getJob) fun job => ?_
    cases job with
    | none => exact Restores.pure ()
    | some job =>
      refine restores_ite (Restores.pure ()) ?_
      refine Restores.bind (restores_quietly (quietly_redisRead _)) fun now => ?_
      refine restores_ite (Restores.pure ()) ?_
      refine Restores.bind restores_release fun _ => ?_
      exact Restores.tryCatch (restores_updateJob _) fun _ => Restores.pure ()

theorem restores_dropStaging : Restores holdState φ (dropStagingTable j) :=
  restores_execute (by simp) _

theorem restores_failStaleRunning (now : Nat) (job : JobInfo) :
    Restores holdState .idle (failStaleRunningJob cfg now job) := by
  refine restores_ite (Restores.pure ()) ?_
  refine restores_ite (Restores.pure ()) ?_
  refine Restores.bind (restores_tryRecover job) fun recovered => ?_
  refine restores_ite (Restores.pure ()) ?_
  refine Restores.bind (Restores.tryCatch ?_ fun _ => Restores.pure _) fun written => ?_
  · exact Restores.bind (restores_updateJob _) fun _ => Restores.pure _
  · refine restores_ite (Restores.pure ()) ?_
    refine Restores.bind restores_release fun _ => ?_
    exact Restores.tryCatch restores_dropStaging fun _ => Restores.pure ()

theorem restores_cleanupOrphans (ids : List JobId) :
    Restores holdState φ (cleanupOrphanStagingTables ids) := by
  refine Restores.bind (restores_quietly (quietly_query _)) fun names => ?_
  refine Restores.forEach fun n _ => ?_
  exact restores_ite (Restores.pure ()) (restores_execute (by simp) _)

theorem restores_watchdog (fail : Option Bool) :
    Restores holdState .idle (runBulkWatchdogPass cfg fail) := by
  have hlist : Restores holdState .idle (listAllJobs 500) :=
    restores_quietly (quietly_listAllJobs 500)
  have hrunning : Restores holdState .idle (failStaleRunningJobs cfg) := by
    refine restores_ite (Restores.pure ()) (restores_ite (Restores.pure ()) ?_)
    refine Restores.bind (restores_quietly (quietly_redisRead _)) fun now => ?_
    refine Restores.bind hlist fun jobs => ?_
    refine Restores.bind (Restores.forEach fun job _ => restores_failStaleRunning now job)
      fun _ => ?_
    exact Restores.tryCatch (restores_cleanupOrphans _) fun _ => Restores.pure ()
  have hrecover : Restores holdState .idle (recoverStaleRunningJobsWithStaging cfg) := by
    refine restores_ite (Restores.pure ()) ?_
    refine Restores.bind hlist fun jobs => Restores.forEach fun job _ => ?_
    refine restores_ite (Restores.pure ()) ?_
    exact Restores.bind (restores_tryRecover job) fun _ => Restores.pure ()
  have hpending : Restores holdState .idle (failStalePendingMutexHolders cfg) := by
    refine restores_ite (Restores.pure ()) ?_
    refine Restores.bind restores_scanMutexKeys fun keys => Restores.forEach fun c _ => ?_
    exact restores_ite (Restores.pure ()) restores_failStalePendingHolder
  refine restores_ite (Restores.pure ()) ?_
  refine Restores.bind restores_scanMutexKeys fun keys => ?_
  refine Restores.bind (Restores.forEach fun c _ => ?_) fun _ => ?_
  · refine Restores.bind (restores_quietly quietly_getHolder) fun holder => ?_
    cases holder with
    | none => exact Restores.pure ()
    | some holder =>
      refine Restores.bind (restores_quietly quietly_getJob) fun job => ?_
      exact restores_ite restores_reclaim (Restores.pure ())
  · refine Restores.bind hpending fun _ => Restores.bind hrecover fun _ => ?_
    exact restores_ite hrunning (Restores.pure ())

theorem restores_cancelJob : Restores holdState .idle (cancelJob cfg j) := by
  refine Restores.bind (restores_quietly quietly_getJob) fun job => ?_
  cases job with
  | none => exact Restores.pure ()
  | some job =>
    have hun : Restores holdState .idle (unregisterBulkImportJob job.jobId) :=
      restores_quietly quietly_unregister
    refine Restores.bind (restores_quietly (quietly_redisRead _)) fun isBulk => ?_
    cases job.status with
    | completed | failed | cancelled => exact Restores.pure ()
    | pending =>
      cases isBulk with
      | true => exact Restores.bind hun fun _ => restores_updateJob _
      | false => exact restores_updateJob _
    | running | replacing => exact restores_ite (restores_updateJob _) (Restores.pure ())
    | finalizing =>
      refine restores_ite ?_ (Restores.pure ())
      refine Restores.bind (restores_quietly quietly_removeFinalizeFromQueue) fun _ => ?_
      refine Restores.bind (restores_quietly quietly_clearFinalizePending) fun _ => ?_
      refine Restores.bind (Restores.tryCatch restores_dropStaging fun _ => Restores.pure ())
        fun _ => ?_
      exact Restores.bind hun fun _ => restores_updateJob _

/-! ### The worker -/

theorem restores_attempt {p : Work α} (h : Restores holdState φ p) :
    Restores holdState φ (attempt p) :=
  Restores.tryCatch (Restores.bind h fun _ => Restores.pure _) fun _ => Restores.pure _

theorem restores_raiseIfCancelled : Restores holdState φ (raiseIfCancelled cfg j) := by
  refine Restores.bind (restores_quietly quietly_getJob) fun job => ?_
  cases job with
  | none => exact Restores.pure ()
  | some job => exact restores_ite (Restores.throw _) (Restores.pure ())

theorem restores_refresh : Restores holdState φ (refreshCollectionBulkMutex cfg c j) := by
  refine restores_ite (Restores.pure ()) (Restores.retry ?_ _)
  refine Restores.bind (restores_quietly (quietly_redisRead _)) fun holder => ?_
  exact restores_ite (restores_write (by simp) fun _ => rfl) (Restores.pure ())

theorem restores_onProgress (payload : BulkJobPayload) (created : Nat) :
    Restores holdState φ (onProgress cfg payload created) := by
  refine Restores.bind (restores_quietly quietly_getJob) fun job => ?_
  refine restores_ite (Restores.throw _) ?_
  refine Restores.tryCatch (Restores.retry ?_ _) fun _ => Restores.pure ()
  exact Restores.bind restores_refresh fun _ => restores_openUpdate (by simp [Status.terminal])

theorem restores_flushFull (n : Nat) (buf : List Row) :
    Restores holdState φ (flushFull cfg j n buf) := by
  induction n generalizing buf with
  | zero => exact Restores.pure _
  | succ n ih =>
    refine restores_ite ?_ (Restores.pure _)
    exact Restores.bind (restores_execute (by simp) _) fun _ => ih _

theorem restores_ensure {H : Digest} : Restores holdState φ (ensureFeaturesPartition H c) := by
  refine restores_of_leaves (within_ensure (fun _ _ => leaves_of_quiet) (fun _ => ?_) ?_)
  · exact leaves_onDb (by simp) _
  · exact leaves_onDb (by simp) _

theorem restores_promoteStaging {H : Digest} (mode : Mode) :
    Restores holdState φ (promoteStaging H cfg c j mode) := by
  have hq : ∀ l g, Quiet l g → LeavesMutex l g := fun _ _ => leaves_of_quiet
  have hbegin : LeavesMutex (.promote j mode) id := ⟨by simp, fun _ => rfl⟩
  have hdrop : (dropStagingTable j).Within LeavesMutex :=
    within_execute (leaves_onDb (by simp) _)
  refine restores_of_leaves ?_
  cases mode with
  | replace =>
    refine within_promoteReplace hq hbegin hdrop (within_swap ?_ ?_)
    · exact leaves_onDb (by simp) _
    · exact leaves_onDb (by simp) _
  | append =>
    refine within_promoteAppend hq hbegin hdrop (within_ensure hq (fun _ => ?_) ?_) ?_
    · exact leaves_onDb (by simp) _
    · exact leaves_onDb (by simp) _
    · exact within_execute (leaves_onDb (by simp) _)

theorem restores_loadRaised (mode : Mode) (created failed : Nat) (e : Exn) :
    Restores holdState φ (loadRaised j mode created failed e) := by
  have hdrop : Restores holdState φ (tryCatch (dropStagingTable j) fun _ => pure () : Work Unit) :=
    Restores.tryCatch restores_dropStaging fun _ => Restores.pure ()
  have hkeep : Restores holdState φ (keepOrDropStaging j mode) := by
    refine Restores.tryCatch (Restores.bind (restores_quietly (quietly_query _)) fun staged => ?_)
      fun _ => Restores.pure ()
    exact restores_ite (Restores.pure ()) restores_dropStaging
  cases e with
  | bulkImportCancelled => exact Restores.bind hdrop fun _ => Restores.pure _
  | _ => exact Restores.bind hkeep fun _ => Restores.pure _

section Load
variable {onProgress : Nat → Work Unit} (hp : ∀ n, Restores holdState φ (onProgress n))
include hp

theorem restores_heartbeat (due : Bool) (created : Nat) :
    Restores holdState φ (heartbeat onProgress due created) :=
  restores_ite (hp created) (Restores.pure ())

theorem restores_loadRecord (now : Nat) (st : Loading) (r : Record) :
    Restores holdState φ (loadRecord cfg c j onProgress now st r) := by
  refine Restores.bind (restores_ite restores_raiseIfCancelled (Restores.pure ())) fun _ => ?_
  refine Restores.bind (restores_ite (Restores.pure _) (restores_flushFull _ _)) fun buf => ?_
  exact Restores.bind (restores_heartbeat hp _ _) fun _ => Restores.pure _

theorem restores_loadRecords (now : Nat) (rs : List Record) (st : Loading) :
    Restores holdState φ (loadRecords cfg c j onProgress now rs st) := by
  induction rs generalizing st with
  | nil => exact Restores.pure _
  | cons r rs ih => exact Restores.bind (restores_loadRecord hp now st r) fun st => ih st

theorem restores_loadSource (src : Source) :
    Restores holdState φ (loadSource cfg c j onProgress src) := by
  refine Restores.bind (restores_quietly (quietly_redisRead _)) fun now => ?_
  refine Restores.bind (restores_loadRecords hp now _ _) fun st => ?_
  cases src.error with
  | some e => exact Restores.throw _
  | none =>
    refine Restores.bind ?_ fun _ => Restores.pure _
    exact restores_ite (Restores.pure ()) (restores_execute (by simp) _)

theorem restores_loadMembers (many : Bool) (members : List Source) (created failed : Nat) :
    Restores holdState φ (loadMembers cfg c j onProgress many members created failed) := by
  induction members generalizing created failed with
  | nil => exact Restores.pure _
  | cons src rest ih =>
    have hmember : Restores holdState φ (loadMember cfg c j onProgress many created src) :=
      Restores.bind (restores_heartbeat hp _ _) fun _ => restores_loadSource hp src
    refine Restores.bind (restores_attempt hmember) fun r => ?_
    cases r with
    | ok n => exact ih _ _
    | error e => exact Restores.pure _

theorem restores_loadContent (content : Content) :
    Restores holdState φ (loadContent cfg c j onProgress content) := by
  cases content with
  | badZip error => exact Restores.pure _
  | unsupported => exact Restores.pure _
  | zip members =>
    exact Restores.bind (restores_loadMembers hp _ members 0 0) fun _ => Restores.pure _
  | single src =>
    exact Restores.bind (restores_loadMembers hp false [src] 0 0) fun _ => Restores.pure _

theorem restores_prepareStaging {H : Digest} :
    Restores holdState φ (prepareStaging H c j onProgress) := by
  refine Restores.bind restores_ensure fun _ => ?_
  refine Restores.bind (restores_execute (by simp) _) fun _ => ?_
  exact Restores.bind (restores_write (by simp) fun _ => rfl) fun _ => hp 0

theorem restores_finishLoad {H : Digest} (mode : Mode) (created : Nat) :
    Restores holdState φ (finishLoad H cfg c j onProgress mode created) := by
  refine Restores.bind (restores_write (by simp) fun _ => rfl) fun _ => ?_
  refine Restores.bind restores_raiseIfCancelled fun _ => ?_
  refine Restores.bind (hp created) fun _ => restores_ite (Restores.pure _) ?_
  refine Restores.bind (restores_promoteStaging mode) fun _ => ?_
  exact Restores.bind (restores_quietly quietly_finalizeAfterPromote) fun _ => Restores.pure _

theorem restores_copyImport {H : Digest} (mode : Mode) (content : Content) :
    Restores holdState φ (copyImport H cfg c j onProgress mode content) := by
  refine Restores.bind (restores_attempt (restores_prepareStaging hp)) fun r => ?_
  cases r with
  | error e => exact restores_loadRaised mode 0 0 e
  | ok _ =>
    refine Restores.bind (restores_loadContent hp content) fun stage => ?_
    cases stage with
    | returns created failed err => exact Restores.pure _
    | raises created failed e => exact restores_loadRaised mode created failed e
    | goes created failed =>
      refine Restores.bind (restores_attempt (restores_finishLoad hp mode created)) fun r => ?_
      cases r with
      | ok err => exact Restores.pure _
      | error e => exact restores_loadRaised mode created failed e

theorem restores_runBulkCopyImport {H : Digest} (files : Files) (key : Text) (mode : Mode) :
    Restores holdState φ (runBulkCopyImport H cfg c j onProgress files key mode) := by
  have hact : Restores holdState φ (bulkActivity cfg) := by
    refine restores_ite (Restores.pure ()) (Restores.retry ?_ _)
    exact Restores.bind (restores_write (by simp) fun _ => rfl) fun _ =>
      restores_write (by simp) fun _ => rfl
  refine Restores.bind (restores_read (by simp) _) fun there => ?_
  refine restores_ite (Restores.pure _) ?_
  cases files.upload key with
  | empty => exact Restores.pure _
  | unreadable error => exact Restores.pure _
  | file content =>
    exact Restores.bind hact fun _ =>
      Restores.tryFinally (restores_copyImport hp mode content) hact

end Load

theorem restores_startImport {H : Digest} {files : Files} (payload : BulkJobPayload) :
    Restores holdState φ (startImport H cfg files payload) := by
  have himport : Restores holdState φ (runVectorImport H cfg files payload) := by
    unfold runVectorImport
    split
    · exact Restores.pure _
    · exact Restores.pure _
    · exact restores_runBulkCopyImport (restores_onProgress payload) files _ _
  refine Restores.bind (Restores.retry (restores_openUpdate (by simp [Status.terminal])) _)
    fun _ => ?_
  split
  · exact Restores.bind (Restores.retry (restores_openUpdate (by simp [Status.terminal])) _)
      fun _ => himport
  · exact himport

theorem restores_importPhase {H : Digest} {files : Files} (payload : BulkJobPayload) :
    Restores holdState φ (importPhase H cfg files payload) := by
  refine Restores.bind (restores_quietly quietly_getJob) fun job => ?_
  refine restores_ite (Restores.pure _) ?_
  exact Restores.bind (restores_attempt (restores_startImport payload)) fun _ => Restores.pure _

theorem restores_storageDelete (key : Text) : Restores holdState φ (storageDelete key) :=
  Restores.tryCatch (restores_write (by simp) fun _ => rfl) fun _ => Restores.pure ()

theorem restores_closeImport (payload : BulkJobPayload) :
    Restores holdState .idle (closeImport cfg payload) := by
  refine Restores.bind restores_release fun _ => ?_
  refine Restores.bind (Restores.tryCatch ?_ fun _ => Restores.pure _) fun queued => ?_
  · exact Restores.bind (restores_quietly quietly_getJob) fun _ => Restores.pure _
  · refine Restores.bind (restores_storageDelete _) fun _ => ?_
    exact restores_ite (restores_quietly quietly_unregister) (Restores.pure ())

theorem restores_recordImport (payload : BulkJobPayload) (created failed : Nat)
    (err : Option Text) : Restores holdState .idle (recordImport cfg payload created failed err) := by
  have hdone : Restores holdState .idle (completeImport cfg payload created failed) :=
    Restores.bind (restores_updateJob _) fun _ => restores_quietly (quietly_queueTileBuild _)
  cases err with
  | none => exact hdone
  | some err =>
    refine restores_ite (restores_ite ?_ ?_) (restores_ite (restores_updateJob _)
      (restores_ite hdone (restores_updateJob _)))
    · refine Restores.bind (Restores.tryCatch restores_dropStaging fun _ => Restores.pure ())
        fun _ => ?_
      exact Restores.retry (restores_updateJob _) _
    · exact Restores.bind (restores_enqueueFinalize _ _) fun _ =>
        Restores.retry (restores_updateJob _) _

theorem restores_afterImport (payload : BulkJobPayload)
    (r : Except Exn (Nat × Nat × Option Text)) :
    Restores holdState .idle (afterImport cfg payload r) := by
  refine Restores.tryFinally (Restores.tryCatch ?_ fun e => ?_) (restores_closeImport payload)
  · cases r with
    | error e => exact Restores.throw e
    | ok r =>
      refine Restores.bind (restores_quietly quietly_getJob) fun job => ?_
      exact restores_ite (Restores.pure ()) (restores_recordImport payload _ _ _)
  · cases e with
    | _ => exact restores_updateJob _

/-- Whatever the own state is when the import begins, it is idle when it is over. -/
theorem typed_importWithMutex {H : Digest} {files : Files} (payload : BulkJobPayload) :
    (importWithMutex H cfg files payload).Typed holdState (fun _ φ' => φ' = .idle) φ := by
  refine Prog.Typed.bind (Restores.tryFinally (ψ := .idle) (restores_importPhase payload) ?_) ?_
    fun _ _ hq => hq
  · exact Prog.Typed.write (fun _ => rfl) (fun _ => rfl) fun _ => rfl
  · rintro phase φ' rfl
    cases phase with
    | some r => exact restores_afterImport payload r
    | none =>
      refine Restores.bind restores_release fun _ => ?_
      exact Restores.bind (restores_storageDelete _) fun _ => restores_quietly quietly_unregister

/-- After `try_acquire` the program imports, or nothing has changed. -/
def Acquired (c : CollectionId) (j : JobId) (r : Except Exn Bool) (φ : Hold) : Prop :=
  φ = .idle ∨ r = .ok true ∧ φ = .importing c j

theorem typed_tryAcquire :
    (tryAcquireCollectionBulkMutex cfg c j).Typed holdState (Acquired c j) .idle := by
  unfold tryAcquireCollectionBulkMutex
  split
  · exact .inl rfl
  · refine Prog.Typed.retry ?_ (fun e φ h => ?_) _
    · rw [Prog.typed_bind]
      refine ⟨⟨rfl, fun s => rfl⟩, fun s => ?_, fun _ e => .inl rfl⟩
      by_cases hfree : (s.holder c).isNone = true
      · simp only [holdState, hfree, if_true]
        exact .inr ⟨rfl, rfl⟩
      · simp only [holdState, hfree]
        refine ⟨⟨rfl, fun _ => rfl⟩, fun s' => ?_, fun _ e => .inl rfl⟩
        by_cases hown : s'.holder c = some j
        · simp only [hown, if_true]
          exact .inr ⟨by simp, rfl⟩
        · simp only [hown, if_false]
          exact .inl rfl
    · rcases h with h | ⟨h, _⟩
      · exact h
      · cases h

/-- A deferral ends idle, or the job has the mutex and is not deferred. -/
def Deferred (c : CollectionId) (j : JobId) (r : Except Exn Bool) (φ : Hold) : Prop :=
  φ = .idle ∨ r = .ok false ∧ φ = .importing c j

theorem typed_deferJob (payload : BulkJobPayload) (holder : Option JobId)
    (job : Option JobInfo) :
    Restores holdState .idle (deferJob cfg payload holder job) := by
  have hpush : Restores holdState .idle (redisWrite fun s =>
      { s with bulkQueue := payload :: s.bulkQueue }) := restores_write (by simp) fun _ => rfl
  refine Restores.bind (Restores.tryCatch (restores_updateJob _) fun _ => Restores.pure ())
    fun _ => ?_
  refine Restores.bind (Restores.tryCatch ?_ fun _ => Restores.pure ()) fun _ => Restores.pure _
  exact restores_ite (Restores.tryCatch (Restores.retry hpush _) fun _ => Restores.throw _) hpush

theorem typed_acquireOr {payload : BulkJobPayload} {next : Work Bool}
    (hnext : next.Typed holdState (Deferred payload.collectionId payload.jobId) .idle) :
    (do
      let acquired ← tryAcquireCollectionBulkMutex cfg payload.collectionId payload.jobId
      if acquired then return false else next : Work Bool).Typed holdState
        (Deferred payload.collectionId payload.jobId) .idle := by
  refine Prog.Typed.bind typed_tryAcquire (fun acquired φ h => ?_) fun e φ h => ?_
  · cases acquired with
    | true =>
      rcases h with rfl | ⟨_, rfl⟩
      · exact .inl rfl
      · exact .inr ⟨rfl, rfl⟩
    | false =>
      rcases h with rfl | ⟨h, _⟩
      · exact hnext
      · cases h
  · rcases h with h | ⟨h, _⟩
    · exact .inl h
    · cases h

theorem typed_of_restores {p : Work Bool} (h : Restores holdState .idle p) :
    p.Typed holdState (Deferred c j) .idle :=
  Prog.Typed.mono (fun _ _ hq => .inl hq) p _ h

theorem typed_defer (payload : BulkJobPayload) :
    (deferBulkJobForCollectionMutex cfg payload).Typed holdState
      (Deferred payload.collectionId payload.jobId) .idle := by
  have hjob : ∀ holder, Restores holdState .idle (holderJob cfg holder) := by
    intro holder
    cases holder with
    | none => exact Restores.pure _
    | some h => exact restores_quietly quietly_getJob
  refine typed_acquireOr (Restores.then (restores_quietly quietly_getHolder) (fun _ => ?_)
    fun _ => .inl rfl)
  refine Restores.then restores_reclaim (fun _ => ?_) fun _ => .inl rfl
  refine typed_acquireOr ?_
  refine Restores.then (restores_quietly quietly_getHolder) (fun holder => ?_) fun _ => .inl rfl
  refine Restores.then (hjob holder) (fun job => ?_) fun _ => .inl rfl
  split
  · refine Restores.then restores_reclaim (fun _ => typed_acquireOr ?_) fun _ => .inl rfl
    refine typed_of_restores (Restores.bind (restores_quietly quietly_getHolder) fun holder => ?_)
    exact Restores.bind (hjob holder) fun job => typed_deferJob payload holder job
  · exact typed_of_restores (typed_deferJob payload holder job)

/-! ### Raster batches -/

theorem restores_createRasterFeature (r : Raster) :
    Restores holdState φ (createRasterFeature r) := by
  cases r with
  | error e => exact Restores.throw _
  | ok r => exact restores_execute (by simp) _

theorem restores_rasterMembers (ms : List Raster) (n : RasterCount) :
    Restores holdState φ (rasterMembers cfg j ms n) := by
  induction ms generalizing n with
  | nil => exact Restores.pure _
  | cons r rest ih =>
    refine Restores.bind (restores_attempt (Restores.bind restores_raiseIfCancelled
      fun _ => restores_createRasterFeature r)) fun raised => ?_
    cases raised with
    | error e => exact Restores.pure _
    | ok _ => exact ih _

theorem restores_rasterEntries (ents : List RasterEntry) (n : RasterCount) :
    Restores holdState .idle (rasterEntries cfg j ents n) := by
  have hprog : ∀ n, Restores holdState .idle (rasterProgress cfg j n >>= fun _ => pure n) :=
    fun n => Restores.bind (restores_updateJob _) fun _ => Restores.pure _
  induction ents generalizing n with
  | nil => exact Restores.pure _
  | cons ent rest ih =>
    refine Restores.bind restores_raiseIfCancelled fun _ => Restores.bind ?_ fun n => ih n
    cases ent with
    | skipped error => exact Restores.pure _
    | unknownKind kind => exact hprog _
    | geotiff r =>
      exact Restores.bind (restores_attempt (restores_createRasterFeature r)) fun _ => hprog _
    | zip members => exact Restores.bind (restores_rasterMembers members n) fun n => hprog n

theorem restores_runRasterBatch {files : Files} (key : Text) :
    Restores holdState .idle (runRasterBatchJob cfg files j key) := by
  refine Restores.bind (Restores.bind (restores_read (by simp) _) fun there => ?_) fun ents => ?_
  · refine restores_ite (Restores.throw _) ?_
    cases files.archive key with
    | ok ents => exact Restores.pure _
    | error e => exact Restores.throw _
  · refine Restores.bind (restores_updateJob _) fun _ => ?_
    refine Restores.bind (restores_attempt (Restores.bind (restores_quietly (quietly_query _))
      fun _ => restores_rasterEntries ents _)) fun r => ?_
    split
    · refine Restores.bind (restores_updateJob _) fun _ => ?_
      exact restores_ite (restores_write (by simp) fun _ => rfl) (Restores.pure ())
    · exact Restores.bind (restores_quietly quietly_getJob) fun _ => restores_updateJob _
    · exact Restores.throw _

theorem typed_processBulkJob {H : Digest} {files : Files} (payload : BulkJobPayload) :
    Restores holdState .idle (processBulkJob H cfg files payload) := by
  have hkey : Restores holdState .idle (checkStorageKey payload.storageKey) :=
    restores_ite (Restores.throw _) (Restores.pure ())
  refine Restores.bind hkey fun _ => restores_ite ?_ ?_
  · refine Restores.tryFinally (Restores.tryCatch (restores_runRasterBatch _) fun e =>
      restores_updateJob _) ?_
    exact Restores.bind (restores_storageDelete _) fun _ => restores_quietly quietly_unregister
  · refine Prog.Typed.bind (typed_defer payload) (fun deferred φ h => ?_) fun e φ h => ?_
    · cases deferred with
      | true =>
        rcases h with rfl | ⟨h, _⟩
        · exact Restores.pure ()
        · cases h
      | false => exact typed_importWithMutex payload
    · rcases h with h | ⟨h, _⟩
      · exact h
      · cases h

end

end Bulk
end Geofastmap
