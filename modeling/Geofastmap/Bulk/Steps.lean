import Geofastmap.Bulk.Quiet
import Geofastmap.Db.Promote

/-!
# Geofastmap.Bulk.Steps

The services as programs of steps of a kind. `Covers` lists what a kind has to allow for one job:
the quiet steps, the statements on its staging table, its promotion and the change of its record.
Then every path of `process_bulk_finalize_job`, of the cancel route and of the recovery passes is
made of such steps, so an invariant of the kind is an invariant of the services.
-/

namespace Geofastmap
namespace Bulk

open Db Interleave

/-- The effect of a transaction: as a whole or not at all. -/
def Sys.onDb (f : Catalog → Except DbError Catalog) (s : Sys) : Sys :=
  match f s.catalog with
  | .ok k => { s with catalog := k }
  | .error _ => s

variable {S : Label → (Sys → Sys) → Prop} {α : Type}

theorem within_transaction {l : Label} {f : Catalog → Except DbError (α × Catalog)}
    (h : S l (Sys.onDb fun k => (f k).map Prod.snd)) : (transaction l f).Within S := by
  refine Prog.Within.atomic ?_
  convert h using 1
  funext s
  simp only [Sys.onDb]
  cases f s.catalog <;> rfl

theorem within_execute {l : Label} {f : Catalog → Except DbError Catalog}
    (h : S l (Sys.onDb f)) : (execute l f).Within S := by
  refine within_transaction ?_
  convert h using 2
  funext k
  cases f k <;> rfl

theorem within_queryOr {l : Label} {f : Catalog → Except DbError α} (h : S l id) :
    (queryOr l f).Within S := by
  refine within_transaction ?_
  convert h using 1
  funext s
  simp only [Sys.onDb]
  cases f s.catalog <;> rfl

theorem within_retryLock {p : Work Unit} (h : p.Within S) (timeout : Exn) (n : Nat) :
    (retryLock p timeout n).Within S := by
  induction n with
  | zero =>
    refine Prog.Within.tryCatch h fun e => ?_
    split
    · exact Prog.Within.throw _
    · exact Prog.Within.throw _
  | succ n ih =>
    refine Prog.Within.tryCatch h fun e => ?_
    split
    · exact ih
    · exact Prog.Within.throw _

section
variable {H : Digest} {cfg : Settings} {j : JobId} {c : CollectionId} {M : Mode → Prop}

theorem within_ensure (hq : ∀ l g, Quiet l g → S l g)
    (he : ∀ n, S .db (Sys.onDb fun k => (k.ensureExisting c n).map Prod.snd))
    (hm : S .db (Sys.onDb fun k => (k.ensureMissing H c).map Prod.snd)) :
    (ensureFeaturesPartition H c).Within S := by
  refine Prog.Within.bind ((quietly_query _).mono hq) fun existing => ?_
  cases existing with
  | none => exact within_transaction hm
  | some n => exact within_transaction (he n)

/-! ## Promotion -/

theorem within_promoteRecovery (hq : ∀ l g, Quiet l g → S l g) {promoteFn : Work Unit}
    (h : promoteFn.Within S) : (promoteWithStagingRecovery j promoteFn).Within S := by
  have hprep : ∀ p : Work Unit, p.Within S →
      (prepareStagingForPromote j >>= fun _ => p).Within S :=
    fun p hp => Prog.Within.bind (quietly_prepareStagingForPromote.mono hq) fun _ => hp
  refine hprep _ (Prog.Within.tryCatch h fun e => ?_)
  split
  · split
    · exact Prog.Within.throw _
    · refine hprep _ (Prog.Within.tryCatch h fun e2 => ?_)
      split
      · split
        · exact Prog.Within.throw _
        · exact Prog.Within.throw _
      · exact Prog.Within.throw _
  · exact Prog.Within.throw _

theorem within_swap
    (hprep : S .db (Sys.onDb fun k => k.prepareStagingForAttach c (stagingTableName j)))
    (hswap : S (.swap c (stagingTableName j))
      (Sys.onDb fun k => k.swapStagingIntoCollectionPartition H c (stagingTableName j))) :
    (swapStagingIntoCollectionPartition H cfg c (stagingTableName j)).Within S :=
  Prog.Within.bind (within_execute hprep) fun _ => within_retryLock (within_execute hswap) _ _

theorem within_promoteReplace (hq : ∀ l g, Quiet l g → S l g) (hbegin : S (.promote j .replace) id)
    (hdrop : (dropStagingTable j).Within S)
    (hswap : (swapStagingIntoCollectionPartition H cfg c (stagingTableName j)).Within S) :
    (promoteStaging H cfg c j .replace).Within S := by
  refine Prog.Within.bind (within_queryOr hbegin) fun count => ?_
  split
  · exact Prog.Within.bind hdrop fun _ => Prog.Within.pure _
  · refine Prog.Within.bind ((quietly_query _).mono hq) fun complete => ?_
    split
    · exact Prog.Within.pure _
    · exact Prog.Within.bind (within_promoteRecovery hq hswap) fun _ => Prog.Within.pure _

theorem within_promoteAppend (hq : ∀ l g, Quiet l g → S l g) (hbegin : S (.promote j .append) id)
    (hdrop : (dropStagingTable j).Within S) (hensure : (ensureFeaturesPartition H c).Within S)
    (happend : (appendPromote j).Within S) :
    (promoteStaging H cfg c j .append).Within S := by
  refine Prog.Within.bind (within_queryOr hbegin) fun count => ?_
  split
  · exact Prog.Within.bind hdrop fun _ => Prog.Within.pure _
  · refine Prog.Within.bind hensure fun _ => ?_
    refine Prog.Within.bind (within_promoteRecovery hq happend) fun _ => ?_
    exact Prog.Within.bind hdrop fun _ => Prog.Within.pure _

/-- The record under a job id has that id. -/
theorem yields_getJob (cfg : Settings) (j : JobId) :
    (getJob cfg j).Yields fun o => ∀ job, o = some job → job.jobId = j :=
  Prog.Yields.retry (Prog.Yields.read _ fun s job h => by simpa using List.find?_some h) _

/-- Duplicates that cannot be removed are turned into a value, other exceptions are raised. -/
theorem within_catchDuplicate {p : Work α} (h : p.Within S) {f : Text → Work α}
    (hf : ∀ msg, (f msg).Within S) :
    (tryCatch p fun e => match e with
      | .stagingDuplicateUnrecoverable msg => f msg
      | e => throw e : Work α).Within S := by
  refine Prog.Within.tryCatch h fun e => ?_
  split
  · exact hf _
  · exact Prog.Within.throw _

/-! ## The finalize worker and the cancel route -/

/-- What a kind of steps has to allow for the services of a job to be made of it. -/
structure Covers (S : Label → (Sys → Sys) → Prop) (H : Digest) (cfg : Settings) (j : JobId)
    (c : CollectionId) (M : Mode → Prop) : Prop where
  quiet : ∀ l g, Quiet l g → S l g
  drop : (dropStagingTable j).Within S
  cleanup : (execute (.dropStaging j) (dropFailedStaging (stagingTableName j))).Within S
  ensure : (ensureFeaturesPartition H c).Within S
  promote : ∀ m, M m → (promoteStaging H cfg c j m).Within S
  release : ∀ d, (releaseCollectionBulkMutex cfg d j).Within S
  record : ∀ u : JobUpdate, S (.setStatus j u.status) fun s => s.updateJob j u

namespace Covers

variable (hS : Covers S H cfg j c M)
include hS

theorem updateJob (u : JobUpdate) : (updateJob cfg j u).Within S :=
  within_updateJob (hS.quiet _ _ (quiet_redis Hushed.refl)) hS.release (hS.record u)

theorem closeFinalize : (closeFinalize cfg j).Within S := quietly_closeFinalize.mono hS.quiet

theorem afterPromote (d : CollectionId) : (finalizeAfterPromote cfg d).Within S :=
  quietly_finalizeAfterPromote.mono hS.quiet

theorem prepare : (prepareStagingForPromote j).Within S :=
  quietly_prepareStagingForPromote.mono hS.quiet

theorem abandon (reason : Text) (created failed : Nat) :
    (abandonStagingFinalizeJob H cfg j c reason created failed).Within S := by
  refine Prog.Within.bind ?_ fun _ => ?_
  · exact Prog.Within.bind hS.cleanup fun _ => Prog.Within.bind hS.ensure fun _ =>
      Prog.Within.pure ()
  · refine Prog.Within.bind (quietly_removeFinalizeFromQueue.mono hS.quiet) fun _ => ?_
    refine Prog.Within.bind (quietly_clearFinalizePending.mono hS.quiet) fun _ => ?_
    exact Prog.Within.bind (quietly_unregister.mono hS.quiet) fun _ => hS.updateJob _

theorem finalizeStaged {payload : BulkFinalizePayload} (hj : payload.jobId = j)
    (hc : payload.collectionId = c) (hm : M payload.mode) (staged : Nat) :
    (finalizeStaged H cfg payload staged).Within S := by
  subst hj hc
  refine Prog.Within.bind (hS.updateJob _) fun _ => ?_
  refine Prog.Within.bind (within_catchDuplicate ?_ fun msg => ?_) fun prepared => ?_
  · exact Prog.Within.bind hS.prepare fun _ => Prog.Within.pure _
  · exact Prog.Within.bind (hS.abandon _ _ _) fun _ => Prog.Within.pure _
  · split
    · exact Prog.Within.pure ()
    · refine Prog.Within.bind (hS.promote _ hm) fun count => ?_
      refine Prog.Within.bind (hS.afterPromote _) fun _ => ?_
      refine Prog.Within.bind (hS.updateJob _) fun _ => ?_
      refine Prog.Within.bind hS.closeFinalize fun _ => ?_
      exact (quietly_queueTileBuild _).mono hS.quiet

theorem finalizeBody {payload : BulkFinalizePayload} (hj : payload.jobId = j)
    (hc : payload.collectionId = c) (hm : M payload.mode) :
    (finalizeBody H cfg payload).Within S := by
  refine Prog.Within.bind ((quietly_query _).mono hS.quiet) fun staged => ?_
  split
  · subst hj
    exact Prog.Within.bind (hS.updateJob _) fun _ => hS.closeFinalize
  · exact hS.finalizeStaged hj hc hm staged

theorem finalizeFailed {payload : BulkFinalizePayload} (hj : payload.jobId = j)
    (hc : payload.collectionId = c) (e : Exn) : (finalizeFailed H cfg payload e).Within S := by
  subst hj hc
  have hrest : ∀ closed : Bool, (if closed = true then pure () else do
      recordFinalizeError cfg payload.jobId (e.cls ++ ": ".toList ++ e.text) payload.attempt
      Bulk.updateJob cfg payload.jobId
        { status := some .finalizing
          message := some ("Partition swap failed (attempt ".toList ++
            Sql.digits (payload.attempt + 1) ++ "); will retry automatically. ".toList ++
            clip 300 (e.cls ++ ": ".toList ++ e.text))
          itemsCreated := some payload.itemsCreated
          itemsFailed := some payload.itemsFailed }
      throw e : Work Unit).Within S := by
    intro closed
    split
    · exact Prog.Within.pure ()
    · refine Prog.Within.bind ((quietly_recordFinalizeError _ _).mono hS.quiet) fun _ => ?_
      exact Prog.Within.bind (hS.updateJob _) fun _ => Prog.Within.throw e
  unfold Bulk.finalizeFailed
  dsimp only
  split
  · refine Prog.Within.bind (within_catchDuplicate ?_ fun msg => Prog.Within.pure _) fun dup => ?_
    · exact Prog.Within.bind hS.prepare fun _ => Prog.Within.pure _
    · cases dup with
      | some msg =>
        exact Prog.Within.bind (Prog.Within.bind (hS.abandon _ _ _) fun _ => Prog.Within.pure _) hrest
      | none =>
        dsimp only
        split
        · exact Prog.Within.bind (Prog.Within.bind (hS.abandon _ _ _) fun _ => Prog.Within.pure _)
            hrest
        · exact hrest false
  · exact hrest false

theorem processBulkFinalizeJob {payload : BulkFinalizePayload} (hj : payload.jobId = j)
    (hc : payload.collectionId = c) (hm : M payload.mode) :
    (processBulkFinalizeJob H cfg payload).Within S := by
  refine Prog.Within.bind (quietly_getJob.mono hS.quiet) fun job => ?_
  split
  · subst hj
    exact Prog.Within.bind hS.drop fun _ => hS.closeFinalize
  · refine Prog.Within.tryCatch (hS.finalizeBody hj hc hm) fun e => ?_
    split
    · subst hj
      refine Prog.Within.bind (Prog.Within.tryCatch hS.drop fun _ => Prog.Within.pure ()) fun _ => ?_
      exact hS.closeFinalize
    · subst hj hc
      exact hS.abandon _ _ _
    · exact hS.finalizeFailed hj hc _

theorem cancelJobRecord {job : JobInfo} (hj : job.jobId = j) :
    (cancelJobRecord cfg job).Within S := by
  subst hj
  have hun := (quietly_unregister (j := job.jobId)).mono hS.quiet
  refine Prog.Within.bind ((quietly_redisRead _).mono hS.quiet) fun isBulk => ?_
  split
  · exact Prog.Within.pure ()
  · exact Prog.Within.pure ()
  · exact Prog.Within.pure ()
  · split
    · exact Prog.Within.bind hun fun _ => hS.updateJob _
    · exact hS.updateJob _
  · split
    · exact hS.updateJob _
    · exact Prog.Within.pure ()
  · split
    · exact hS.updateJob _
    · exact Prog.Within.pure ()
  · split
    · refine Prog.Within.bind (quietly_removeFinalizeFromQueue.mono hS.quiet) fun _ => ?_
      refine Prog.Within.bind (quietly_clearFinalizePending.mono hS.quiet) fun _ => ?_
      refine Prog.Within.bind (Prog.Within.tryCatch hS.drop fun _ => Prog.Within.pure ()) fun _ => ?_
      exact Prog.Within.bind hun fun _ => hS.updateJob _
    · exact Prog.Within.pure ()

theorem cancelJob : (cancelJob cfg j).Within S := by
  refine Prog.Within.bindYields (quietly_getJob.mono hS.quiet) (yields_getJob cfg j)
    fun job hjob => ?_
  cases job with
  | none => exact Prog.Within.pure ()
  | some job => exact hS.cancelJobRecord (hjob job rfl)

end Covers
end

end Bulk
end Geofastmap
