import Geofastmap.Bulk.Watchdog

/-!
# Geofastmap.Bulk.Quiet

The steps that no recovery decision hangs on: reads, and writes to Redis that neither queue
finalize work, nor store a mode, nor complete a job. They are shown once to be of that kind
(`Quiet`), so a proof about a service meets only the steps that matter to it.

A table has a primary key, so removing duplicates from a staging table is quiet too.
-/

namespace Geofastmap
namespace Bulk

open Db Interleave

def Sys.storedMode (s : Sys) (j : JobId) : Option Mode :=
  (s.finalizeState.lookup j).bind FinalizeState.mode

def Sys.storedCollection (s : Sys) (j : JobId) : Option CollectionId :=
  (s.finalizeState.lookup j).bind FinalizeState.collectionId

/-- What a quiet step leaves as it was. -/
structure Hushed (s s' : Sys) : Prop where
  catalog : s'.catalog = s.catalog
  mutex : s'.mutex = s.mutex
  now : s'.now = s.now
  loaded : s'.loaded = s.loaded
  queue : s'.finalizeQueue ⊆ s.finalizeQueue
  mode : ∀ j m, s'.storedMode j = some m → s.storedMode j = some m
  collection : ∀ j c, s'.storedCollection j = some c → s.storedCollection j = some c
  jobs : ∀ job' ∈ s'.jobs, ∃ job ∈ s.jobs, job.jobId = job'.jobId ∧
    job.collectionId = job'.collectionId ∧ (job'.status = .completed → job.status = .completed)

theorem Hushed.refl (s : Sys) : Hushed s s :=
  ⟨rfl, rfl, rfl, rfl, List.Subset.refl _, fun _ _ h => h, fun _ _ h => h,
    fun job h => ⟨job, h, rfl, rfl, fun h => h⟩⟩

theorem Hushed.trans {s t u : Sys} (h₁ : Hushed s t) (h₂ : Hushed t u) : Hushed s u := by
  refine ⟨h₂.catalog.trans h₁.catalog, h₂.mutex.trans h₁.mutex, h₂.now.trans h₁.now,
    h₂.loaded.trans h₁.loaded, fun p hp => h₁.queue (h₂.queue hp), fun j m h => h₁.mode j m (h₂.mode j m h),
    fun j c h => h₁.collection j c (h₂.collection j c h), fun job hjob => ?_⟩
  obtain ⟨job', hjob', hi, hc, hs⟩ := h₂.jobs job hjob
  obtain ⟨job'', hjob'', hi', hc', hs'⟩ := h₁.jobs job' hjob'
  exact ⟨job'', hjob'', hi'.trans hi, hc'.trans hc, fun h => hs' (hs h)⟩

/-- A label of no particular kind, or one of a read or write of job records. -/
def Label.plain : Label → Bool
  | .redis | .db | .seeJob _ | .seeJobs | .setStatus _ _ => true
  | _ => false

def Quiet (l : Label) (g : Sys → Sys) : Prop := l.plain = true ∧ ∀ s, Hushed s (g s)

abbrev Quietly {α : Type} (p : Work α) : Prop := p.Within Quiet

theorem quiet_redis {g : Sys → Sys} (h : ∀ s, Hushed s (g s)) : Quiet .redis g := ⟨rfl, h⟩

theorem quiet_db {g : Sys → Sys} (h : ∀ s, Hushed s (g s)) : Quiet .db g := ⟨rfl, h⟩

section
variable {α β : Type} {cfg : Settings} {j : JobId} {c : CollectionId}

theorem quietly_redisRead (f : Sys → α) : Quietly (redisRead f) :=
  Prog.Within.read f (quiet_redis Hushed.refl)

theorem quietly_redisWrite {g : Sys → Sys} (h : ∀ s, Hushed s (g s)) : Quietly (redisWrite g) :=
  Prog.Within.write (quiet_redis h)

theorem quietly_query (f : Catalog → α) : Quietly (query f) :=
  Prog.Within.read _ (quiet_db Hushed.refl)

theorem quietly_queryOr (f : Catalog → Except DbError α) : Quietly (queryOr .db f) := by
  refine Prog.Within.atomic (quiet_db fun s => ?_)
  cases h : f s.catalog <;> simp only [h, Except.map] <;> exact Hushed.refl s

theorem quietly_retry {p : Work α} (h : Quietly p) (n : Nat) : Quietly (runRedisRetry n p) :=
  Prog.Within.retry h _

theorem quietly_runDbRetry {p : Work α} (h : Quietly p) (n : Nat) : Quietly (runDbRetry p n) := by
  induction n with
  | zero => exact h
  | succ n ih =>
    refine Prog.Within.tryCatch h fun e => ?_
    split
    · exact ih
    · exact Prog.Within.throw e

theorem quietly_getJob : Quietly (getJob cfg j) :=
  quietly_retry (Prog.Within.read _ ⟨rfl, Hushed.refl⟩) _

/-- A release as a program of steps of a kind that has its two commands. -/
theorem within_release {S : Label → (Sys → Sys) → Prop} (hget : S (.mutex .get c j) id)
    (hdel : S (.mutex .del c j) fun s => s.freeMutex c) :
    (releaseCollectionBulkMutex cfg c j).Within S := by
  unfold releaseCollectionBulkMutex
  split
  · exact Prog.Within.pure ()
  · refine Prog.Within.retry (Prog.Within.bind (Prog.Within.read _ hget) fun holder => ?_) _
    split
    · exact Prog.Within.write hdel
    · exact Prog.Within.pure ()

/-- `update_job` as a program of steps of a kind that covers its write. -/
theorem within_updateJob {S : Label → (Sys → Sys) → Prop} (hr : S .redis id)
    (hrel : ∀ d, (releaseCollectionBulkMutex cfg d j).Within S) {u : JobUpdate}
    (hw : S (.setStatus j u.status) fun s => s.updateJob j u) : (updateJob cfg j u).Within S := by
  unfold updateJob
  refine Prog.Within.bind (Prog.Within.retry (Prog.Within.read _ hr) _) fun job => ?_
  cases job with
  | none => exact Prog.Within.pure ()
  | some job =>
    refine Prog.Within.bind (Prog.Within.retry (Prog.Within.write hw) _) fun _ => ?_
    split
    · split
      · exact Prog.Within.tryCatch (hrel _) fun _ => Prog.Within.pure ()
      · exact Prog.Within.pure ()
    · exact Prog.Within.pure ()

theorem quietly_getHolder : Quietly (getCollectionBulkMutexHolder cfg c) := by
  unfold getCollectionBulkMutexHolder
  split
  · exact Prog.Within.pure _
  · exact quietly_retry (quietly_redisRead _) _

theorem quietly_holds : Quietly (holdsCollectionBulkMutex cfg c j) :=
  Prog.Within.bind quietly_getHolder fun _ => Prog.Within.pure _

theorem quietly_unregister : Quietly (unregisterBulkImportJob j) :=
  Prog.Within.tryCatch (quietly_redisWrite fun s => { Hushed.refl s with })
    fun _ => Prog.Within.pure ()

theorem quietly_isFinalizePending : Quietly (isFinalizePending cfg j) := by
  unfold isFinalizePending
  split
  · exact Prog.Within.pure _
  · exact quietly_retry (quietly_redisRead _) _

theorem quietly_getFinalizeState : Quietly (getFinalizeState cfg j) := by
  unfold getFinalizeState
  split
  · exact Prog.Within.pure _
  · exact quietly_retry (quietly_redisRead _) _

theorem lookup_filter {κ υ : Type} [BEq κ] [LawfulBEq κ] [DecidableEq κ] (l : List (κ × υ))
    (k a : κ) :
    (l.filter (·.1 != a)).lookup k = if k = a then none else l.lookup k := by
  induction l with
  | nil => simp
  | cons p l ih =>
    obtain ⟨x, y⟩ := p
    by_cases hx : x = a
    · by_cases hk : k = a
      · simpa [hx, hk] using ih
      · have : (k == x) = false := by simpa [hx] using hk
        simp only [hx, bne_self_eq_false, Bool.false_eq_true, not_false_eq_true,
          List.filter_cons_of_neg, ih, hk, if_false, List.lookup_cons]
        rw [hx] at this
        simp [this]
    · by_cases hk : k = x
      · simp [hx, hk]
      · have : (k == x) = false := by simpa using hk
        simp [hx, this, List.lookup_cons, ih]

theorem quietly_clearFinalizePending : Quietly (clearFinalizePending cfg j) := by
  unfold clearFinalizePending
  split
  · exact Prog.Within.pure ()
  · refine Prog.Within.tryCatch (quietly_redisWrite fun s => ?_) fun _ => Prog.Within.pure ()
    refine { Hushed.refl s with mode := fun i m h => ?_, collection := fun i c h => ?_ }
    · simp only [Sys.storedMode, lookup_filter] at h ⊢
      split at h
      · cases h
      · exact h
    · simp only [Sys.storedCollection, lookup_filter] at h ⊢
      split at h
      · cases h
      · exact h

theorem lookup_setFinalizeState (s : Sys) (f : FinalizeState → FinalizeState) (i : JobId) :
    (s.setFinalizeState j f).finalizeState.lookup i =
      if i = j then some (f ((s.finalizeState.lookup j).getD .empty))
      else s.finalizeState.lookup i := by
  simp only [Sys.setFinalizeState, List.lookup_cons, lookup_filter]
  by_cases h : i = j
  · simp [h]
  · have : (i == j) = false := by simpa using h
    simp [h, this]

theorem quietly_recordFinalizeError (message : Text) (attempt : Nat) :
    Quietly (recordFinalizeError cfg j message attempt) := by
  unfold recordFinalizeError
  split
  · exact Prog.Within.pure ()
  · refine quietly_retry (quietly_redisWrite fun s => ?_) _
    refine { Hushed.refl s with mode := fun i m h => ?_, collection := fun i c h => ?_ }
    · simp only [Sys.storedMode, lookup_setFinalizeState] at h ⊢
      split at h
      · rename_i hij
        subst hij
        cases hl : s.finalizeState.lookup i <;> simp_all [FinalizeState.empty]
      · exact h
    · simp only [Sys.storedCollection, lookup_setFinalizeState] at h ⊢
      split at h
      · rename_i hij
        subst hij
        cases hl : s.finalizeState.lookup i <;> simp_all [FinalizeState.empty]
      · exact h

theorem quietly_removeFinalizeFromQueue : Quietly (removeFinalizeFromQueue cfg j) := by
  unfold removeFinalizeFromQueue
  split
  · exact Prog.Within.pure ()
  · refine Prog.Within.bind (quietly_redisRead _) fun queue => ?_
    refine Prog.Within.forEach fun payload _ =>
      Prog.Within.tryCatch (quietly_redisWrite fun s => ?_) fun _ => Prog.Within.pure ()
    exact { Hushed.refl s with queue := fun p hp => List.mem_of_mem_erase hp }

theorem quietly_closeFinalize : Quietly (closeFinalize cfg j) :=
  Prog.Within.bind quietly_clearFinalizePending fun _ => quietly_unregister

theorem quietly_queueTileBuild (requested : Bool) :
    Quietly (queueTileBuildIfRequested cfg c requested) := by
  unfold queueTileBuildIfRequested
  split
  · exact Prog.Within.pure ()
  · split
    · exact Prog.Within.pure ()
    · exact Prog.Within.tryCatch (quietly_redisWrite fun s => { Hushed.refl s with })
        fun _ => Prog.Within.pure ()

theorem quietly_finalizeAfterPromote : Quietly (finalizeAfterPromote cfg c) := by
  have hid : Quietly (Prog.write .db id : Work Unit) :=
    Prog.Within.write (quiet_db Hushed.refl)
  have hcount : Quietly (updateFeatureCount cfg c) := by
    refine quietly_runDbRetry (Prog.Within.write (quiet_db fun s => ?_)) _
    exact { Hushed.refl s with }
  refine Prog.Within.bind hcount fun _ => ?_
  cases cfg.bulkExtentUpdateMode with
  | deferred => exact hid
  | immediate => exact Prog.Within.bind hid fun _ => hid
  | bestEffort =>
    exact Prog.Within.bind (Prog.Within.tryCatch hid fun _ => Prog.Within.pure ()) fun _ => hid

/-! ## Duplicates -/

theorem duplicateSlots_eq_nil (t : Table) : duplicateSlots t = [] := by
  refine List.filter_eq_nil_iff.mpr fun x hx hdup => ?_
  obtain ⟨y, hy, h⟩ := List.any_eq_true.mp hdup
  simp only [Bool.and_eq_true, decide_eq_true_eq, Bool.or_eq_true] at h
  have hkeys : (t.slots.map fun x => x.2.key).Nodup := by
    have := t.pk_rows
    rwa [← t.map_snd_slots, List.map_map] at this
  have hxy : y = x := List.inj_on_of_nodup_map hkeys hy hx h.1
  rw [hxy] at h
  rcases h.2 with h | h
  · exact Nat.lt_irrefl _ h
  · exact Nat.lt_irrefl _ h.2

theorem quietly_stagingDuplicateCount : Quietly (stagingDuplicateCount j) := quietly_query _

theorem quietly_dedupe : Quietly (dedupeStagingTable j) := by
  refine Prog.Within.atomic (quiet_db fun s => ?_)
  cases h : s.catalog.find (stagingTableName j) with
  | none => simp only [h]; exact Hushed.refl s
  | some t =>
    simp only [h, duplicateSlots_eq_nil, List.map_nil]
    exact { Hushed.refl s with catalog := Catalog.onTable_deleteNothing .. }

theorem quietly_prepareStagingForPromote : Quietly (prepareStagingForPromote j) := by
  refine Prog.Within.bind quietly_stagingDuplicateCount fun dupes => ?_
  split
  · exact Prog.Within.pure _
  · refine Prog.Within.bind quietly_dedupe fun _ => ?_
    refine Prog.Within.bind quietly_stagingDuplicateCount fun _ => ?_
    split
    · exact Prog.Within.throw _
    · exact Prog.Within.pure _

/-! ## Decisions of the recovery passes -/

theorem quietly_listAllJobs (limit : Nat) : Quietly (listAllJobs limit) :=
  Prog.Within.read _ ⟨rfl, Hushed.refl⟩

theorem quietly_loadStillInProgress (job : JobInfo) : Quietly (loadStillInProgress cfg job) := by
  unfold loadStillInProgress
  split
  · exact Prog.Within.pure _
  · refine Prog.Within.bind quietly_holds fun held => ?_
    split
    · exact Prog.Within.pure _
    · split
      · exact Prog.Within.bind (quietly_redisRead _) fun _ => Prog.Within.pure _
      · exact Prog.Within.pure _

theorem quietly_isReconcileCandidate (job : JobInfo) :
    Quietly (isReconcileCandidate cfg job) := by
  unfold isReconcileCandidate
  split
  · exact Prog.Within.pure _
  · refine Prog.Within.bind (quietly_loadStillInProgress job) fun loading => ?_
    split
    · exact Prog.Within.pure _
    · exact Prog.Within.pure _

theorem quietly_shouldAbandon (job : JobInfo) : Quietly (shouldAbandonDuplicateJob cfg job) := by
  unfold shouldAbandonDuplicateJob
  split
  · exact Prog.Within.pure _
  · refine Prog.Within.bind quietly_getFinalizeState fun state => ?_
    dsimp only
    split
    · exact Prog.Within.pure _
    · split
      · exact Prog.Within.pure _
      · exact Prog.Within.pure _

theorem quietly_shouldAttemptRecovery (job : JobInfo) :
    Quietly (shouldAttemptRunningStagingRecovery cfg job) := by
  refine Prog.Within.bind (quietly_redisRead _) fun now => ?_
  dsimp only
  split
  · exact Prog.Within.pure _
  · exact Prog.Within.bind quietly_holds fun _ => Prog.Within.pure _

end

end Bulk
end Geofastmap
