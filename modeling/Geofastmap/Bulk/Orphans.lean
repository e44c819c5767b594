import Geofastmap.Bulk.Quiet

/-!
# Geofastmap.Bulk.Orphans

What a pass of `fail_stale_running_jobs` does to the partitions of `features`. The pass drops the
staging tables of the jobs it fails and every other table whose name begins like one, and a table
that was swapped in keeps such a name.

* `failStaleRunningJob_run`, `cleanup_run` — which tables a step of the pass drops.
* `passes_untouched_iff` — along every run, each pass leaves every partition and all rows, if and
  only if it starts in a state with `Spared`.
-/

namespace Geofastmap
namespace Bulk

open Db Interleave

/-! ## Steps that leave the tables alone -/

/-- A step that changes neither the catalog nor the clock. -/
def Aside (_ : Label) (g : Sys → Sys) : Prop :=
  ∀ s, (g s).catalog = s.catalog ∧ (g s).now = s.now

theorem aside_of_quiet {l : Label} {g : Sys → Sys} (h : Quiet l g) : Aside l g :=
  fun s => ⟨(h.2 s).catalog, (h.2 s).now⟩

theorem aside_run {α : Type} {p : Work α} (h : p.Within Aside) (s : Sys) :
    (p.run s).2.catalog = s.catalog ∧ (p.run s).2.now = s.now :=
  h.run (R := fun s t => t.catalog = s.catalog ∧ t.now = s.now) (fun _ => ⟨rfl, rfl⟩)
    (fun _ _ _ h₁ h₂ => ⟨h₂.1.trans h₁.1, h₂.2.trans h₁.2⟩) (fun _ _ hg => hg) s

section
variable {cfg : Settings}

theorem total_redisRetry {α : Type} {p : Work α} (h : p.Total) (n : Nat) :
    (runRedisRetry n p).Total := Prog.Total.retry h _

theorem total_release {c : CollectionId} {j : JobId} :
    (releaseCollectionBulkMutex cfg c j).Total := by
  unfold releaseCollectionBulkMutex
  split
  · exact Prog.Total.pure ()
  · refine total_redisRetry (Prog.Total.bind (Prog.Total.read _ _) fun _ => ?_) _
    split
    · exact Prog.Total.write _ _
    · exact Prog.Total.pure ()

theorem total_updateJob {j : JobId} {u : JobUpdate} : (updateJob cfg j u).Total := by
  refine Prog.Total.bind (total_redisRetry (Prog.Total.read _ _) _) fun job => ?_
  cases job with
  | none => exact Prog.Total.pure ()
  | some job =>
    refine Prog.Total.bind (total_redisRetry (Prog.Total.write _ _) _) fun _ => ?_
    split
    · split
      · exact Prog.Total.tryCatch fun _ => Prog.Total.pure ()
      · exact Prog.Total.pure ()
    · exact Prog.Total.pure ()

theorem aside_release (c : CollectionId) (j : JobId) :
    (releaseCollectionBulkMutex cfg c j).Within Aside :=
  within_release (fun _ => ⟨rfl, rfl⟩) fun _ => ⟨rfl, rfl⟩

variable (cfg) in
theorem run_release (c : CollectionId) (j : JobId) (s : Sys) :
    ∃ s', (releaseCollectionBulkMutex cfg c j).run s = (.ok (), s') ∧
      s'.catalog = s.catalog ∧ s'.now = s.now := by
  obtain ⟨_, s', h⟩ := @total_release cfg c j s
  have := aside_run (@aside_release cfg c j) s
  rw [h] at this
  exact ⟨s', h, this⟩

theorem aside_updateJob (j : JobId) (u : JobUpdate) : (updateJob cfg j u).Within Aside :=
  within_updateJob (aside_of_quiet (quiet_redis Hushed.refl)) (fun d => aside_release d j) fun _ => ⟨rfl, rfl⟩

variable (cfg) in
theorem run_updateJob (j : JobId) (u : JobUpdate) (s : Sys) :
    ∃ s', (updateJob cfg j u).run s = (.ok (), s') ∧ s'.catalog = s.catalog ∧ s'.now = s.now := by
  obtain ⟨_, s', h⟩ := @total_updateJob cfg j u s
  have := aside_run (@aside_updateJob cfg j u) s
  rw [h] at this
  exact ⟨s', h, this⟩

theorem aside_markFinalizePending (payload : BulkFinalizePayload) :
    (markFinalizePending cfg payload).Within Aside := by
  unfold markFinalizePending
  split
  · exact Prog.Within.pure ()
  · refine Prog.Within.retry (Prog.Within.bind (Prog.Within.write fun _ => ⟨rfl, rfl⟩) fun _ => ?_) _
    exact Prog.Within.bind (Prog.Within.write fun _ => ⟨rfl, rfl⟩) fun _ =>
      Prog.Within.write fun _ => ⟨rfl, rfl⟩

theorem aside_enqueueFinalize (payload : BulkFinalizePayload) (force : Bool) :
    (enqueueFinalize cfg payload force).Within Aside := by
  unfold enqueueFinalize
  split
  · exact Prog.Within.pure _
  · refine Prog.Within.retry ?_ _
    have hpush : ∀ pending : Bool, (if pending = true then pure true else do
        markFinalizePending cfg payload
        Prog.write (.pushFinalize payload.jobId) fun s =>
          { s with finalizeQueue := payload :: s.finalizeQueue }
        pure true : Work Bool).Within Aside := by
      intro pending
      split
      · exact Prog.Within.pure _
      · refine Prog.Within.bind (aside_markFinalizePending payload) fun _ => ?_
        exact Prog.Within.bind (Prog.Within.write fun _ => ⟨rfl, rfl⟩) fun _ => Prog.Within.pure _
    dsimp only
    split
    · exact hpush false
    · exact Prog.Within.bind (Prog.Within.read _ fun _ => ⟨rfl, rfl⟩) hpush

/-- A queue that is there takes the payload. -/
theorem run_enqueueFinalize (hr : cfg.bulkQueueRedis = true) (payload : BulkFinalizePayload)
    (force : Bool) (s : Sys) : ∃ s', (enqueueFinalize cfg payload force).run s = (.ok true, s') := by
  have hmark : ∀ s, ∃ s', (markFinalizePending cfg payload).run s = (.ok (), s') := by
    intro s
    have : (markFinalizePending cfg payload).Total := by
      unfold markFinalizePending
      split
      · exact Prog.Total.pure ()
      · refine total_redisRetry (Prog.Total.bind (Prog.Total.write _ _) fun _ => ?_) _
        exact Prog.Total.bind (Prog.Total.write _ _) fun _ => Prog.Total.write _ _
    obtain ⟨_, s', h⟩ := this s
    exact ⟨s', h⟩
  have hpush : ∀ (pending : Bool) s, ∃ s', (if pending = true then pure true else do
      markFinalizePending cfg payload
      Prog.write (.pushFinalize payload.jobId) fun s =>
        { s with finalizeQueue := payload :: s.finalizeQueue }
      pure true : Work Bool).run s = (.ok true, s') := by
    intro pending s
    cases pending with
    | true => exact ⟨s, rfl⟩
    | false =>
      obtain ⟨s', h⟩ := hmark s
      exact ⟨_, by simp only [Bool.false_eq_true, if_false, Prog.run_bind, h]; rfl⟩
  unfold enqueueFinalize
  simp only [hr, Bool.not_true, Bool.false_eq_true, if_false]
  cases force with
  | true =>
    obtain ⟨s', h⟩ := hpush false s
    exact ⟨s', Prog.run_retry h _⟩
  | false =>
    obtain ⟨s', h⟩ := hpush (s.finalizePending.contains payload.jobId) s
    refine ⟨s', Prog.run_retry ?_ _⟩
    simp only [Bool.false_eq_true, if_false, redisRead, Prog.run_bind, Prog.run_read]
    exact h

/-! ## One job of the pass -/

/-- A stale job is looked at for recovery when it is old enough for that too. -/
theorem run_shouldAttempt (job : JobInfo) (s : Sys)
    (hold : staleAge cfg ≤ s.now - jobLastProgress job) :
    (shouldAttemptRunningStagingRecovery cfg job).run s =
      (.ok (decide (runningRecoverAge cfg 300000000 ≤ s.now - jobLastProgress job)), s) := by
  unfold shouldAttemptRunningStagingRecovery
  simp only [redisRead, Prog.run_bind, Prog.run_read]
  by_cases h : s.now - jobLastProgress job < runningRecoverAge cfg 300000000
  · rw [if_pos h, decide_eq_false (Nat.not_le.mpr h)]
    rfl
  · rw [if_neg h, decide_eq_true (Nat.not_lt.mp h)]
    obtain ⟨holder, hh⟩ := run_getHolder cfg job.collectionId s
    simp only [holdsCollectionBulkMutex, Prog.run_bind, hh, Prog.run_pure,
      decide_eq_false (Nat.not_lt.mpr hold), Bool.and_false, Bool.not_false]

theorem aside_recoverRunning (job : JobInfo) :
    (recoverRunningJobToFinalize cfg job).Within Aside := by
  unfold recoverRunningJobToFinalize
  split
  · exact Prog.Within.pure _
  · refine Prog.Within.bind (Prog.Within.tryCatch (Prog.Within.read _ fun _ => ⟨rfl, rfl⟩)
      fun _ => Prog.Within.pure _) fun staged => ?_
    split
    · exact Prog.Within.pure _
    · refine Prog.Within.bind (quietly_isFinalizePending.mono fun _ _ => aside_of_quiet)
        fun pending => ?_
      split
      · exact Prog.Within.bind (aside_updateJob _ _) fun _ => Prog.Within.pure _
      · refine Prog.Within.bind (aside_enqueueFinalize _ _) fun queued => ?_
        split
        · exact Prog.Within.pure _
        · refine Prog.Within.bind (aside_updateJob _ _) fun _ => ?_
          exact Prog.Within.bind (aside_release _ _)
            fun _ => Prog.Within.pure _

/-- With the finalize queue on, staged rows are queued instead of failed. -/
theorem run_recoverRunning (hr : cfg.bulkQueueRedis = true) (job : JobInfo) (s : Sys) :
    ∃ s', (recoverRunningJobToFinalize cfg job).run s =
        (.ok (cfg.bulkFinalizeQueueEnabled &&
          decide (0 < rowCount s.catalog (stagingTableName job.jobId))), s') ∧
      s'.catalog = s.catalog ∧ s'.now = s.now := by
  have hside := aside_run (@aside_recoverRunning cfg job) s
  suffices h : ((recoverRunningJobToFinalize cfg job).run s).1 =
      .ok (cfg.bulkFinalizeQueueEnabled &&
        decide (0 < rowCount s.catalog (stagingTableName job.jobId))) from
    ⟨_, Prod.ext h rfl, hside⟩
  clear hside
  unfold recoverRunningJobToFinalize
  cases hq : cfg.bulkFinalizeQueueEnabled with
  | false => simp [hr]
  | true =>
    simp only [hr, Bool.not_true, Bool.or_false, Bool.false_eq_true, if_false, Bool.true_and,
      Prog.run_bind, Prog.run_tryCatch, Prog.run_read]
    by_cases h0 : rowCount s.catalog (stagingTableName job.jobId) = 0
    · simp [h0]
    · rw [if_neg h0, decide_eq_true (Nat.pos_of_ne_zero h0)]
      have hpend : (isFinalizePending cfg job.jobId).run s =
          (.ok (s.finalizePending.contains job.jobId), s) := by
        unfold isFinalizePending
        simp only [hr, Bool.not_true, Bool.false_eq_true, if_false]
        exact run_redisRead 5 _
      simp only [Prog.run_bind, hpend]
      split
      · obtain ⟨s', h, _⟩ := run_updateJob cfg job.jobId
          { status := some .finalizing
            message := some ("Loaded ".toList ++
              Sql.commaDigits (rowCount s.catalog (stagingTableName job.jobId)) ++
              " features into staging; partition swap queued…".toList)
            itemsCreated := some (rowCount s.catalog (stagingTableName job.jobId)) } s
        simp only [Prog.run_bind, h, Prog.run_pure]
      · obtain ⟨s', h⟩ := run_enqueueFinalize hr
          { jobId := job.jobId, collectionId := job.collectionId,
            mode := if readsReplace job then .replace else .append,
            itemsCreated := rowCount s.catalog (stagingTableName job.jobId),
            itemsFailed := job.itemsFailed, ownerId := job.ownerId,
            queueComputeTiles := false, attempt := 0 } false s
        simp only [Prog.run_bind, h, Bool.not_true, Bool.false_eq_true, if_false]
        obtain ⟨s₁, h₁, _⟩ := run_updateJob cfg job.jobId
          { status := some .finalizing
            message := some ("Recovered: ".toList ++
              Sql.commaDigits (rowCount s.catalog (stagingTableName job.jobId)) ++
              " features in staging; partition swap queued (watchdog).".toList)
            itemsCreated := some (rowCount s.catalog (stagingTableName job.jobId)) } s'
        obtain ⟨s₂, h₂, _⟩ := run_release cfg job.collectionId job.jobId s₁
        simp only [h₁, h₂, Prog.run_pure]

theorem run_tryRecover (hr : cfg.bulkQueueRedis = true) (job : JobInfo) (s : Sys)
    (hold : staleAge cfg ≤ s.now - jobLastProgress job) :
    ∃ s', (tryRecoverRunningJob cfg job).run s =
        (.ok (decide (runningRecoverAge cfg 300000000 ≤ s.now - jobLastProgress job) &&
          (cfg.bulkFinalizeQueueEnabled &&
            decide (0 < rowCount s.catalog (stagingTableName job.jobId)))), s') ∧
      s'.catalog = s.catalog ∧ s'.now = s.now := by
  simp only [tryRecoverRunningJob, Prog.run_bind, run_shouldAttempt job s hold]
  by_cases ha : runningRecoverAge cfg 300000000 ≤ s.now - jobLastProgress job
  · simp only [ha, decide_true, if_true, Bool.true_and]
    exact run_recoverRunning hr job s
  · simp only [ha, decide_false, Bool.false_eq_true, if_false, Bool.false_and]
    exact ⟨s, rfl, rfl, rfl⟩

end

/-- A job that a pass at `now` fails: it is running, has made no progress for too long, and is not
recovered from its staged rows. -/
def FailsStale (cfg : Settings) (now : Nat) (k : Catalog) (job : JobInfo) : Prop :=
  (job.status = .running ∨ job.status = .replacing) ∧
    staleAge cfg ≤ now - jobLastProgress job ∧
    ¬(runningRecoverAge cfg 300000000 ≤ now - jobLastProgress job ∧
      cfg.bulkFinalizeQueueEnabled = true ∧ 0 < rowCount k (stagingTableName job.jobId))

instance (cfg : Settings) (now : Nat) (k : Catalog) (job : JobInfo) :
    Decidable (FailsStale cfg now k job) := by
  unfold FailsStale; infer_instance

/-- The tables after one job of the pass. -/
def failStaleCatalog (cfg : Settings) (now : Nat) (k : Catalog) (job : JobInfo) : Catalog :=
  if FailsStale cfg now k job then k.drop (stagingTableName job.jobId) else k

theorem failStaleRunningJob_run {cfg : Settings} (hr : cfg.bulkQueueRedis = true) (job : JobInfo)
    (s : Sys) : ∃ s', (failStaleRunningJob cfg s.now job).run s = (.ok (), s') ∧
      s'.catalog = failStaleCatalog cfg s.now s.catalog job ∧ s'.now = s.now := by
  unfold failStaleRunningJob failStaleCatalog
  by_cases hrun : job.status ≠ .running ∧ job.status ≠ .replacing
  · refine ⟨s, by rw [if_pos hrun]; rfl, ?_, rfl⟩
    rw [if_neg fun h => h.1.elim hrun.1 hrun.2]
  rw [if_neg hrun]
  have hrun' : job.status = .running ∨ job.status = .replacing := by
    by_contra h; exact hrun (not_or.mp h)
  by_cases hage : s.now - jobLastProgress job < staleAge cfg
  · refine ⟨s, by simp only [if_pos hage]; rfl, ?_, rfl⟩
    rw [if_neg fun h => Nat.not_le.mpr hage h.2.1]
  have hold := Nat.not_lt.mp hage
  obtain ⟨s₁, h₁, hk₁, hn₁⟩ := run_tryRecover hr job s hold
  simp only [if_neg hage, Prog.run_bind, h₁]
  by_cases hgo : runningRecoverAge cfg 300000000 ≤ s.now - jobLastProgress job ∧
      cfg.bulkFinalizeQueueEnabled = true ∧ 0 < rowCount s.catalog (stagingTableName job.jobId)
  · refine ⟨s₁, by simp [hgo.1, hgo.2.1, hgo.2.2], ?_, hn₁⟩
    rw [if_neg fun h => h.2.2 hgo, hk₁]
  -- the job is marked failed, gives its mutex back and loses its staging table
  have hback : (decide (runningRecoverAge cfg 300000000 ≤ s.now - jobLastProgress job) &&
      (cfg.bulkFinalizeQueueEnabled &&
        decide (0 < rowCount s.catalog (stagingTableName job.jobId)))) = false := by
    rw [Bool.eq_false_iff]
    simpa using hgo
  simp only [hback, Bool.false_eq_true, if_false, Prog.run_bind, Prog.run_tryCatch]
  obtain ⟨s₂, h₂, hk₂, hn₂⟩ := run_updateJob cfg job.jobId
    { status := some .failed
      message := some ("Bulk import stalled (no progress for ".toList ++
        Sql.digits ((s.now - jobLastProgress job) / 1000000) ++
        "s); job marked failed by watchdog.".toList) } s₁
  obtain ⟨s₃, h₃, hk₃, hn₃⟩ := run_release cfg job.collectionId job.jobId s₂
  have hdrop : (dropStagingTable job.jobId).run s₃ =
      (.ok (), { s₃ with catalog := s₃.catalog.drop (stagingTableName job.jobId) }) := rfl
  refine ⟨{ s₃ with catalog := s₃.catalog.drop (stagingTableName job.jobId) }, ?_, ?_, ?_⟩
  · simp only [h₂, Prog.run_pure, Bool.not_true, Bool.false_eq_true, if_false, Prog.run_bind, h₃,
      Prog.run_tryCatch, hdrop]
  · rw [if_pos ⟨hrun', hold, hgo⟩, hk₃, hk₂, hk₁]
  · exact hn₃.trans (hn₂.trans hn₁)

/-! ## The pass -/

theorem failStaleLoop_run {cfg : Settings} (hr : cfg.bulkQueueRedis = true) (jobs : List JobInfo)
    (s : Sys) : ∃ s', (Prog.forEach (failStaleRunningJob cfg s.now) jobs).run s = (.ok (), s') ∧
      s'.catalog = jobs.foldl (failStaleCatalog cfg s.now) s.catalog ∧ s'.now = s.now := by
  induction jobs generalizing s with
  | nil => exact ⟨s, rfl, rfl, rfl⟩
  | cons job jobs ih =>
    obtain ⟨s₁, h₁, hk₁, hn₁⟩ := failStaleRunningJob_run hr job s
    obtain ⟨s₂, h₂, hk₂, hn₂⟩ := ih s₁
    rw [hn₁] at h₂ hk₂
    refine ⟨s₂, ?_, by rw [hk₂, hk₁]; rfl, hn₂.trans hn₁⟩
    change ((failStaleRunningJob cfg s.now job) >>= fun _ => _).run s = _
    simp only [Prog.run_bind, h₁, h₂]

/-- A table that bears the name of a staging table of no given job. -/
def Orphan (ids : List JobId) (n : RelName) : Prop :=
  Sql.like (stagingTablePrefix ++ ['%']) n = true ∧ ∀ j ∈ ids, stagingTableName j ≠ n

theorem mem_drop {k : Catalog} {n : RelName} {t : Table} :
    t ∈ (k.drop n).tables ↔ t ∈ k.tables ∧ t.name ≠ n := by
  simp [Catalog.drop]

/-- Statements that only drop tables. -/
def Pruned (k k' : Catalog) : Prop := ∃ p, k'.tables = k.tables.filter p

theorem Pruned.refl (k : Catalog) : Pruned k k := ⟨fun _ => true, by simp⟩

theorem Pruned.trans {k₁ k₂ k₃ : Catalog} (h₁ : Pruned k₁ k₂) (h₂ : Pruned k₂ k₃) :
    Pruned k₁ k₃ := by
  obtain ⟨p, hp⟩ := h₁
  obtain ⟨q, hq⟩ := h₂
  exact ⟨fun t => p t && q t, by rw [hq, hp, List.filter_filter]; simp [Bool.and_comm]⟩

theorem pruned_drop (k : Catalog) (n : RelName) : Pruned k (k.drop n) := ⟨_, rfl⟩

/-- When every partition stays, so do all live rows. -/
theorem Pruned.rowsOf {k k' : Catalog} (h : Pruned k k')
    (hlive : ∀ t ∈ k.tables, t.attached = true → t ∈ k'.tables) (c : CollectionId) :
    k'.rowsOf c = k.rowsOf c := by
  obtain ⟨p, hp⟩ := h
  rw [Catalog.rowsOf_eq, Catalog.rowsOf_eq, hp]
  refine Catalog.flatMap_filter_of_nil fun t ht hpt => ?_
  have hatt : t.attached = false := by
    rw [Bool.eq_false_iff]
    intro ha
    have := hlive t ht ha
    rw [hp, List.mem_filter] at this
    exact Bool.false_ne_true (hpt.symm.trans this.2)
  simp [Table.part, hatt]

theorem cleanup_run (ids : List JobId) (s : Sys) :
    ∃ s', (cleanupOrphanStagingTables ids).run s = (.ok (), s') ∧ Pruned s.catalog s'.catalog ∧
      ∀ t, t ∈ s'.catalog.tables ↔ t ∈ s.catalog.tables ∧ ¬Orphan ids t.name := by
  have hloop : ∀ (names : List RelName) (s : Sys), ∃ s',
      (Prog.forEach (fun relname =>
        if ids.any fun j => stagingTableName j == relname then pure ()
        else execute .db fun k => .ok (k.drop relname)) names : Work Unit).run s = (.ok (), s') ∧
      Pruned s.catalog s'.catalog ∧
      ∀ t, t ∈ s'.catalog.tables ↔ t ∈ s.catalog.tables ∧
        ¬(t.name ∈ names ∧ ∀ j ∈ ids, stagingTableName j ≠ t.name) := by
    intro names
    induction names with
    | nil => intro s; exact ⟨s, rfl, Pruned.refl _, fun t => by simp⟩
    | cons n names ih =>
      intro s
      by_cases hact : (ids.any fun j => stagingTableName j == n) = true
      · obtain ⟨s', h, hp, hm⟩ := ih s
        refine ⟨s', ?_, hp, fun t => ?_⟩
        · change (_ >>= fun _ => _ : Work Unit).run s = _
          simp only [hact, if_true, Prog.run_bind, Prog.run_pure, h]
        · obtain ⟨j, hj, hjn⟩ := List.any_eq_true.mp hact
          rw [hm t, List.mem_cons]
          refine and_congr_right fun _ => not_congr ⟨fun h => ⟨.inr h.1, h.2⟩, fun h => ⟨?_, h.2⟩⟩
          rcases h.1 with he | h1
          · exact absurd ((beq_iff_eq.mp hjn).trans he.symm) (h.2 j hj)
          · exact h1
      · have hall : ∀ j ∈ ids, stagingTableName j ≠ n := by
          intro j hj he
          exact hact (List.any_eq_true.mpr ⟨j, hj, beq_iff_eq.mpr he⟩)
        obtain ⟨s', h, hp, hm⟩ := ih { s with catalog := s.catalog.drop n }
        have hdrop : (execute .db fun k => .ok (k.drop n) : Work Unit).run s =
            (.ok (), { s with catalog := s.catalog.drop n }) := rfl
        refine ⟨s', ?_, (pruned_drop _ n).trans hp, fun t => ?_⟩
        · change (_ >>= fun _ => _ : Work Unit).run s = _
          simp only [if_neg hact, Prog.run_bind, hdrop, h]
        · rw [hm t, mem_drop, List.mem_cons, and_assoc]
          refine and_congr_right fun _ => ⟨fun h hn => ?_, fun h => ⟨fun he => ?_, fun hn => ?_⟩⟩
          · exact hn.1.elim h.1 fun hn' => h.2 ⟨hn', hn.2⟩
          · exact h ⟨.inl he, he ▸ hall⟩
          · exact h ⟨.inr hn.1, hn.2⟩
  obtain ⟨s', h, hp, hm⟩ := hloop (listOrphanStagingTables s.catalog) s
  refine ⟨s', ?_, hp, fun t => ?_⟩
  · simp only [cleanupOrphanStagingTables, query, Prog.run_bind, Prog.run_read, h]
  · rw [hm t]
    refine and_congr_right fun ht => not_congr (and_congr_left fun _ => ?_)
    rw [listOrphanStagingTables, List.mem_filter]
    exact and_iff_right (List.mem_map_of_mem ht)

theorem pruned_failStale (cfg : Settings) (now : Nat) (jobs : List JobInfo) (k : Catalog) :
    Pruned k (jobs.foldl (failStaleCatalog cfg now) k) := by
  induction jobs generalizing k with
  | nil => exact Pruned.refl k
  | cons job jobs ih =>
    refine Pruned.trans ?_ (ih _)
    unfold failStaleCatalog
    split
    · exact pruned_drop ..
    · exact Pruned.refl k

theorem failsStale_of_find {cfg : Settings} {now : Nat} {k k' : Catalog} {job : JobInfo}
    (h : k'.find (stagingTableName job.jobId) = k.find (stagingTableName job.jobId)) :
    FailsStale cfg now k' job ↔ FailsStale cfg now k job := by
  simp only [FailsStale, rowCount, h]

/-- The tables that the first half of the pass leaves. -/
theorem mem_failStale {cfg : Settings} {now : Nat} {jobs : List JobInfo} {k : Catalog}
    {t : Table} : t ∈ (jobs.foldl (failStaleCatalog cfg now) k).tables ↔ t ∈ k.tables ∧
      ∀ job ∈ jobs, stagingTableName job.jobId = t.name → ¬FailsStale cfg now k job := by
  induction jobs generalizing k with
  | nil => simp
  | cons job jobs ih =>
    rw [List.foldl_cons, ih, List.forall_mem_cons]
    unfold failStaleCatalog
    by_cases hf : FailsStale cfg now k job
    · rw [if_pos hf, mem_drop, and_assoc]
      refine and_congr_right fun ht => ⟨fun h => ⟨?_, fun job' hjob' hn => ?_⟩,
        fun h => ⟨?_, fun job' hjob' hn => ?_⟩⟩
      · exact fun hn => absurd hn.symm h.1
      · have := h.2 job' hjob' hn
        rwa [failsStale_of_find] at this
        rw [Catalog.find_drop, if_neg (hn ▸ h.1)]
      · exact fun hn => h.1 hn.symm hf
      · rw [failsStale_of_find]
        · exact h.2 job' hjob' hn
        · rw [Catalog.find_drop, if_neg (hn ▸ fun hn' => h.1 hn'.symm hf)]
    · rw [if_neg hf]
      exact and_congr_right fun _ => ⟨fun h => ⟨fun _ => hf, h⟩, And.right⟩

/-- The records `list_all_jobs(limit)` returns. -/
def Sys.newestJobs (s : Sys) (limit : Nat) : List JobInfo :=
  (s.jobs.insertionSort fun a b => b.updatedAt ≤ a.updatedAt).take limit

/-- A pass has nothing live to drop: it is switched off, or no partition has the name of a staging
table, but those of active jobs among the newest 500 that the pass does not fail. -/
def Spared (cfg : Settings) (s : Sys) : Prop :=
  cfg.bulkQueueRedis = true → shouldFailStaleRunning cfg = true →
    ∀ t ∈ s.catalog.tables, t.attached = true →
      (∀ job ∈ s.newestJobs 500, stagingTableName job.jobId = t.name →
        ¬FailsStale cfg s.now s.catalog job) ∧
      ¬Orphan (activeIds (s.newestJobs 500)) t.name

/-- Every partition is there as before, and every collection has the rows it had. -/
def Untouched (k k' : Catalog) : Prop :=
  (∀ t ∈ k.tables, t.attached = true → t ∈ k'.tables) ∧ ∀ c, k'.rowsOf c = k.rowsOf c

theorem pass_untouched_iff (cfg : Settings) (s : Sys) :
    Untouched s.catalog ((failStaleRunningJobs cfg).run s).2.catalog ↔ Spared cfg s := by
  have hsame : Untouched s.catalog s.catalog := ⟨fun _ ht _ => ht, fun _ => rfl⟩
  unfold failStaleRunningJobs
  cases hr : cfg.bulkQueueRedis with
  | false => exact iff_of_true hsame fun h => absurd (hr.symm.trans h) Bool.false_ne_true
  | true =>
    cases hs : shouldFailStaleRunning cfg with
    | false => exact iff_of_true hsame fun _ h => absurd (hs.symm.trans h) Bool.false_ne_true
    | true =>
      obtain ⟨s₁, h₁, hk₁, _⟩ := failStaleLoop_run hr (s.newestJobs 500) s
      obtain ⟨s₂, h₂, hp₂, hm₂⟩ := cleanup_run (activeIds (s.newestJobs 500)) s₁
      have hrun : (do
          let now ← redisRead Sys.now
          let jobs ← listAllJobs 500
          Prog.forEach (failStaleRunningJob cfg now) jobs
          tryCatch (cleanupOrphanStagingTables (activeIds jobs)) fun _ => pure () :
            Work Unit).run s = (.ok (), s₂) := by
        simp only [redisRead, listAllJobs, Prog.run_bind, Prog.run_read, Prog.run_tryCatch]
        rw [show (s.jobs.insertionSort fun a b => b.updatedAt ≤ a.updatedAt).take 500 =
          s.newestJobs 500 from rfl]
        simp only [h₁, h₂]
      simp only [Bool.not_true, Bool.false_eq_true, if_false, hrun]
      rw [hk₁] at hp₂ hm₂
      have hmem : ∀ t, t ∈ s₂.catalog.tables ↔ t ∈ s.catalog.tables ∧
          (∀ job ∈ s.newestJobs 500, stagingTableName job.jobId = t.name →
            ¬FailsStale cfg s.now s.catalog job) ∧
          ¬Orphan (activeIds (s.newestJobs 500)) t.name := by
        intro t
        rw [hm₂ t, mem_failStale, and_assoc]
      constructor
      · intro h _ _ t ht ha
        exact ((hmem t).mp (h.1 t ht ha)).2
      · intro h
        have hlive : ∀ t ∈ s.catalog.tables, t.attached = true → t ∈ s₂.catalog.tables :=
          fun t ht ha => (hmem t).mpr ⟨ht, h hr hs t ht ha⟩
        exact ⟨hlive, ((pruned_failStale cfg s.now _ _).trans hp₂).rowsOf hlive⟩

/-! ## Runs -/

/-- What happens in a run: a pass, or any other work. -/
inductive Event where
  | pass
  | work (p : Work Unit)

def Event.after (cfg : Settings) (s : Sys) : Event → Sys
  | .pass => ((failStaleRunningJobs cfg).run s).2
  | .work p => (p.run s).2

/-- `P` holds of the states before and after every pass of a run. -/
def AtPasses (cfg : Settings) (P : Sys → Sys → Prop) : Sys → List Event → Prop
  | _, [] => True
  | s, e :: es =>
    (match e with
      | .pass => P s (e.after cfg s)
      | .work _ => True) ∧ AtPasses cfg P (e.after cfg s) es

/-- In every run from every state, no pass drops a live partition or changes the rows of a
collection if and only if every pass starts in a state with `Spared`. -/
theorem passes_untouched_iff (cfg : Settings) (s : Sys) (es : List Event) :
    AtPasses cfg (fun s s' => Untouched s.catalog s'.catalog) s es ↔
      AtPasses cfg (fun s _ => Spared cfg s) s es := by
  induction es generalizing s with
  | nil => exact Iff.rfl
  | cons e es ih =>
    refine and_congr ?_ (ih _)
    cases e with
    | pass => exact pass_untouched_iff cfg s
    | work p => exact Iff.rfl

/-- A replace import of one row, on a server that fails stale jobs. -/
def importerJob : JobInfo :=
  ⟨importer, "a".toList, .finalizing, [], 1, 0, 0, 0, none, none, none⟩

def importerPayload : BulkFinalizePayload :=
  ⟨importer, "a".toList, .replace, 1, 0, none, false, 0⟩

def failingSettings : Settings :=
  { Settings.default with bulkWatchdogFailStaleRunning := some true }

def plainDigest : Digest := Digest.ofList [] (by simp) (by simp)

def replaceImport : List Event :=
  [.work (createStagingTable importer),
   .work (execute .db fun k => k.insertInto (stagingTableName importer) [rowA]),
   .work (processBulkFinalizeJob plainDigest failingSettings importerPayload)]

/-- The pass after a completed replace import drops the partition it swapped in. -/
theorem pass_drops_swapped_in :
    ¬AtPasses failingSettings (fun s s' => Untouched s.catalog s'.catalog)
      { Sys.idle Catalog.initial with jobs := [importerJob] } (replaceImport ++ [.pass]) := by
  intro h
  have hrows := h.2.2.2.1.2 "a".toList
  revert hrows
  decide +kernel

end Bulk
end Geofastmap
