import Geofastmap.Bulk.Mutex
import Geofastmap.Bulk.Services

/-!
# Geofastmap.Bulk.Modes

The import mode of a job, over all runs of the services that can promote it or queue its promotion.

A payload and the stored state of the finalize queue carry the mode; a job record does not. Where
no mode is stored, the recovery paths take it from the status and the message of the record, in
which error texts are copied. `ModeKnown` is what has to hold there, and
`promotions_keep_mode` the invariant of the runs in which it does.
-/

namespace Geofastmap
namespace Bulk

open Db Interleave

section
variable (cfg : Settings) (J : JobId) (m : Mode)

/-- What Redis holds for the job carries its mode. -/
structure CarriesMode (s : Sys) : Prop where
  queue : ∀ p ∈ s.finalizeQueue, p.jobId = J → p.mode = m
  stored : ∀ mode, s.storedMode J = some mode → mode = m

/-- A mode that a job may be promoted in. -/
def ModeOf (j : JobId) (mode : Mode) : Prop := j = J → mode = m

/-- What the mode of a job has to be for a recovery path to find it. -/
def ModeKnown : Path → JobInfo → Sys → Prop
  | .reconcile, job, s => s.stagedRows job.jobId ≠ 0 → readsReplace job = true → m = .replace
  | .stored, job, s => (s.stateOf cfg job.jobId).bind FinalizeState.mode = none → m = .append
  | .watchdog, job, s => s.stagedRows job.jobId ≠ 0 → modeRead job = m
  | .orphan, _, _ => True
  | .orphanStored, job, s =>
    (s.stateOf cfg job.jobId).bind FinalizeState.mode = none → modeRead job = m

/-- Any step may raise. A recovery path that looks at the job finds its mode. -/
def modeAssume : Assume Label Sys Exn where
  may l s := match l with
    | .recover path job => job.jobId = J → ModeKnown cfg m path job s
    | _ => True
  raises _ _ _ := True

/-- Steps that promote the job in its mode only, and swap it in only when that is a replace. -/
def InMode (l : Label) : Prop :=
  (∀ mode, l = .promote J mode → mode = m) ∧
    ∀ c, l = .swap c (stagingTableName J) → m = .replace

def modeGuarantee : Guarantee Label Sys where
  inv := CarriesMode J m
  rely _ _ := True
  rel _ _ := True
  must l _ := InMode J m l
  rely_refl _ := trivial
  rely_trans _ _ := trivial
  rel_refl _ := trivial

def ModeStep (l : Label) (g : Sys → Sys) : Prop :=
  InMode J m l ∧ ∀ s, CarriesMode J m s → CarriesMode J m (g s)

/-- A step that queues nothing and stores no mode; what is queued or stored may go. -/
def Forgets (g : Sys → Sys) : Prop := ∀ s, (g s).finalizeQueue ⊆ s.finalizeQueue ∧
  ∀ j mode, (g s).storedMode j = some mode → s.storedMode j = some mode

/-- The services of the bulk import, and other work. At its start a worker reclaims all stale
mutexes and runs a watchdog pass. -/
inductive ImportTask where
  | work (payload : BulkJobPayload)
  | finalize
  | reconcile (limit : Nat)
  | watchdog (failStaleRunning : Option Bool)
  | reclaimAll
  | requeueOrphans
  | failFinalizing
  | cancel (j : JobId)
  | update (j : JobId) (u : JobUpdate)
  | other (g : Sys → Sys) (h : Forgets g)

def ImportTask.entry (H : Digest) (files : Files) : ImportTask → Work Unit
  | .work payload => processBulkJob H cfg files payload
  | .finalize => finalizeWorkerTurn H cfg
  | .reconcile limit => reconcileAllStuckFinalizeJobs H cfg limit
  | .watchdog fail => runBulkWatchdogPass cfg fail
  | .reclaimAll => reclaimAllStaleBulkMutexes cfg
  | .requeueOrphans => reconcileOrphanFinalizeJobs cfg
  | .failFinalizing => failStaleFinalizingJobs cfg
  | .cancel j => cancelJob cfg j
  | .update j u => updateJob cfg j u
  | .other g _ => Prog.write .redis g

/-- The job is submitted in its mode. -/
def SubmittedIn : ImportTask → Sys → Prop
  | .work payload, _ => payload.jobId = J → payload.mode = .plain m
  | _, _ => True

end

variable {cfg : Settings} {H : Digest} {J : JobId} {m : Mode}

theorem CarriesMode.forget {s : Sys} {g : Sys → Sys} (h : CarriesMode J m s) (hg : Forgets g) :
    CarriesMode J m (g s) where
  queue p hp := h.queue p ((hg s).1 hp)
  stored mode hmode := h.stored mode ((hg s).2 J mode hmode)

theorem forgets_of_eq {g : Sys → Sys} (hq : ∀ s, (g s).finalizeQueue = s.finalizeQueue)
    (hs : ∀ s, (g s).finalizeState = s.finalizeState) : Forgets g := by
  refine fun s => ⟨by rw [hq s]; exact List.Subset.refl _, fun j mode h => ?_⟩
  unfold Sys.storedMode at h ⊢
  rwa [hs s] at h

theorem forgets_onDb (f : Catalog → Except DbError Catalog) : Forgets (Sys.onDb f) := by
  refine forgets_of_eq (fun s => ?_) fun s => ?_
  · unfold Sys.onDb; split <;> rfl
  · unfold Sys.onDb; split <;> rfl

theorem modeStep_forgets {l : Label} {g : Sys → Sys} (hl : InMode J m l) (hg : Forgets g) :
    ModeStep J m l g := ⟨hl, fun _ h => h.forget hg⟩

theorem inMode_of {l : Label} (hp : ∀ j mode, l ≠ .promote j mode) (hs : ∀ c n, l ≠ .swap c n) :
    InMode J m l := ⟨fun mode h => absurd h (hp J mode), fun c h => absurd h (hs c _)⟩

theorem modeStep_quiet {l : Label} {g : Sys → Sys} (h : Quiet l g) : ModeStep J m l g := by
  refine modeStep_forgets (inMode_of (fun j mode hl => ?_) fun c n hl => ?_)
    fun s => ⟨(h.2 s).queue, (h.2 s).mode⟩
  · have := h.1; rw [hl] at this; cases this
  · have := h.1; rw [hl] at this; cases this

theorem modeStep_db (f : Catalog → Except DbError Catalog) : ModeStep J m .db (Sys.onDb f) :=
  modeStep_forgets (inMode_of (by simp) (by simp)) (forgets_onDb f)

/-- The statements of a promotion. -/
theorem modeStep_promote {j : JobId} {mode : Mode} (hm : ModeOf J m j mode) (c : CollectionId) :
    (promoteStaging H cfg c j mode).Within (ModeStep J m) := by
  have hq : ∀ l g, Quiet l g → ModeStep J m l g := fun _ _ => modeStep_quiet
  have hbegin : ModeStep J m (.promote j mode) id := by
    refine ⟨⟨fun mode' h => ?_, by simp⟩, fun _ h => h⟩
    obtain ⟨rfl, rfl⟩ := Label.promote.inj h
    exact hm rfl
  have hdrop : (dropStagingTable j).Within (ModeStep J m) :=
    within_execute (modeStep_forgets (inMode_of (by simp) (by simp)) (forgets_onDb _))
  cases mode with
  | replace =>
    have hswap : ∀ f, ModeStep J m (.swap c (stagingTableName j)) (Sys.onDb f) := by
      refine fun f => modeStep_forgets ⟨by simp, fun d h => ?_⟩ (forgets_onDb f)
      exact (hm (stagingTableName_inj (Label.swap.inj h).2)).symm
    exact within_promoteReplace hq hbegin hdrop (within_swap (modeStep_db _) (hswap _))
  | append =>
    refine within_promoteAppend hq hbegin hdrop
      (within_ensure hq (fun _ => modeStep_db _) (modeStep_db _)) (within_execute ?_)
    exact modeStep_forgets (inMode_of (by simp) (by simp)) (forgets_onDb _)

theorem modeStep_enqueue {payload : BulkFinalizePayload}
    (hm : ModeOf J m payload.jobId payload.mode) (force : Bool) :
    (enqueueFinalize cfg payload force).Within (ModeStep J m) := by
  have hother : ∀ {l : Label}, (∀ j mode, l ≠ .promote j mode) → (∀ c n, l ≠ .swap c n) →
      InMode J m l := inMode_of
  have hmark : ModeStep J m (.markPending payload.jobId) fun s => s.markPending payload.jobId :=
    modeStep_forgets (hother (by simp) (by simp)) (forgets_of_eq (fun _ => rfl) fun _ => rfl)
  have hstate : ModeStep J m (.markState payload.jobId) fun s => s.storeFinalizeState payload := by
    refine ⟨hother (by simp) (by simp), fun s h => ⟨h.queue, fun mode hmode => ?_⟩⟩
    unfold Sys.storedMode Sys.storeFinalizeState at hmode
    rw [lookup_setFinalizeState] at hmode
    split at hmode
    · rename_i hj
      have : payload.mode = mode := by simpa using hmode
      rw [← this]
      exact hm hj.symm
    · exact h.stored mode hmode
  have hpush : ModeStep J m (.pushFinalize payload.jobId) fun s =>
      { s with finalizeQueue := payload :: s.finalizeQueue } := by
    refine ⟨hother (by simp) (by simp), fun s h => ⟨fun p hp hj => ?_, h.stored⟩⟩
    rcases List.mem_cons.mp hp with rfl | hp
    · exact hm hj
    · exact h.queue p hp hj
  have hbody : (markBody payload).Within (ModeStep J m) :=
    Prog.Within.bind (Prog.Within.write hmark) fun _ => Prog.Within.bind (Prog.Within.write hstate)
      fun _ => Prog.Within.write (modeStep_forgets (hother (by simp) (by simp))
        (forgets_of_eq (fun _ => rfl) fun _ => rfl))
  unfold enqueueFinalize
  refine within_ite (fun _ => Prog.Within.pure _) fun _ => Prog.Within.retry ?_ _
  have hrest : ∀ pending : Bool, (if pending = true then pure true else do
      markFinalizePending cfg payload
      Prog.write (.pushFinalize payload.jobId) fun s =>
        { s with finalizeQueue := payload :: s.finalizeQueue }
      return true : Work Bool).Within (ModeStep J m) := by
    refine fun pending => within_ite (fun _ => Prog.Within.pure _) fun _ => ?_
    refine Prog.Within.bind ?_ fun _ => Prog.Within.bind (Prog.Within.write hpush) fun _ =>
      Prog.Within.pure _
    exact within_ite (fun _ => Prog.Within.pure ()) fun _ => Prog.Within.retry hbody _
  split
  · exact hrest false
  · exact Prog.Within.bind ((quietly_redisRead _).mono fun _ _ => modeStep_quiet) hrest

theorem modeStep_covers (j : JobId) (c : CollectionId) :
    Covers (ModeStep J m) H cfg j c (ModeOf J m j) := by
  have hq : ∀ l g, Quiet l g → ModeStep J m l g := fun _ _ => modeStep_quiet
  have hdrop : ∀ f, ModeStep J m (.dropStaging j) (Sys.onDb f) := fun f =>
    modeStep_forgets (inMode_of (by simp) (by simp)) (forgets_onDb f)
  have hlock : ∀ op d, ∀ g : Sys → Sys, (∀ s, (g s).finalizeQueue = s.finalizeQueue) →
      (∀ s, (g s).finalizeState = s.finalizeState) → ModeStep J m (.mutex op d j) g :=
    fun op d g h1 h2 => modeStep_forgets (inMode_of (by simp) (by simp)) (forgets_of_eq h1 h2)
  refine ⟨hq, within_execute (hdrop _), within_execute (hdrop _), ?_,
    fun mode hm => modeStep_promote hm c, fun d => ?_, fun u => ?_⟩
  · exact within_ensure hq (fun _ => modeStep_db _) (modeStep_db _)
  · exact within_release (hlock _ _ _ (fun _ => rfl) fun _ => rfl)
      (hlock _ _ _ (fun _ => rfl) fun _ => rfl)
  · exact modeStep_forgets (inMode_of (by simp) (by simp)) (forgets_of_eq (fun _ => rfl) fun _ => rfl)

theorem modeStep_serves : Serves (ModeStep J m) H cfg (ModeOf J m) := by
  have hof : ∀ {l : Label}, (∀ j mode, l ≠ .promote j mode) → (∀ c n, l ≠ .swap c n) →
      ∀ g : Sys → Sys, (∀ s, (g s).finalizeQueue = s.finalizeQueue) →
      (∀ s, (g s).finalizeState = s.finalizeState) → ModeStep J m l g := fun hp hs g h1 h2 =>
    modeStep_forgets (inMode_of hp hs) (forgets_of_eq h1 h2)
  exact {
    covers := modeStep_covers
    lock := fun op c j g hg => hof (by simp) (by simp) g (fun s => by rw [hg s]) fun s => by rw [hg s]
    storage := fun g hg => hof (by simp) (by simp) g (fun s => by rw [hg s]) fun s => by rw [hg s]
    create := fun _ => modeStep_db _
    stage := fun _ _ => modeStep_db _
    insert := fun _ => modeStep_db _
    begin := fun _ => hof (by simp) (by simp) _ (fun _ => rfl) fun _ => rfl
    finish := fun _ => hof (by simp) (by simp) _ (fun _ => rfl) fun _ => rfl
    prune := fun _ => modeStep_db _
    detached := modeStep_db _
    enqueue := fun _ force hm => modeStep_enqueue hm force }

/-- A recovery path that finds the mode of the job, or of another one, is given the right one. -/
theorem modeOf_stored {s : Sys} {job : JobInfo} {d : Mode} (hs : CarriesMode J m s)
    (h : job.jobId = J → (s.stateOf cfg job.jobId).bind FinalizeState.mode = none → d = m) :
    ModeOf J m job.jobId (((s.stateOf cfg job.jobId).bind FinalizeState.mode).getD d) := by
  intro hj
  cases hb : (s.stateOf cfg job.jobId).bind FinalizeState.mode with
  | none => exact h hj hb
  | some mode =>
    refine hs.stored mode ?_
    unfold Sys.stateOf at hb
    split at hb
    · rw [← hj]; exact hb
    · cases hb

theorem modeRecovers : Recovers (modeAssume cfg J m) (modeGuarantee J m) cfg (ModeOf J m) where
  must path job s _ _ := inMode_of (by simp) (by simp)
  reconcile job s _ hmay hne hrep hj := (hmay hj hne hrep).symm
  stored job s hs hmay _ := modeOf_stored hs fun hj hnone => (hmay hj hnone).symm
  watchdog job s _ hmay hne hj := hmay hj hne
  orphan job s hs hmay := modeOf_stored hs hmay

theorem mode_keeps {l : Label} {g : Sys → Sys} (h : ModeStep J m l g) (s : Sys)
    (hs : CarriesMode J m s) :
    InMode J m l ∧ CarriesMode J m (g s) ∧ True := ⟨h.1, h.2 s hs, trivial⟩

/-- The payload a finalize worker takes carries the mode of the job. -/
theorem keeps_finalizeTurn :
    Keeps (modeAssume cfg J m) (modeGuarantee J m) (finalizeWorkerTurn H cfg) := by
  have hS : Serves (ModeStep J m) H cfg (ModeOf J m) := modeStep_serves
  have hpop : Gives (modeAssume cfg J m) (modeGuarantee J m)
      (fun o : Option BulkFinalizePayload => ∀ p, o = some p → ModeOf J m p.jobId p.mode)
      (Prog.atomic .redis fun s : Sys =>
        .ok (s.finalizeQueue.getLast?, { s with finalizeQueue := s.finalizeQueue.dropLast })) := by
    refine Triple.atomic _ _ stable_true (fun _ _ _ _ => inMode_of (by simp) (by simp)) ?_ ?_ ?_
    · rintro s a s' hs - - ⟨⟩
      refine ⟨⟨fun p hp => hs.queue p (List.dropLast_subset _ hp), hs.stored⟩, trivial, ?_, ?_⟩
      · rintro a ⟨⟩ p hp
        exact hs.queue p (List.mem_of_getLast? hp)
      · rintro e - a ⟨⟩
    · rintro s e - - - h
      cases h
    · rintro b e s - - - a ⟨⟩
  refine Triple.bindValue hpop fun payload hp => ?_
  cases payload with
  | none => exact Keeps.pure ()
  | some payload =>
    have hm := hp payload rfl
    refine Prog.Within.keeps (S := ModeStep J m) ?_ fun l g h s hs _ => mode_keeps h s hs
    refine Prog.Within.tryCatch ((hS.covers payload.jobId payload.collectionId).processBulkFinalizeJob
      rfl rfl hm) fun _ => ?_
    exact Prog.Within.tryCatch (Prog.Within.bind (hS.enqueue _ _ hm) fun _ => Prog.Within.pure ())
      fun _ => Prog.Within.pure ()

theorem keeps_importTask (files : Files) (a : ImportTask) {s : Sys} (h : SubmittedIn J m a s) :
    Keeps (modeAssume cfg J m) (modeGuarantee J m) (a.entry cfg H files) := by
  have hS : Serves (ModeStep J m) H cfg (ModeOf J m) := modeStep_serves
  have hK : ∀ l g, ModeStep J m l g → ∀ s, (modeGuarantee J m).inv s →
      (modeAssume cfg J m).may l s → (modeGuarantee J m).must l s ∧
        (modeGuarantee J m).inv (g s) ∧ (modeGuarantee J m).rel s (g s) :=
    fun l g h s hs _ => mode_keeps h s hs
  cases a with
  | work payload =>
    refine Prog.Within.keeps (hS.processBulkJob (fun mode hmode hj => ?_) fun hj => ?_) hK
    · have := h hj
      rw [hmode] at this
      exact ImportMode.plain.inj this
    · rw [h hj]
      rfl
  | finalize => exact keeps_finalizeTurn
  | reconcile limit => exact keeps_reconcileAll hS modeRecovers hK limit
  | watchdog fail => exact keeps_watchdog hS modeRecovers hK fail
  | reclaimAll =>
    refine Prog.Within.keeps (within_ite (fun _ => Prog.Within.pure ()) fun _ => ?_) hK
    refine Prog.Within.bind hS.scanMutexKeys fun keys => Prog.Within.forEach fun c _ => ?_
    exact within_ite (fun _ => Prog.Within.pure ()) fun _ => hS.reclaim c
  | requeueOrphans => exact keeps_reconcileOrphans hS modeRecovers hK
  | failFinalizing => exact Prog.Within.keeps hS.failStaleFinalizing hK
  | cancel j =>
    refine Prog.Within.keeps ?_ hK
    exact (hS.covers j []).cancelJob
  | update j u => exact Prog.Within.keeps (hS.updateJob j u) hK
  | other g hg =>
    exact Prog.Within.keeps (Prog.Within.write (modeStep_forgets (inMode_of (by simp) (by simp)) hg)) hK

/-- In every run of the bulk services, with steps that raise and programs that stop anywhere, every
promotion of the job is one in the mode it was submitted in, and it is swapped in only when that
is a replace, as long as every recovery path that looks at the job finds its mode. -/
theorem promotions_keep_mode (H : Digest) (cfg : Settings) (files : Files) (J : JobId) (m : Mode)
    (s : Sys) (hs : CarriesMode J m s) (run : List (Choice ImportTask Exn))
    (hrun : Meets (modeAssume cfg J m) (SubmittedIn J m) (ImportTask.entry cfg H files) ⟨s, [], []⟩
      run) :
    let c := (Config.mk s [] []).exec (ImportTask.entry cfg H files) run
    (∀ mode, Label.promote J mode ∈ c.trace → mode = m) ∧
      ∀ d, Label.swap d (stagingTableName J) ∈ c.trace → m = .replace := by
  have hgood : (Config.mk s [] [] : Config Label Sys Exn).Good (modeAssume cfg J m)
      (modeGuarantee J m) := ⟨hs, by simp, by simp⟩
  have htrace := (exec_good (fun _ _ h => h)
    (fun a t ht ha => keeps_importTask files a ha t ht trivial) run hgood hrun).trace
  refine ⟨fun mode hl => ?_, fun d hl => ?_⟩
  · obtain ⟨t, _, hmust⟩ := htrace _ hl
    exact hmust.1 mode rfl
  · obtain ⟨t, _, hmust⟩ := htrace _ hl
    exact hmust.2 d rfl

/-! ## A run with an error text that names the collection -/

def replaced : CollectionId := "replaced".toList

def liveRow : Row := ⟨"0".toList, replaced, 0, none, "{}".toList, none, 0, 0⟩
def appendedRow : Row := ⟨"1".toList, replaced, 0, none, "{}".toList, none, 0, 0⟩

def appendPayload : BulkFinalizePayload := ⟨importer, replaced, .append, 1, 0, none, false, 0⟩

/-- A collection with a row, and an append job that has staged another one and waits for the
finalize worker. -/
def appendStaged : Sys :=
  ({ Sys.idle (((do
      let k ← Catalog.initial.createPartition (safePartitionName plainDigest replaced) replaced
      let k ← k.insertFeatures [liveRow]
      let k ← k.createTable (stagingTableName importer) true
      k.insertInto (stagingTableName importer) [appendedRow]).toOption).getD Catalog.initial) with
    jobs := [⟨importer, replaced, .finalizing, [], 1, 0, 0, 0, none, none, none⟩]
    registered := [importer]
    finalizePending := [importer]
    finalizeQueue := [appendPayload] } : Sys).storeFinalizeState appendPayload

def deadlock : Exn := .other "OperationalError".toList
  ("deadlock detected CONTEXT: while inserting index tuple (0,2) in relation " ++
    "features_replaced_pkey").toList

/-- The `INSERT` of the finalize worker raises `e`, the job is queued again, and a reconcile pass
comes before the next turn. -/
def failThenReconcile (e : Exn) : List (Choice ImportTask Exn) :=
  .spawn .finalize :: List.replicate 10 (.step 0) ++ .fault 0 e false ::
    List.replicate 7 (.step 0) ++ .spawn (.reconcile 10) :: List.replicate 14 (.step 1)

def runImport (cs : List (Choice ImportTask Exn)) : Config Label Sys Exn :=
  (Config.mk appendStaged [] []).exec (ImportTask.entry Settings.default plainDigest emptyFiles) cs

theorem appendStaged_carries : CarriesMode importer .append appendStaged where
  queue p hp _ := by
    rw [List.mem_singleton.mp hp]
    rfl
  stored mode h := by
    have : some Mode.append = some mode := h
    exact (Option.some.inj this).symm

/-- The text of a deadlock names the partition, the partition its collection, and the pass takes
the append for a replace: the row that was live is gone. -/
theorem append_swapped_in :
    Label.swap replaced (stagingTableName importer) ∈ (runImport (failThenReconcile deadlock)).trace ∧
      appendStaged.catalog.rowsOf replaced = [liveRow] ∧
      (runImport (failThenReconcile deadlock)).st.catalog.rowsOf replaced = [appendedRow] := by
  decide +kernel

instance (cfg : Settings) (m : Mode) : ∀ path job s, Decidable (ModeKnown cfg m path job s)
  | .reconcile, job, s =>
    inferInstanceAs (Decidable (s.stagedRows job.jobId ≠ 0 → readsReplace job = true → m = .replace))
  | .stored, job, s => inferInstanceAs
    (Decidable ((s.stateOf cfg job.jobId).bind FinalizeState.mode = none → m = .append))
  | .watchdog, job, s =>
    inferInstanceAs (Decidable (s.stagedRows job.jobId ≠ 0 → modeRead job = m))
  | .orphan, _, _ => isTrue trivial
  | .orphanStored, job, s => inferInstanceAs
    (Decidable ((s.stateOf cfg job.jobId).bind FinalizeState.mode = none → modeRead job = m))

instance (cfg : Settings) (J : JobId) (m : Mode) (s : Sys) :
    ∀ l, Decidable ((modeAssume cfg J m).may l s)
  | .recover path job => inferInstanceAs (Decidable (job.jobId = J → ModeKnown cfg m path job s))
  | .redis | .db | .promote _ _ | .dropStaging _ | .swap _ _ | .append _ | .markPending _
  | .markState _ | .pushFinalize _ | .mutex _ _ _ | .seeJob _ | .seeJobs | .setStatus _ _
  | .storage | .load _ _ | .commit _ | .deleteBatch | .clearTags _ => isTrue trivial

instance (cfg : Settings) (J : JobId) (m : Mode) (l : Label) (b : Bool) (e : Exn) :
    Decidable ((modeAssume cfg J m).raises l b e) := isTrue trivial

instance (J : JobId) (m : Mode) : ∀ a s, Decidable (SubmittedIn J m a s)
  | .work payload, _ => inferInstanceAs (Decidable (payload.jobId = J → payload.mode = .plain m))
  | .finalize, _ | .reconcile _, _ | .watchdog _, _ | .reclaimAll, _ | .requeueOrphans, _
  | .failFinalizing, _ | .cancel _, _ | .update _ _, _ | .other _ _, _ => isTrue trivial

/-- A text that does not read like a replace leaves the mode to what is stored. -/
theorem append_stays_append :
    let c := runImport (failThenReconcile (.other "OperationalError".toList []))
    (∀ mode, Label.promote importer mode ∈ c.trace → mode = .append) ∧
      ∀ d, Label.swap d (stagingTableName importer) ∈ c.trace → Mode.append = .replace :=
  promotions_keep_mode plainDigest Settings.default emptyFiles importer .append appendStaged
    appendStaged_carries (failThenReconcile (.other "OperationalError".toList []))
    (by decide +kernel)

end Bulk
end Geofastmap
