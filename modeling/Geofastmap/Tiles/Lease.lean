import Mathlib.Data.List.Nodup
import Geofastmap.Interleave.Typestate
import Geofastmap.Tiles.Builds

/-!
# Geofastmap.Tiles.Lease

The lease of a collection against two builds at the same time. A build of a collection is a ticket
from the moment a submission has found no lease until the worker that took it from the queue has
released the lease: it is with the submission, in the queue, or with a worker.

The lease may be gone while its ticket is not: it expires, a cancel deletes it, and so does a
submission that finds the build too old. A second submission then queues a second build
(`cancel_admits_second_build`). `LeaseCondition` excludes that a submission passes while a ticket
of the collection is out, and that the thread beside a build renews the lease after its release.

* `Leased` : tickets are of different collections, and a lease is that of the ticket.
* `one_build_per_collection` : after every run that meets the condition, at most one worker is
  inside a build of a collection, and a worker that releases a lease next releases its own.
-/

namespace Geofastmap
namespace Tiles

open Db Bulk Interleave

/-- Where a call stands. -/
inductive Stage where
  | idle
  | submitting (c : CollectionId) (j : JobId)
  | taken (c : CollectionId) (j : JobId)
  | building (c : CollectionId) (j : JobId)
deriving DecidableEq

def Stage.ticket : Stage → Option (CollectionId × JobId)
  | .idle => none
  | .submitting c j => some (c, j)
  | .taken c j => some (c, j)
  | .building c j => some (c, j)

/-- The command leaves leases and queue alone. -/
def Aside (g : BuildState → BuildState) : Prop :=
  ∀ s, (g s).pending = s.pending ∧ (g s).queue = s.queue

def BuildState.pop (s : BuildState) : BuildState := { s with queue := s.queue.dropLast }

def BuildState.push (c : CollectionId) (j : JobId) (s : BuildState) : BuildState :=
  { s with queue := (c, j) :: s.queue }

def stageState : Typestate Label BuildState Stage where
  after l s φ :=
    match l with
    | .brpop =>
      match s.queue.getLast? with
      | some (c, j) => .taken c j
      | none => φ
    | .enqueueGet c j => if (s.pending c).isSome then φ else .submitting c j
    | .lpush _ _ => .idle
    | .release _ _ => .idle
    | .beginBuild c j => .building c j
    | .endBuild c j => .taken c j
    | .leave => .idle
    | _ => φ
  failed l φ :=
    match l with
    | .lpush _ _ => .idle
    | .endBuild c j => .taken c j
    | _ => φ
  allows φ l g :=
    match l with
    | .other => Aside g
    | .brpop => φ = .idle ∧ g = BuildState.pop
    | .enqueueGet _ _ => φ = .idle ∧ g = id
    | .enqueueSet c j => φ = .submitting c j ∧ g = BuildState.lease c (some j)
    | .lpush c j => φ = .submitting c j ∧ g = BuildState.push c j
    | .refreshSet c j => g = BuildState.lease c (some j)
    | .release c j => φ = .taken c j ∧ g = BuildState.lease c none
    | .clear c => g = BuildState.lease c none
    | .expire c => g = BuildState.lease c none
    | .beginBuild c j => φ = .taken c j ∧ g = id
    | .endBuild c j => φ = .building c j ∧ g = id
    | .leave => g = id
  raises l :=
    match l with
    | .beginBuild _ _ => False
    | .endBuild _ _ => False
    | .leave => False
    | _ => True

/-! ## The programs -/

section Programs
variable {cfg : TileSettings} {α : Type} {φ : Stage} {c : CollectionId} {j : JobId}

/-- Commands that are allowed in every stage and do not move it. -/
def Plain (l : Label) (g : BuildState → BuildState) : Prop :=
  (l = .other ∧ Aside g) ∨ (∃ c, l = .clear c ∧ g = BuildState.lease c none) ∨
    ∃ c j, l = .refreshSet c j ∧ g = BuildState.lease c (some j)

theorem restores_plain {p : Work α} (h : p.Within Plain) : Restores stageState φ p := by
  refine Prog.Within.restores h fun l g hl => ?_
  rcases hl with ⟨rfl, hg⟩ | ⟨c, rfl, rfl⟩ | ⟨c, j, rfl, rfl⟩
  · exact ⟨hg, fun _ => rfl, rfl⟩
  · exact ⟨rfl, fun _ => rfl, rfl⟩
  · exact ⟨rfl, fun _ => rfl, rfl⟩

theorem aside_read (f : BuildState → α) : (Prog.read .other f : Work α).Within Plain :=
  Prog.Within.read f (.inl ⟨rfl, fun _ => ⟨rfl, rfl⟩⟩)

theorem aside_write {g : BuildState → BuildState} (hg : Aside g) :
    (Prog.write .other g : Work Unit).Within Plain :=
  Prog.Within.write (.inl ⟨rfl, hg⟩)

theorem aside_retry {g : BuildState → BuildState} (hg : Aside g) :
    (retryWrite cfg (Prog.write .other g)).Within Plain :=
  (aside_write hg).retry _

theorem plain_ite {p : Prop} [Decidable p] {a b : Work α} (ha : a.Within Plain)
    (hb : b.Within Plain) : (if p then a else b).Within Plain := by
  split
  · exact ha
  · exact hb

theorem plain_getJob : (getTileBuildJob cfg j).Within Plain := (aside_read _).retry _

theorem plain_createJob : (createTileBuildJob cfg c j).Within Plain := by
  refine Prog.Within.bind (aside_retry ?_) fun _ => aside_write ?_
  · exact fun _ => ⟨rfl, rfl⟩
  · exact fun _ => ⟨rfl, rfl⟩

theorem plain_getLatest : (getLatestTileBuildJob cfg c).Within Plain := by
  refine Prog.Within.bind (aside_read _) fun latest => ?_
  cases latest with
  | none => exact Prog.Within.pure _
  | some j => exact Prog.Within.bind plain_getJob fun _ => Prog.Within.pure _

theorem plain_updateJob {status : Option Status} :
    (updateTileBuildJob cfg j status).Within Plain := by
  refine Prog.Within.bind ((aside_read _).retry _) fun found => plain_ite ?_ (Prog.Within.pure _)
  refine aside_retry ?_
  exact fun _ => ⟨rfl, rfl⟩

theorem plain_refresh : (refreshPending c j).Within Plain := by
  refine Prog.Within.bind (aside_read _) fun current => plain_ite (Prog.Within.pure _) ?_
  refine Prog.Within.bind (Prog.Within.write ?_) fun _ => Prog.Within.pure _
  exact .inr (.inr ⟨c, j, rfl, rfl⟩)

theorem plain_clear : (clearPending (.clear c) c).Within Plain :=
  Prog.Within.write (.inr (.inl ⟨c, rfl, rfl⟩))

theorem plain_stopCheck : (stopCheck cfg j).Within Plain :=
  Prog.Within.bind plain_getJob fun _ => Prog.Within.pure _

theorem plain_wait (polls : List Bool) :
    (waitUntilCollectionBulkIdle cfg c j polls).Within Plain := by
  induction polls with
  | nil => exact Prog.Within.pure _
  | cons due polls ih =>
    refine Prog.Within.bind (aside_read _) fun active => plain_ite (Prog.Within.pure _) ?_
    refine Prog.Within.bind plain_stopCheck fun stop => plain_ite (Prog.Within.pure _) ?_
    exact plain_ite (Prog.Within.bind plain_updateJob fun _ => ih) ih

theorem plain_pollStop (n : Nat) : (pollStop cfg j n).Within Plain := by
  induction n with
  | zero => exact Prog.Within.pure _
  | succ n ih =>
    exact Prog.Within.bind plain_stopCheck fun stop => plain_ite (Prog.Within.pure _) ih

theorem plain_report (result : BuildResult) : (reportBuild cfg j result).Within Plain := by
  refine plain_ite plain_updateJob (Prog.Within.bind plain_stopCheck fun cancelled => ?_)
  exact plain_ite (Prog.Within.pure _) plain_updateJob

theorem plain_heartbeat : (heartbeat cfg c j).Within Plain := by
  refine Prog.Within.bind plain_refresh fun held => plain_ite ?_ (Prog.Within.pure _)
  exact Prog.Within.bind plain_getJob fun job => plain_ite plain_updateJob (Prog.Within.pure _)

theorem plain_recover : (recoverOrphanedTileBuilds cfg).Within Plain := by
  refine Prog.Within.bind (aside_read _) fun jobs => Prog.Within.forEach fun entry _ => ?_
  refine plain_ite (Prog.Within.pure _) (Prog.Within.bind plain_getLatest fun latest => ?_)
  refine plain_ite (Prog.Within.pure _) (Prog.Within.bind (aside_read _) fun pending => ?_)
  refine plain_ite (Prog.Within.pure _) (Prog.Within.bind (aside_read _) fun now => ?_)
  exact plain_ite (Prog.Within.pure _) (Prog.Within.bind plain_updateJob fun _ => plain_clear)

theorem plain_cancelJob : (cancelJobRecord cfg j).Within Plain := by
  refine Prog.Within.bind plain_getJob fun job => ?_
  cases job with
  | none => exact Prog.Within.pure _
  | some job =>
    refine Prog.Within.bind (Prog.Within.tryCatch plain_getLatest fun _ => Prog.Within.pure _)
      fun latest => plain_ite ?_ (Prog.Within.pure _)
    exact Prog.Within.bind plain_clear fun _ => plain_updateJob

theorem plain_cancelBuild : (cancelTileBuild cfg c).Within Plain := by
  refine Prog.Within.bind plain_getLatest fun latest => Prog.Within.bind plain_clear fun _ => ?_
  cases latest with
  | none => exact Prog.Within.pure _
  | some entry => exact plain_ite plain_updateJob (Prog.Within.pure _)

/-- The end of a submission: it holds no ticket of its own any more. -/
theorem typed_enqueue : (enqueueTileBuild c j).Typed stageState (fun r φ' => match r with
    | .ok _ => φ' = .idle
    | .error _ => True) .idle := by
  unfold enqueueTileBuild
  rw [Prog.typed_bind]
  refine Prog.Typed.read ⟨rfl, rfl⟩ (fun s => ?_) fun _ => trivial
  by_cases hs : (s.pending c).isSome = true
  · simp only [stageState, hs, if_true]
    rfl
  · simp only [stageState, hs]
    refine Prog.Typed.bind (R := fun _ φ' => φ' = .submitting c j) ?_ ?_ fun _ _ _ => trivial
    · exact Prog.Typed.write ⟨rfl, rfl⟩ (fun _ => rfl) fun _ => rfl
    · rintro _ φ' rfl
      refine Prog.Typed.bind (R := fun _ φ' => φ' = .idle) ?_ ?_ fun _ _ _ => trivial
      · exact Prog.Typed.write ⟨rfl, rfl⟩ (fun _ => rfl) fun _ => rfl
      · rintro _ φ' rfl
        rfl

theorem typed_submit :
    (submitTileBuild cfg c j).Typed stageState (fun _ _ => True) .idle := by
  refine (restores_plain plain_createJob).then (fun _ => ?_) fun _ => trivial
  refine (restores_plain plain_updateJob).then (fun _ => ?_) fun _ => trivial
  refine Prog.Typed.bind typed_enqueue ?_ fun _ _ _ => trivial
  rintro enqueued φ' rfl
  have hrest : (if enqueued then pure () else do
      let _ ← getPendingJobId c
      pure () : Work Unit).Within Plain :=
    plain_ite (Prog.Within.pure _) (Prog.Within.bind (aside_read _) fun _ => Prog.Within.pure _)
  exact Prog.Typed.mono (fun _ _ _ => trivial) _ _ (restores_plain hrest)

theorem typed_start (req : BuildRequest) :
    (startTileBuild cfg req c j).Typed stageState (fun _ _ => True) .idle := by
  unfold startTileBuild
  split
  · trivial
  · split
    · exact typed_submit
    · trivial

theorem typed_request (req : BuildRequest) :
    (requestTileBuild cfg req c j).Typed stageState (fun _ _ => True) .idle := by
  unfold requestTileBuild
  split
  · trivial
  · refine (restores_plain (aside_read _)).then (fun pending => ?_) fun _ => trivial
    cases pending with
    | none => exact typed_start req
    | some other =>
      refine (restores_plain plain_getLatest).then (fun latest => ?_) fun _ => trivial
      refine (restores_plain (aside_read _)).then (fun now => ?_) fun _ => trivial
      split
      · exact Prog.Typed.mono (fun _ _ _ => trivial) _ _ (restores_plain plain_updateJob)
      · exact (restores_plain plain_clear).then (fun _ => typed_start req) fun _ => trivial

/-! ### The worker -/

theorem typed_release {Q : Except Exn Unit → Stage → Prop} (hok : Q (.ok ()) .idle)
    (he : ∀ e, Q (.error e) (.taken c j)) :
    (clearPending (.release c j) c).Typed stageState Q (.taken c j) :=
  Prog.Typed.write ⟨rfl, rfl⟩ (fun _ => hok) he

theorem restores_build (plan : BuildPlan) :
    Restores stageState (.taken c j) (buildPmtiles cfg plan c j) := by
  refine Prog.Typed.bind (R := fun r φ' => match r with
    | .ok _ => φ' = .building c j
    | .error _ => φ' = .taken c j) ?_ ?_ fun _ _ h => h
  · exact Prog.Typed.write ⟨rfl, rfl⟩ (fun _ => rfl) fun _ => rfl
  · rintro _ φ' rfl
    refine Restores.tryFinally (restores_plain ?_) ?_
    · exact Prog.Within.bind (plain_pollStop _) fun _ => Prog.Within.pure _
    · exact Prog.Typed.write ⟨rfl, rfl⟩ (fun _ => rfl) fun _ => rfl

/-- The ticket is given back where the worker goes on with the next entry. -/
theorem typed_runBuild (plan : BuildPlan) :
    (runBuild cfg plan c j).Typed stageState (fun r φ' => match r with
      | .ok none => φ' = .idle
      | _ => φ' = .taken c j) (.taken c j) := by
  refine (restores_plain (plain_wait _)).then (fun idle => ?_) fun _ => rfl
  split
  · refine Prog.Typed.bind (R := fun r φ' => match r with
      | .ok _ => φ' = .idle
      | .error _ => φ' = .taken c j) (typed_release rfl fun _ => rfl) ?_ fun _ _ h => h
    rintro _ φ' rfl
    rfl
  · refine (restores_plain (aside_read _)).then (fun _ => ?_) fun _ => rfl
    split
    · rfl
    · refine (restores_plain plain_updateJob).then (fun _ => ?_) fun _ => rfl
      exact (restores_build plan).then (fun _ => rfl) fun _ => rfl

theorem typed_process (plan : BuildPlan) :
    (processTileBuild cfg plan c j).Typed stageState (fun _ _ => True) (.taken c j) := by
  refine (restores_plain plain_stopCheck).then (fun cancelled => ?_) fun _ => trivial
  split
  · exact typed_release trivial fun _ => trivial
  · refine (restores_plain plain_updateJob).then (fun _ => ?_) fun _ => trivial
    refine (restores_plain plain_refresh).then (fun _ => ?_) fun _ => trivial
    refine Prog.Typed.bind (R := fun r φ' => match r with
      | .ok none => φ' = .idle
      | .ok (some _) => φ' = .taken c j
      | .error _ => True) ?_ ?_ fun _ _ _ => trivial
    · refine Prog.Typed.tryCatch (typed_runBuild plan) ?_ ?_
      · intro result φ' h
        cases result with
        | none => exact h
        | some result => exact h
      · rintro e φ' rfl
        refine Prog.Typed.bind (R := fun r φ' => match r with
          | .ok _ => φ' = .idle
          | .error _ => True) (typed_release rfl fun _ => trivial) ?_ fun _ _ _ => trivial
        rintro _ φ' rfl
        exact (restores_plain plain_updateJob).then (fun _ => rfl) fun _ => trivial
    · intro result φ' h
      cases result with
      | none => trivial
      | some result =>
        obtain rfl : φ' = .taken c j := h
        refine Prog.Typed.bind (R := fun r φ' => match r with
          | .ok _ => φ' = .idle
          | .error _ => True) (typed_release rfl fun _ => trivial) ?_ fun _ _ _ => trivial
        rintro _ φ' rfl
        exact Prog.Typed.mono (fun _ _ _ => trivial) _ _ (restores_plain (plain_report result))

theorem typed_worker (plan : BuildPlan) :
    (tileWorker cfg plan).Typed stageState (fun _ _ => True) .idle := by
  refine ⟨⟨rfl, rfl⟩, fun s => ?_, fun _ _ => trivial⟩
  simp only [stageState]
  cases s.queue.getLast? with
  | none => trivial
  | some entry => exact typed_process plan

end Programs

/-! ## Tickets -/

/-- Tickets are of different collections, and the lease of a collection is that of its ticket. -/
structure Leased (pending : CollectionId → Option JobId) (tickets : List (CollectionId × JobId)) :
    Prop where
  nodup : (tickets.map Prod.fst).Nodup
  holder : ∀ c j k, pending c = some j → (c, k) ∈ tickets → k = j

section Tickets
variable {pending : CollectionId → Option JobId} {ts ts' : List (CollectionId × JobId)}
  {c : CollectionId} {j k : JobId}

theorem Leased.perm (h : Leased pending ts) (hp : ts.Perm ts') : Leased pending ts' :=
  ⟨(hp.map Prod.fst).nodup_iff.mp h.nodup, fun c j k hc hk => h.holder c j k hc (hp.mem_iff.mpr hk)⟩

theorem Leased.sublist (h : Leased pending ts) (hs : ts'.Sublist ts) : Leased pending ts' :=
  ⟨h.nodup.sublist (hs.map Prod.fst), fun c j k hc hk => h.holder c j k hc (hs.subset hk)⟩

theorem Leased.unique (h : Leased pending ts) (hj : (c, j) ∈ ts) (hk : (c, k) ∈ ts) : j = k := by
  have := List.inj_on_of_nodup_map h.nodup hj hk rfl
  exact congrArg Prod.snd this

/-- A collection without lease and ticket gets a ticket. -/
theorem Leased.add (h : Leased pending ts) (hnone : pending c = none)
    (hfree : ∀ k, (c, k) ∉ ts) : Leased pending ((c, j) :: ts) := by
  refine ⟨?_, fun d i k hd hk => ?_⟩
  · simp only [List.map_cons, List.nodup_cons, List.mem_map, not_exists, not_and]
    refine ⟨?_, h.nodup⟩
    rintro ⟨d, k⟩ hmem rfl
    exact hfree k hmem
  · rcases List.mem_cons.mp hk with hk | hk
    · cases hk
      rw [hnone] at hd
      cases hd
    · exact h.holder d i k hd hk

/-- The lease is set for the ticket. -/
theorem Leased.set (h : Leased pending ts) (hj : (c, j) ∈ ts) :
    Leased (Function.update pending c (some j)) ts := by
  refine ⟨h.nodup, fun d i k hd hk => ?_⟩
  by_cases hdc : d = c
  · subst hdc
    obtain rfl : j = i := by simpa using hd
    exact h.unique hk hj
  · exact h.holder d i k (by simpa [hdc] using hd) hk

theorem Leased.clear (h : Leased pending ts) (c : CollectionId) :
    Leased (Function.update pending c none) ts := by
  refine ⟨h.nodup, fun d i k hd hk => ?_⟩
  by_cases hdc : d = c
  · subst hdc
    simp at hd
  · exact h.holder d i k (by simpa [hdc] using hd) hk

end Tickets

/-! ## The invariant -/

def tickets (s : BuildState) (φs : List Stage) : List (CollectionId × JobId) :=
  s.queue ++ φs.filterMap Stage.ticket

def LeaseInv (s : BuildState) (φs : List Stage) : Prop := Leased s.pending (tickets s φs)

/-- A submission finds no lease only where no ticket of the collection is out, and a lease is
renewed only while the ticket of the build is with a call. -/
def LeaseCondition : Condition Label BuildState Stage := fun l s φ φs =>
  match l with
  | .enqueueGet c _ => s.pending c = none → ∀ t ∈ tickets s φs, t.1 ≠ c
  | .refreshSet c j => (c, j) ∈ tickets s (φ :: φs)
  | _ => True

section Step
variable {s : BuildState} {φ ψ : Stage} {φs : List Stage}

theorem tickets_perm (φs φs' : List Stage) (h : φs.Perm φs') :
    (tickets s φs).Perm (tickets s φs') :=
  List.Perm.append_left _ (h.filterMap _)

/-- A call gives its ticket away, or has none. -/
theorem LeaseInv.drop (h : LeaseInv s (φ :: φs)) : LeaseInv s φs := by
  refine Leased.sublist h (List.Sublist.append_left ?_ _)
  exact (List.sublist_cons_self φ φs).filterMap _

theorem LeaseInv.add_idle (h : LeaseInv s φs) : LeaseInv s (.idle :: φs) := h

theorem LeaseInv.same_ticket (h : LeaseInv s (φ :: φs)) (ht : ψ.ticket = φ.ticket) :
    LeaseInv s (ψ :: φs) := by
  have : tickets s (ψ :: φs) = tickets s (φ :: φs) := by simp [tickets, List.filterMap_cons, ht]
  rw [LeaseInv, this]
  exact h

theorem LeaseInv.aside {g : BuildState → BuildState} (hg : Aside g) (h : LeaseInv s φs) :
    LeaseInv (g s) φs := by
  obtain ⟨h1, h2⟩ := hg s
  rw [LeaseInv, tickets, h1, h2]
  exact h

theorem mem_tickets_own {c : CollectionId} {j : JobId} (h : φ.ticket = some (c, j)) :
    (c, j) ∈ tickets s (φ :: φs) := by
  simp [tickets, h]

/-- The last entry of the queue goes to the worker that takes it. -/
theorem LeaseInv.pop {c : CollectionId} {j : JobId} (h : LeaseInv s (.idle :: φs))
    (hlast : s.queue.getLast? = some (c, j)) : LeaseInv s.pop (.taken c j :: φs) := by
  have hq : s.queue = s.queue.dropLast ++ [(c, j)] := by
    rw [List.dropLast_append_getLast? _ hlast]
  have ht : tickets s.pop (.taken c j :: φs) = tickets s (.idle :: φs) := by
    simp only [tickets]
    conv_rhs => rw [hq]
    simp [BuildState.pop, List.filterMap_cons, Stage.ticket]
  rw [LeaseInv, ht]
  exact h

/-- The last entry is lost. -/
theorem LeaseInv.lose (h : LeaseInv s φs) : LeaseInv s.pop φs :=
  Leased.sublist h ((List.dropLast_sublist _).append_right _)

end Step

theorem leaseInv_step {l : Label} {g : BuildState → BuildState} {s : BuildState} {φ : Stage}
    {φs : List Stage} (h : LeaseInv s (φ :: φs)) (hl : stageState.allows φ l g)
    (hm : LeaseCondition l s φ φs) : LeaseInv (g s) (stageState.after l s φ :: φs) := by
  cases l with
  | other => exact h.aside hl
  | brpop =>
    obtain ⟨rfl, rfl⟩ := hl
    cases hlast : s.queue.getLast? with
    | none => simpa [stageState, hlast] using h.lose
    | some entry => simpa [stageState, hlast] using h.pop hlast
  | enqueueGet c j =>
    obtain ⟨rfl, rfl⟩ := hl
    by_cases hs : (s.pending c).isSome = true
    · simpa [stageState, hs] using h
    · simp only [stageState, hs]
      have hnone : s.pending c = none := by simpa using hs
      have hadd := Leased.add (j := j) h hnone fun k hk => hm hnone (c, k) hk rfl
      refine Leased.perm hadd ?_
      have hmid : (s.queue ++ (c, j) :: φs.filterMap Stage.ticket).Perm _ := List.perm_middle
      simpa [tickets, List.filterMap_cons, Stage.ticket] using hmid.symm
  | enqueueSet c j =>
    obtain ⟨rfl, rfl⟩ := hl
    exact Leased.set h (mem_tickets_own rfl)
  | lpush c j =>
    obtain ⟨rfl, rfl⟩ := hl
    refine Leased.perm h ?_
    simp [tickets, List.filterMap_cons, Stage.ticket, stageState, BuildState.push]
  | refreshSet c j =>
    obtain rfl : g = BuildState.lease c (some j) := hl
    exact Leased.set h hm
  | release c j =>
    obtain ⟨rfl, rfl⟩ := hl
    exact Leased.clear h.drop c
  | clear c =>
    obtain rfl : g = BuildState.lease c none := hl
    exact Leased.clear h c
  | expire c =>
    obtain rfl : g = BuildState.lease c none := hl
    exact Leased.clear h c
  | beginBuild c j =>
    obtain ⟨rfl, rfl⟩ := hl
    exact h.same_ticket rfl
  | endBuild c j =>
    obtain ⟨rfl, rfl⟩ := hl
    exact h.same_ticket rfl
  | leave =>
    obtain rfl : g = id := hl
    exact h.drop

/-- A step that raises after its effect. -/
theorem leaseInv_late {l : Label} {g : BuildState → BuildState} {s : BuildState} {φ : Stage}
    {φs : List Stage} (h : LeaseInv s (φ :: φs)) (hl : stageState.allows φ l g)
    (hr : stageState.raises l) (hm : LeaseCondition l s φ φs) :
    LeaseInv (g s) (stageState.failed l φ :: φs) := by
  have hstep := leaseInv_step h hl hm
  cases l with
  | brpop =>
    obtain ⟨rfl, rfl⟩ := hl
    exact h.lose
  | enqueueGet c j =>
    obtain ⟨rfl, rfl⟩ := hl
    exact h
  | release c j =>
    obtain ⟨rfl, rfl⟩ := hl
    exact Leased.clear h c
  | beginBuild c j => exact hr.elim
  | endBuild c j => exact hr.elim
  | leave => exact hr.elim
  | _ => exact hstep

theorem leaseInv_fault {l : Label} {s : BuildState} {φ : Stage} {φs : List Stage}
    (h : LeaseInv s (φ :: φs)) (hr : stageState.raises l) :
    LeaseInv s (stageState.failed l φ :: φs) := by
  cases l with
  | lpush c j => exact h.drop
  | endBuild c j => exact hr.elim
  | _ => exact h

inductive BuildTask where
  | work (plan : BuildPlan)
  | heartbeat (c : CollectionId) (j : JobId)
  | request (req : BuildRequest) (c : CollectionId) (j : JobId)
  /-- After a bulk import or a process. -/
  | submit (c : CollectionId) (j : JobId)
  | cancelJob (j : JobId)
  | cancelBuild (c : CollectionId)
  | recover
  | expire (c : CollectionId)
  /-- A step of another service, of the clock or of the database. -/
  | elsewhere (g : BuildState → BuildState) (hg : Aside g)

def BuildTask.body (cfg : TileSettings) : BuildTask → Work Unit
  | .work plan => tileWorker cfg plan
  | .heartbeat c j => Tiles.heartbeat cfg c j
  | .request req c j => requestTileBuild cfg req c j
  | .submit c j => tryCatch (submitTileBuild cfg c j) fun _ => pure ()
  | .cancelJob j => cancelJobRecord cfg j
  | .cancelBuild c => cancelTileBuild cfg c
  | .recover => recoverOrphanedTileBuilds cfg
  | .expire c => Prog.write (.expire c) (BuildState.lease c none)
  | .elsewhere g _ => Prog.write .other g

/-- A task and its end, in whatever way it ends. -/
def BuildTask.entry (cfg : TileSettings) (task : BuildTask) : Work Unit :=
  Prog.tryFinally (task.body cfg) (Prog.write .leave id)

theorem typed_body (cfg : TileSettings) (task : BuildTask) :
    (task.body cfg).Typed stageState (fun _ _ => True) .idle := by
  have hplain : ∀ {p : Work Unit}, p.Within Plain → p.Typed stageState (fun _ _ => True) .idle :=
    fun h => Prog.Typed.mono (fun _ _ _ => trivial) _ _ (restores_plain h)
  cases task with
  | work plan => exact typed_worker plan
  | heartbeat c j => exact hplain plain_heartbeat
  | request req c j => exact typed_request req
  | submit c j => exact Prog.Typed.tryCatch typed_submit (fun _ _ h => h) fun _ _ _ => trivial
  | cancelJob j => exact hplain plain_cancelJob
  | cancelBuild c => exact hplain plain_cancelBuild
  | recover => exact hplain plain_recover
  | expire c => exact Prog.Typed.write rfl (fun _ => trivial) fun _ => trivial
  | elsewhere g hg => exact hplain (aside_write hg)

theorem typed_task (cfg : TileSettings) (task : BuildTask) :
    (task.entry cfg).Typed stageState (fun _ _ => True) .idle := by
  refine Prog.Typed.tryFinally (typed_body cfg task) fun r φ' _ => ?_
  exact Prog.Typed.write rfl (fun _ => trivial) fun _ => trivial

theorem lease_invariant : Invariant stageState (fun (_ : BuildTask) _ => Stage.idle)
    LeaseCondition (fun _ _ _ => True) LeaseInv where
  perm _ φs φs' hp h := Leased.perm h (tickets_perm φs φs' hp)
  step _ _ _ _ _ h hl hm := leaseInv_step h hl hm
  late _ _ _ _ _ h hl hr hm := leaseInv_late h hl hr hm
  fault _ _ _ _ _ h _ hr := leaseInv_fault h hr
  spawn _ _ _ h _ := h.add_idle
  crash _ _ _ h := h.drop

/-! ## Runs -/

def buildRun (cfg : TileSettings) (s : BuildState) (cs : List (Choice BuildTask Exn)) :
    Threads Label BuildState Exn Stage :=
  (Threads.mk s []).exec stageState (BuildTask.entry cfg) (fun _ _ => Stage.idle) cs

def BuildMeets (cfg : TileSettings) (s : BuildState) (cs : List (Choice BuildTask Exn)) : Prop :=
  MeetsAll stageState (BuildTask.entry cfg) (fun _ _ => Stage.idle) LeaseCondition
    (fun _ _ _ => True) ⟨s, []⟩ cs

/-- No two calls are inside builds of one collection, and a worker that deletes a lease next
deletes no lease of another job. -/
def OneBuild (t : Threads Label BuildState Exn Stage) : Prop :=
  (t.own.Pairwise fun φ ψ => ∀ c j j', ¬(φ = .building c j ∧ ψ = .building c j')) ∧
    ∀ i c j φ, t.label i = some (.release c j, φ) → ∀ j', t.st.pending c = some j' → j' = j

theorem oneBuild_of_good {t : Threads Label BuildState Exn Stage} (h : t.Good stageState LeaseInv) :
    OneBuild t := by
  refine ⟨?_, fun i c j φ hi j' hj' => ?_⟩
  · have hnd : ((t.own.filterMap Stage.ticket).map Prod.fst).Nodup :=
      h.inv.nodup.sublist ((List.sublist_append_right _ _).map Prod.fst)
    have hpair := List.pairwise_filterMap.mp (List.pairwise_map.mp hnd)
    refine hpair.imp fun hφψ c j j' => ?_
    rintro ⟨rfl, rfl⟩
    exact hφψ (c, j) rfl (c, j') rfl rfl
  · simp only [Threads.label] at hi
    split at hi
    · rename_i l g k e ψ hp
      cases hi
      obtain ⟨⟨rfl, _⟩, _⟩ := h.pool _ (List.mem_of_getElem? hp)
      have hmem : Stage.taken c j ∈ t.own := List.mem_map.mpr ⟨_, List.mem_of_getElem? hp, rfl⟩
      have hticket : (c, j) ∈ tickets t.st t.own :=
        List.mem_append_right _ (List.mem_filterMap.mpr ⟨_, hmem, rfl⟩)
      exact (h.inv.holder c j' j hj' hticket).symm
    · cases hi

/-- Any number of workers and calls, started at any time, from any queue with at most one build of
a collection, whose lease is the build's. -/
theorem one_build_per_collection (cfg : TileSettings) (s : BuildState)
    (hs : Leased s.pending s.queue) (cs : List (Choice BuildTask Exn)) (h : BuildMeets cfg s cs) :
    OneBuild (buildRun cfg s cs) := by
  refine oneBuild_of_good (exec_inv lease_invariant (fun a _ _ _ => typed_task cfg a) cs ?_ h)
  refine ⟨?_, by simp⟩
  simpa [LeaseInv, tickets, Threads.own] using hs

instance : ∀ l s φ φs, Decidable (LeaseCondition l s φ φs)
  | .enqueueGet c _, s, _, φs =>
    inferInstanceAs (Decidable (s.pending c = none → ∀ t ∈ tickets s φs, t.1 ≠ c))
  | .refreshSet c j, s, φ, φs => inferInstanceAs (Decidable ((c, j) ∈ tickets s (φ :: φs)))
  | .other, _, _, _ | .brpop, _, _, _ | .enqueueSet _ _, _, _, _ | .lpush _ _, _, _, _
  | .release _ _, _, _, _ | .clear _, _, _, _ | .expire _, _, _, _ | .beginBuild _ _, _, _, _
  | .endBuild _ _, _, _, _ | .leave, _, _, _ => isTrue trivial

instance : ∀ l, Decidable (stageState.raises l)
  | .beginBuild _ _ | .endBuild _ _ | .leave => isFalse id
  | .other | .brpop | .enqueueGet _ _ | .enqueueSet _ _ | .lpush _ _ | .refreshSet _ _
  | .release _ _ | .clear _ | .expire _ => isTrue trivial

/-- A build of one collection is queued. -/
def queuedBuild : BuildState where
  jobs j := if j = importer then some ⟨"a".toList, .pending, 0⟩ else none
  listed := [importer]
  latest c := if c = "a".toList then some importer else none
  pending c := if c = "a".toList then some importer else none
  queue := [("a".toList, importer)]
  bulkActive _ := false
  now := 0

theorem leased_queuedBuild : Leased queuedBuild.pending queuedBuild.queue := by
  refine ⟨by decide, fun c j k hc hk => ?_⟩
  simp only [queuedBuild, List.mem_singleton, Prod.mk.injEq] at hc hk
  obtain ⟨rfl, rfl⟩ := hk
  simpa using hc

def secondBuild : JobId where
  text := "9d3e5f70-1b2c-4d3e-8f4a-5b6c7d8e9f01".toList
  chars := chars_of_all (by decide)
  short := by decide
  first := ⟨'9', rfl, rfl⟩
  last := ⟨'1', rfl, rfl⟩

def tileSettings : TileSettings := ⟨1, 1⟩

/-- A worker starts the build; after `between`, another worker, program `i`, takes ten steps. -/
def twoTileWorkers (between : List (Choice BuildTask Exn)) (i : Nat) :
    List (Choice BuildTask Exn) :=
  .spawn (.work ⟨[], false, 1, true⟩) :: List.replicate 10 (.step 0) ++ between ++
    .spawn (.work ⟨[], false, 1, true⟩) :: List.replicate 10 (.step i)

/-- The build is cancelled, which deletes the lease, and a new one is requested and taken while
the first worker has not asked yet whether it should stop. -/
theorem cancel_admits_second_build : Leased queuedBuild.pending queuedBuild.queue ∧
    ¬OneBuild (buildRun tileSettings queuedBuild (twoTileWorkers
      (.spawn (.cancelJob importer) :: List.replicate 7 (.step 1) ++
        .spawn (.request ⟨none, true, false⟩ "a".toList secondBuild) ::
          List.replicate 9 (.step 2)) 3)) := by
  refine ⟨leased_queuedBuild, fun h => ?_⟩
  have hown : (buildRun tileSettings queuedBuild (twoTileWorkers
      (.spawn (.cancelJob importer) :: List.replicate 7 (.step 1) ++
        .spawn (.request ⟨none, true, false⟩ "a".toList secondBuild) ::
          List.replicate 9 (.step 2)) 3)).own =
      [.building "a".toList importer, .idle, .idle, .building "a".toList secondBuild] := by
    decide +kernel
  have hpair := h.1
  rw [hown] at hpair
  have hfirst := (List.pairwise_cons.mp hpair).1 (.building "a".toList secondBuild) (by simp)
  exact hfirst _ _ _ ⟨rfl, rfl⟩

/-- Without the cancel the second worker finds the queue empty. -/
theorem second_tile_worker_idle :
    OneBuild (buildRun tileSettings queuedBuild (twoTileWorkers [] 1)) :=
  one_build_per_collection tileSettings queuedBuild leased_queuedBuild (twoTileWorkers [] 1)
    (by unfold BuildMeets; decide +kernel)

end Tiles
end Geofastmap
