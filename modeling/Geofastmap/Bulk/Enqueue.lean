import Geofastmap.Interleave.Fault
import Geofastmap.Bulk.Staging

/-!
# Geofastmap.Bulk.Enqueue

`enqueue_finalize` under retries. Its body tests the pending mark, sets it in a retried body of its
own, and pushes the payload; when a command raises, `run_redis_retry` starts the body over. A mark
that was set by a failed attempt makes the next attempt return without a push.

`enqueue_once_iff` says from which states, and under which faults, the queue always ends with
exactly one payload of the job.
-/

namespace Geofastmap
namespace Bulk

open Db Interleave

/-- The finalize payloads of a job in the queue. -/
def Sys.queued (s : Sys) (j : JobId) : Nat := (s.finalizeQueue.filter (·.jobId == j)).length

/-- The pending mark of a job. -/
def Sys.marked (s : Sys) (j : JobId) : Bool := s.finalizePending.contains j

/-- Whatever faults strike among those `R` allows, when `enqueue_finalize` without `force` returns
`True` the queue holds exactly one payload of the job. -/
def EnqueuesOnce (cfg : Settings) (payload : BulkFinalizePayload) (R : Label → Bool → Prop)
    (s : Sys) : Prop :=
  ∀ fs : List (Fault Exn),
    (∀ x ∈ ((enqueueFinalize cfg payload false).trial fs s).struck, R x.1 x.2) →
      ((enqueueFinalize cfg payload false).trial fs s).result = .ok true →
        ((enqueueFinalize cfg payload false).trial fs s).state.queued payload.jobId = 1

/-- No fault can part the mark from the push: the `SET` does not raise after its effect, the
commands on the state do not raise, and the `LPUSH` does not raise before its effect. -/
def Unparted (R : Label → Bool → Prop) (j : JobId) : Prop :=
  ¬R (.markPending j) true ∧ ¬R (.markState j) false ∧ ¬R (.markState j) true ∧
    ¬R (.pushFinalize j) false

/-- The body that `enqueue_finalize` retries. -/
def enqueueBody (cfg : Settings) (payload : BulkFinalizePayload) : Work Bool := do
  let pending ← redisRead fun s => s.finalizePending.contains payload.jobId
  if pending then return true
  else
    markFinalizePending cfg payload
    Prog.write (.pushFinalize payload.jobId) fun s =>
      { s with finalizeQueue := payload :: s.finalizeQueue }
    return true

section
variable {cfg : Settings} {payload : BulkFinalizePayload} {R : Label → Bool → Prop}

theorem enqueueFinalize_eq (hr : cfg.bulkQueueRedis = true) :
    enqueueFinalize cfg payload false =
      Prog.retry (cfg.enqueueAttempts - 1) (enqueueBody cfg payload) := by
  unfold enqueueFinalize runRedisRetry enqueueBody
  simp [hr]

theorem markFinalizePending_eq (hr : cfg.bulkQueueRedis = true) :
    markFinalizePending cfg payload = Prog.retry (cfg.enqueueAttempts - 1) (markBody payload) := by
  unfold markFinalizePending runRedisRetry
  simp [hr]

theorem queued_push (s : Sys) : Sys.queued { s with finalizeQueue := payload :: s.finalizeQueue }
    payload.jobId = s.queued payload.jobId + 1 := by
  simp [Sys.queued]

theorem marked_mark (s : Sys) : (s.markPending payload.jobId).marked payload.jobId = true := by
  simp [Sys.marked, Sys.markPending]

/-! ## The queue ends with one payload -/

/-- From a state with one payload and the mark, nothing is written. -/
theorem enqueueBody_marked (cfg : Settings) (payload : BulkFinalizePayload)
    (R : Label → Bool → Prop) :
    Triple (faults Exn R) (alone Label Sys)
      (fun s => s.marked payload.jobId = true ∧ s.queued payload.jobId = 1)
      (enqueueBody cfg payload)
      (fun _ s => s.marked payload.jobId = true ∧ s.queued payload.jobId = 1) := by
  refine Triple.bind (R := fun r s => (∀ b, r = .ok b → b = true) ∧
      s.marked payload.jobId = true ∧ s.queued payload.jobId = 1)
    (Triple.read _ _ stable_alone (fun s _ h _ => ⟨trivial, ?_, h⟩) fun _ _ _ _ _ h => ⟨?_, h⟩)
    (fun b => ?_) fun _ _ _ h => h.2
  · rintro b hb
    cases hb
    exact h.1
  · intro b hb; cases hb
  · cases b with
    | true => exact Triple.pure _ fun s _ h => h.2
    | false => exact fun s _ h => absurd (h.1 false rfl) Bool.false_ne_true

/-- The mark is set while nothing is queued, or the attempt has left the state unmarked. -/
theorem mark_triple (hr : cfg.bulkQueueRedis = true) (hR : Unparted R payload.jobId) :
    Triple (faults Exn R) (alone Label Sys)
      (fun s => s.marked payload.jobId = false ∧ s.queued payload.jobId = 0)
      (markFinalizePending cfg payload)
      (fun r s => s.queued payload.jobId = 0 ∧ s.marked payload.jobId = r.toOption.isSome) := by
  rw [markFinalizePending_eq hr]
  refine Triple.retry ?_ (fun e s _ h => ⟨h.2, h.1⟩) _
  have hstate : ∀ g : Sys → Sys, (∀ s, (g s).finalizePending = s.finalizePending ∧
      (g s).finalizeQueue = s.finalizeQueue) →
      Triple (faults Exn R) (alone Label Sys)
        (fun s => s.queued payload.jobId = 0 ∧ s.marked payload.jobId = true)
        (Prog.write (.markState payload.jobId) g)
        (fun r s => s.queued payload.jobId = 0 ∧ s.marked payload.jobId = r.toOption.isSome) := by
    intro g hg
    refine Triple.write _ _ stable_alone (fun s _ h _ => ⟨trivial, trivial, trivial, ?_⟩)
      (fun e s hs _ _ => absurd hs hR.2.1) fun e s hs _ _ _ => absurd hs hR.2.2.1
    simp only [Sys.queued, Sys.marked, (hg s).1, (hg s).2]
    exact h
  refine Triple.bind (Triple.write _ _ stable_alone (Q := fun r s => s.queued payload.jobId = 0 ∧
      s.marked payload.jobId = r.toOption.isSome) (fun s _ h _ => ⟨trivial, trivial, trivial, ?_⟩)
    (fun e s _ _ h => ⟨h.2, h.1⟩) fun e s hs _ _ _ => absurd hs hR.1) (fun _ => ?_)
    fun e s _ h => h
  · exact ⟨h.2, marked_mark s⟩
  · refine Triple.bind (hstate _ fun _ => ⟨rfl, rfl⟩) (fun _ => ?_) fun e s _ h => h
    exact hstate id fun _ => ⟨rfl, rfl⟩

/-- The state between two attempts: nothing is done, or all is. -/
def Between (j : JobId) (s : Sys) : Prop :=
  s.marked j = false ∧ s.queued j = 0 ∨ s.marked j = true ∧ s.queued j = 1

theorem enqueueBody_unparted (hr : cfg.bulkQueueRedis = true) (hR : Unparted R payload.jobId) :
    Triple (faults Exn R) (alone Label Sys) (Between payload.jobId) (enqueueBody cfg payload)
      (fun r s => Between payload.jobId s ∧ (r.toOption.isSome = true → s.queued payload.jobId = 1)) := by
  refine Triple.bind (R := fun r s => Between payload.jobId s ∧
      ∀ b, r = .ok b → b = s.marked payload.jobId)
    (Triple.read _ _ stable_alone (fun s _ h _ => ⟨trivial, h, ?_⟩) fun _ _ _ _ _ h => ⟨h, ?_⟩)
    (fun b => ?_) fun _ _ _ h => ⟨h.1, by rintro ⟨⟩⟩
  · rintro b hb; cases hb; rfl
  · rintro b hb; cases hb
  cases b with
  | true =>
    refine Triple.pure _ fun s _ h => ⟨h.1, fun _ => ?_⟩
    have hm := h.2 true rfl
    rcases h.1 with hout | hin
    · rw [hout.1] at hm; cases hm
    · exact hin.2
  | false =>
    refine Triple.bind ((mark_triple hr hR).pre fun s _ h => ?_) (fun _ => ?_) fun e s _ h => ?_
    · have hm := h.2 false rfl
      rcases h.1 with hout | hin
      · exact hout
      · rw [hin.1] at hm; cases hm
    · refine Triple.bind (R := fun _ s => s.marked payload.jobId = true ∧
          s.queued payload.jobId = 1)
        (Triple.write _ _ stable_alone (fun s _ h _ => ⟨trivial, trivial, trivial, ?_⟩)
          (fun e s hs _ _ => absurd hs hR.2.2.2) fun e s _ _ h _ => ?_)
        (fun _ => Triple.pure _ fun s _ h => ⟨.inr h, fun _ => h.2⟩)
        fun e s _ h => ⟨.inr h, fun _ => h.2⟩
      · exact ⟨h.2, (queued_push s).trans (by rw [h.1])⟩
      · exact ⟨h.2, (queued_push s).trans (by rw [h.1])⟩
    · exact ⟨.inl ⟨h.2, h.1⟩, by rintro ⟨⟩⟩

/-- A single attempt returns only when no command of it raised. -/
theorem enqueueBody_single (hr : cfg.bulkQueueRedis = true) (hone : cfg.enqueueAttempts ≤ 1) :
    Triple (faults Exn R) (alone Label Sys)
      (fun s => s.marked payload.jobId = false ∧ s.queued payload.jobId = 0)
      (enqueueBody cfg payload)
      (fun r s => r.toOption.isSome = true → s.queued payload.jobId = 1) := by
  have hzero : cfg.enqueueAttempts - 1 = 0 := by omega
  have hkeep : ∀ {l : Label} {g : Sys → Sys}, (∀ s, (g s).finalizeQueue = s.finalizeQueue) →
      Triple (faults Exn R) (alone Label Sys) (fun s => s.queued payload.jobId = 0)
        (Prog.write l g) (fun _ s => s.queued payload.jobId = 0) := by
    intro l g hg
    have hq : ∀ s, s.queued payload.jobId = 0 → (g s).queued payload.jobId = 0 := by
      intro s h; simpa only [Sys.queued, hg] using h
    exact Triple.write _ _ stable_alone (fun s _ h _ => ⟨trivial, trivial, trivial, hq s h⟩)
      (fun _ _ _ _ h => h) fun _ s _ _ h _ => hq s h
  refine Triple.bind (R := fun r s => s.queued payload.jobId = 0 ∧ ∀ b, r = .ok b → b = false)
    (Triple.read _ _ stable_alone (fun s _ h _ => ⟨trivial, h.2, ?_⟩)
      fun _ _ _ _ _ h => ⟨h.2, ?_⟩) (fun b => ?_) fun _ _ _ _ => by rintro ⟨⟩
  · rintro b hb; cases hb; exact h.1
  · rintro b hb; cases hb
  cases b with
  | true => exact fun s _ h => absurd (h.2 true rfl).symm Bool.false_ne_true
  | false =>
    rw [markFinalizePending_eq hr, hzero]
    refine Triple.bind (R := fun _ s => s.queued payload.jobId = 0) ?_ (fun _ => ?_)
      fun _ _ _ _ => by rintro ⟨⟩
    · refine Triple.pre ?_ fun s _ h => h.1
      refine Triple.bind (hkeep fun _ => rfl) (fun _ => ?_) fun _ _ _ h => h
      refine Triple.bind (hkeep fun _ => rfl) (fun _ => ?_) fun _ _ _ h => h
      exact hkeep fun _ => rfl
    · refine Triple.bind (R := fun r s => r.toOption.isSome = true → s.queued payload.jobId = 1)
        (Triple.write _ _ stable_alone (fun s _ h _ => ⟨trivial, trivial, trivial, fun _ => ?_⟩)
          (fun _ _ _ _ _ => by rintro ⟨⟩) fun _ _ _ _ _ _ => by rintro ⟨⟩)
        (fun _ => Triple.pure _ fun s _ h _ => h rfl) fun _ _ _ _ => by rintro ⟨⟩
      exact (queued_push s).trans (by rw [h])

/-! ## Patterns that lose the payload -/

/-- A state in which the mark is set and nothing else has happened. -/
def Parted (payload : BulkFinalizePayload) (s s' : Sys) : Prop :=
  s'.marked payload.jobId = true ∧ s'.finalizeQueue = s.finalizeQueue

theorem body_of_marked {s : Sys} (h : s.marked payload.jobId = true) :
    (enqueueBody cfg payload).trial [] s = ⟨.ok true, s, [], []⟩ := by
  have hc : s.finalizePending.contains payload.jobId = true := h
  simp only [enqueueBody, redisRead, Prog.trial_bind]
  simp only [Prog.read, Prog.trial, hc, if_true]
  rfl

theorem retry_of_marked {s : Sys} (h : s.marked payload.jobId = true) (n : Nat) :
    (Prog.retry n (enqueueBody cfg payload)).trial [] s = ⟨.ok true, s, [], []⟩ := by
  cases n with
  | zero => exact body_of_marked h
  | succ n => simp only [Prog.trial_retry, body_of_marked h]

/-- When the first attempt raises with the mark set, the second one returns at once. -/
theorem lost_after_parted (hr : cfg.bulkQueueRedis = true) (htwo : 2 ≤ cfg.enqueueAttempts)
    {s s' : Sys} {fs : List (Fault Exn)} {e : Exn} {struck : List (Label × Bool)}
    (h : (enqueueBody cfg payload).trial fs s = ⟨.error e, s', [], struck⟩)
    (hs' : Parted payload s s') :
    (enqueueFinalize cfg payload false).trial fs s = ⟨.ok true, s', [], struck⟩ := by
  obtain ⟨n, hn⟩ : ∃ n, cfg.enqueueAttempts - 1 = n + 1 := ⟨cfg.enqueueAttempts - 2, by omega⟩
  rw [enqueueFinalize_eq hr, hn, Prog.trial_retry]
  simp only [h, retry_of_marked hs'.1, List.append_nil]

/-- The first attempt of an unmarked state, up to the mark. -/
theorem body_of_unmarked {s : Sys} (h : s.marked payload.jobId = false) (fs : List (Fault Exn)) :
    (enqueueBody cfg payload).trial (none :: fs) s =
      (do
        markFinalizePending cfg payload
        Prog.write (.pushFinalize payload.jobId) fun s =>
          { s with finalizeQueue := payload :: s.finalizeQueue }
        return true : Work Bool).trial fs s := by
  have hc : s.finalizePending.contains payload.jobId = false := h
  rw [enqueueBody, redisRead, Prog.trial_bind]
  simp only [Prog.read, Prog.trial, hc, Bool.false_eq_true, if_false, List.nil_append]
  rfl

theorem parted_iterate {g : Sys → Sys} (hg : ∀ s, Parted payload s (g s)) (n : Nat) :
    ∀ s, Parted payload s (g^[n + 1] s) := by
  induction n with
  | zero => exact hg
  | succ n ih =>
    intro s
    obtain ⟨h1, h2⟩ := ih (g s)
    exact ⟨h1, h2.trans (hg s).2⟩

/-- A fault that strikes every attempt to set the mark after its `SET` took effect. -/
theorem lost_in_mark (hr : cfg.bulkQueueRedis = true) (htwo : 2 ≤ cfg.enqueueAttempts)
    {s : Sys} (hs : s.marked payload.jobId = false) (pattern : List (Fault Exn)) {e : Exn}
    {g : Sys → Sys} {x : Label × Bool} (hg : ∀ s, Parted payload s (g s))
    (h : ∀ s rest, (markBody payload).trial (pattern ++ rest) s = ⟨.error e, g s, rest, [x]⟩) :
    ∃ fs, ∃ s', (enqueueFinalize cfg payload false).trial fs s =
      ⟨.ok true, s', [], List.replicate (cfg.enqueueAttempts - 1 + 1) x⟩ ∧ Parted payload s s' := by
  have hmark := Prog.trial_retry_error h (cfg.enqueueAttempts - 1) s []
  rw [← markFinalizePending_eq hr] at hmark
  have hp := parted_iterate hg (cfg.enqueueAttempts - 1) s
  refine ⟨none :: ((List.replicate (cfg.enqueueAttempts - 1 + 1) pattern).flatten ++ []), _,
    lost_after_parted (e := e) hr htwo ?_ hp, hp⟩
  rw [body_of_unmarked hs, Prog.trial_bind, hmark]
  simp

theorem parted_mark (s : Sys) : Parted payload s (s.markPending payload.jobId) :=
  ⟨marked_mark s, rfl⟩

theorem parted_store (s : Sys) :
    Parted payload s ((s.markPending payload.jobId).storeFinalizeState payload) :=
  ⟨marked_mark s, rfl⟩

theorem trial_mark (hr : cfg.bulkQueueRedis = true) (s : Sys) {fs rest : List (Fault Exn)}
    (h : fs = none :: none :: none :: rest ∨ fs = [] ∧ rest = []) :
    (markFinalizePending cfg payload).trial fs s =
      ⟨.ok (), (s.markPending payload.jobId).storeFinalizeState payload, rest, []⟩ := by
  have hbody : (markBody payload).trial fs s =
      ⟨.ok (), (s.markPending payload.jobId).storeFinalizeState payload, rest, []⟩ := by
    rcases h with rfl | ⟨rfl, rfl⟩
    · rfl
    · rfl
  rw [markFinalizePending_eq hr]
  cases cfg.enqueueAttempts - 1 with
  | zero => exact hbody
  | succ n => rw [Prog.trial_retry, hbody]

/-- Under a fault that parts the mark from the push, a first attempt can leave the mark alone. -/
theorem lost_of_parting (hr : cfg.bulkQueueRedis = true) (htwo : 2 ≤ cfg.enqueueAttempts)
    {s : Sys} (hs : s.marked payload.jobId = false) (hR : ¬Unparted R payload.jobId) :
    ∃ fs s' struck, (enqueueFinalize cfg payload false).trial fs s = ⟨.ok true, s', [], struck⟩ ∧
      Parted payload s s' ∧ ∀ x ∈ struck, R x.1 x.2 := by
  have hall : ∀ {n : Nat} {x : Label × Bool}, R x.1 x.2 → ∀ y ∈ List.replicate n x, R y.1 y.2 := by
    intro n x hx y hy
    rw [List.eq_of_mem_replicate hy]
    exact hx
  let e : Exn := .other "ConnectionError".toList []
  by_cases h1 : R (.markPending payload.jobId) true
  · obtain ⟨fs, s', h, hp⟩ := lost_in_mark (e := e) (x := (.markPending payload.jobId, true))
      hr htwo hs [some (e, true)] parted_mark fun s rest => rfl
    exact ⟨fs, s', _, h, hp, hall h1⟩
  by_cases h2 : R (.markState payload.jobId) false
  · obtain ⟨fs, s', h, hp⟩ := lost_in_mark (e := e) (x := (.markState payload.jobId, false))
      hr htwo hs [none, some (e, false)] parted_mark fun s rest => rfl
    exact ⟨fs, s', _, h, hp, hall h2⟩
  by_cases h3 : R (.markState payload.jobId) true
  · obtain ⟨fs, s', h, hp⟩ := lost_in_mark (e := e) (x := (.markState payload.jobId, true))
      hr htwo hs [none, some (e, true)] parted_store fun s rest => rfl
    exact ⟨fs, s', _, h, hp, hall h3⟩
  have h4 : R (.pushFinalize payload.jobId) false := by
    by_contra h4; exact hR ⟨h1, h2, h3, h4⟩
  refine ⟨[none, none, none, none, some (e, false)], _, [(.pushFinalize payload.jobId, false)],
    lost_after_parted (e := e) hr htwo ?_ (parted_store s), parted_store s, by simpa using h4⟩
  rw [body_of_unmarked hs, Prog.trial_bind, trial_mark hr s (.inl rfl)]
  rfl

theorem trial_unmarked (hr : cfg.bulkQueueRedis = true) {s : Sys}
    (hs : s.marked payload.jobId = false) : ∃ s', (enqueueFinalize cfg payload false).trial [] s =
      ⟨.ok true, s', [], []⟩ ∧ s'.queued payload.jobId = s.queued payload.jobId + 1 := by
  have hc : s.finalizePending.contains payload.jobId = false := hs
  let t := (s.markPending payload.jobId).storeFinalizeState payload
  have hbody : (enqueueBody cfg payload).trial [] s =
      ⟨.ok true, { t with finalizeQueue := payload :: t.finalizeQueue }, [], []⟩ := by
    rw [enqueueBody, redisRead, Prog.trial_bind]
    simp only [Prog.read, Prog.trial, hc, Bool.false_eq_true, if_false, List.nil_append,
      Prog.trial_bind]
    rw [trial_mark hr _ (.inr ⟨rfl, rfl⟩)]
    rfl
  refine ⟨{ t with finalizeQueue := payload :: t.finalizeQueue }, ?_, queued_push t⟩
  rw [enqueueFinalize_eq hr]
  cases cfg.enqueueAttempts - 1 with
  | zero => exact hbody
  | succ n => rw [Prog.trial_retry, hbody]

/-- From a state and under faults, `enqueue_finalize` always leaves exactly one payload when it
returns `True`, if and only if the job is queued and marked already, or it is neither and there is
one attempt only or no fault that parts the mark from the push. -/
theorem enqueue_once_iff (cfg : Settings) (payload : BulkFinalizePayload)
    (R : Label → Bool → Prop) (s : Sys) :
    EnqueuesOnce cfg payload R s ↔
      cfg.bulkQueueRedis = false ∨
      s.marked payload.jobId = true ∧ s.queued payload.jobId = 1 ∨
      s.marked payload.jobId = false ∧ s.queued payload.jobId = 0 ∧
        (cfg.enqueueAttempts ≤ 1 ∨ Unparted R payload.jobId) := by
  cases hr : cfg.bulkQueueRedis with
  | false =>
    refine iff_of_true (fun fs _ hres => ?_) (.inl rfl)
    simp only [enqueueFinalize, hr, Bool.not_false, if_true] at hres
    cases hres
  | true =>
    constructor
    · intro h
      refine .inr ?_
      cases hm : s.marked payload.jobId with
      | true =>
        have h0 := h []
        rw [enqueueFinalize_eq hr, retry_of_marked hm] at h0
        exact .inl ⟨rfl, h0 (by simp) rfl⟩
      | false =>
        obtain ⟨s', hs', hq⟩ := trial_unmarked hr hm
        have h0 := h []
        rw [hs'] at h0
        have hzero : s.queued payload.jobId = 0 := by
          have hone : s'.queued payload.jobId = 1 := h0 (by simp) rfl
          omega
        refine .inr ⟨rfl, hzero, ?_⟩
        by_contra hno
        obtain ⟨hone, hR⟩ := not_or.mp hno
        obtain ⟨fs, s'', struck, ht, hp, hstruck⟩ := lost_of_parting hr (by omega) hm hR
        have hlost := h fs
        rw [ht] at hlost
        have := hlost hstruck rfl
        dsimp only [Sys.queued] at this hzero
        rw [hp.2, hzero] at this
        cases this
    · rintro (h | ⟨hm, hq⟩ | ⟨hm, hq, hone | hR⟩) fs hstruck hres
      · cases h
      · have ht := Triple.retry (enqueueBody_marked cfg payload R) (fun _ _ _ h => h)
          (cfg.enqueueAttempts - 1)
        rw [← enqueueFinalize_eq hr] at ht
        exact (Prog.wp_trial _ fs s (ht s trivial ⟨hm, hq⟩) hstruck).2
      · have ht := @enqueueBody_single cfg payload R hr hone
        have hzero : cfg.enqueueAttempts - 1 = 0 := by omega
        have heq : enqueueFinalize cfg payload false = enqueueBody cfg payload := by
          rw [enqueueFinalize_eq hr, hzero]
          rfl
        rw [heq] at hstruck hres ⊢
        refine Prog.wp_trial _ fs s (ht s trivial ⟨hm, hq⟩) hstruck ?_
        rw [hres]; rfl
      · have ht := Triple.retry (enqueueBody_unparted hr hR) (fun _ _ _ h => h.1)
          (cfg.enqueueAttempts - 1)
        rw [← enqueueFinalize_eq hr] at ht
        refine (Prog.wp_trial _ fs s (ht s trivial (.inl ⟨hm, hq⟩)) hstruck).2 ?_
        rw [hres]; rfl

end

/-- A finalize payload of a job that is neither queued nor marked. -/
def freshPayload : BulkFinalizePayload := ⟨importer, "a".toList, .append, 1, 0, none, false, 0⟩

/-- The `LPUSH` of the first attempt raises without effect; the second attempt finds the mark. -/
theorem push_fault_loses_payload :
    ¬EnqueuesOnce Settings.default freshPayload (fun _ _ => True) (Sys.idle Catalog.initial) := by
  intro h
  have hlost := h [none, none, none, none, some (.other "ConnectionError".toList [], false)]
    (fun _ _ => trivial) (by decide)
  revert hlost
  decide

end Bulk
end Geofastmap
