import Mathlib.Logic.Function.Basic
import Geofastmap.Interleave.EventLoop

/-!
# Geofastmap.Gate.Singleflight

`await_tile_singleflight` of `titiler_inflight.py`: callers with one key share a future. The first
of them registers it and starts a task that fetches the tile and completes the future.

The lock is never held across an await, so it is free whenever a task asks for it. A task that is
cancelled while it awaits a future cancels the future, and so does a caller here: the future is
shared, so every other caller gets a `CancelledError`, and the task of the fetch finds a future it
can no longer complete.

* `isolated_of_late_cancels` : the runs in which no caller is cancelled before its fetch ended.
-/

namespace Geofastmap
namespace Gate

open Interleave

inductive Raised (ε : Type) where
  | cancelledError
  | error (e : ε)
deriving DecidableEq

abbrev Fetched (ε β : Type) := Except (Raised ε) β

inductive FutureState (ε β : Type) where
  | pending
  | cancelled
  | done (r : Fetched ε β)

/-- A future, and the key it was made for. -/
structure SharedFuture (κ ε β : Type) where
  key : κ
  state : FutureState ε β

/-- A run of `fetch_once` that has ended. -/
structure FetchRun (κ ε β : Type) where
  key : κ
  fut : Nat
  result : Fetched ε β

/-- What a caller returned or raised. -/
structure Answer (κ ε β : Type) where
  caller : Nat
  key : κ
  result : Fetched ε β

structure Flights (κ ε β : Type) where
  /-- `_pending`. -/
  pending : κ → Option Nat
  /-- The futures made so far; a future is known by its number, and so is a caller. -/
  futures : List (SharedFuture κ ε β)
  callers : Nat
  /-- History. -/
  ended : List (FetchRun κ ε β)
  answers : List (Answer κ ε β)
  cancelled : List Nat

def Flights.idle {κ ε β : Type} : Flights κ ε β := ⟨fun _ => none, [], 0, [], [], []⟩

/-- Where a task is suspended: `_run` before its first step, `_run` at `await fetch_once()`, and a
caller at `await fut`, with whether it was cancelled. -/
inductive Flight (κ : Type) where
  | begin (key : κ) (fut : Nat)
  | fetch (key : κ) (fut : Nat)
  | future (caller : Nat) (key : κ) (fut : Nat) (cancelled : Bool)
deriving DecidableEq

/-- A task goes on, is cancelled, or its `fetch_once()` comes to an end. -/
inductive Wake (ε β : Type) where
  | run
  | cancel
  | fetched (r : Fetched ε β)

section
variable {κ ε β : Type} [DecidableEq κ]

def Flights.state (s : Flights κ ε β) (fut : Nat) : Option (FutureState ε β) :=
  s.futures[fut]?.map SharedFuture.state

/-- A future takes a state, when it is still pending. -/
def Flights.settle (s : Flights κ ε β) (fut : Nat) (st : FutureState ε β) : Flights κ ε β :=
  match s.futures[fut]? with
  | some ⟨key, .pending⟩ => { s with futures := s.futures.set fut ⟨key, st⟩ }
  | _ => s

def Flights.answer (s : Flights κ ε β) (caller : Nat) (key : κ) (r : Fetched ε β) :
    Flights κ ε β :=
  { s with answers := ⟨caller, key, r⟩ :: s.answers }

/-- `return await fut`: a future that is not pending is answered at once. -/
def awaitFuture (caller : Nat) (key : κ) (fut : Nat) (cancelled : Bool) (s : Flights κ ε β) :
    Flights κ ε β × List (Flight κ) :=
  match s.state fut with
  | some .cancelled => (s.answer caller key (.error .cancelledError), [])
  | some (.done r) => (s.answer caller key (if cancelled then .error .cancelledError else r), [])
  | _ => (s, [.future caller key fut cancelled])

/-- The leader makes the future and the task of the fetch. -/
def startLeader (key : κ) (s : Flights κ ε β) : Flights κ ε β × List (Flight κ) :=
  let s' := { s with
    pending := Function.update s.pending key (some s.futures.length)
    futures := s.futures ++ [⟨key, .pending⟩]
    callers := s.callers + 1 }
  (s', [.future s.callers key s.futures.length false, .begin key s.futures.length])

def singleflightStart (key : κ) (s : Flights κ ε β) : Flights κ ε β × List (Flight κ) :=
  match s.pending key with
  | some fut => awaitFuture s.callers key fut false { s with callers := s.callers + 1 }
  | none => startLeader key s

/-- The `finally` of `_run`. -/
def Flights.clear (s : Flights κ ε β) (key : κ) (fut : Nat) : Flights κ ε β :=
  if s.pending key = some fut then { s with pending := Function.update s.pending key none } else s

/-- `_run` after the fetch: `set_result` and `set_exception` raise on a future that is not pending
any more. -/
def fetchEnded (key : κ) (fut : Nat) (r : Fetched ε β) (s : Flights κ ε β) : Flights κ ε β :=
  { (s.settle fut (.done r)).clear key fut with ended := ⟨key, fut, r⟩ :: s.ended }

/-- `Task.cancel()` of a caller: its future is cancelled with it. -/
def cancelCaller (caller fut : Nat) (s : Flights κ ε β) : Flights κ ε β :=
  { s.settle fut .cancelled with cancelled := caller :: s.cancelled }

def singleflightResume : Flight κ → Wake ε β → Flights κ ε β → Flights κ ε β × List (Flight κ)
  | .begin key fut, .run, s => (s, [.fetch key fut])
  | .fetch key fut, .fetched r, s => (fetchEnded key fut r s, [])
  | .future caller key fut cancelled, .run, s => awaitFuture caller key fut cancelled s
  | .future caller key fut _, .cancel, s =>
    (cancelCaller caller fut s, [.future caller key fut true])
  | w, _, s => (s, [w])

def awaitTileSingleflight : Coroutine (Flights κ ε β) (Flight κ) κ (Wake ε β) :=
  ⟨singleflightStart, singleflightResume⟩

/-- The future of a task that fetches. -/
def Flight.running : Flight κ → Option Nat
  | .begin _ fut | .fetch _ fut => some fut
  | .future _ _ _ _ => none

/-- Every caller that was not cancelled got what one run of `fetch_once` for its key came to, or
waits for one that goes on, or is due to get what it came to; each future has one run; and the key
of a run that ended is not registered with its future. -/
structure Isolated (s : Flights κ ε β) (ws : List (Flight κ)) : Prop where
  answers : ∀ x ∈ s.answers, x.caller ∉ s.cancelled → ∃ fut, ⟨x.key, fut, x.result⟩ ∈ s.ended
  once : (s.ended.map FetchRun.fut).Nodup
  cleared : ∀ x ∈ s.ended, ∀ key, s.pending key ≠ some x.fut
  waiting : ∀ caller key fut, .future caller key fut false ∈ ws →
    (.begin key fut ∈ ws ∨ .fetch key fut ∈ ws) ∨
    ∃ r, ⟨key, fut, r⟩ ∈ s.ended ∧
      (singleflightResume (.future caller key fut false) .run s).1.answers =
        ⟨caller, key, r⟩ :: s.answers

def Flights.isPending (s : Flights κ ε β) (fut : Nat) : Bool :=
  match s.state fut with
  | some .pending => true
  | _ => false

/-- A caller is cancelled while its future is pending. -/
def cancelsPending : Flight κ → Wake ε β → Flights κ ε β → Bool
  | .future _ _ fut _, .cancel, s => s.isPending fut
  | _, _, _ => false

def lateCancel : TurnRule (Flights κ ε β) (Flight κ) κ (Wake ε β) where
  arrive _ _ _ := True
  resume w r s _ := cancelsPending w r s = false

end

/-! ## What a run keeps -/

section
variable {κ ε β : Type}

/-- The future was made for the key and is in the state. -/
def Flights.Has (s : Flights κ ε β) (key : κ) (fut : Nat) (st : FutureState ε β) : Prop :=
  s.futures[fut]? = some ⟨key, st⟩

/-- The futures, the tasks and the registry agree. -/
structure Flown (s : Flights κ ε β) (ws : List (Flight κ)) : Prop where
  running : ∀ key fut, .begin key fut ∈ ws ∨ .fetch key fut ∈ ws →
    s.Has key fut .pending
  single : (ws.filterMap Flight.running).Nodup
  pending : ∀ key fut, s.Has key fut .pending →
    .begin key fut ∈ ws ∨ .fetch key fut ∈ ws
  ended : ∀ x ∈ s.ended, s.Has x.key x.fut (.done x.result)
  done : ∀ key fut r, s.Has key fut (.done r) → ⟨key, fut, r⟩ ∈ s.ended
  alive : ∀ key fut, ¬s.Has key fut .cancelled
  once : (s.ended.map FetchRun.fut).Nodup
  registered : ∀ key fut, s.pending key = some fut → s.Has key fut .pending
  waiting : ∀ caller key fut b, .future caller key fut b ∈ ws →
    (∃ st, s.Has key fut st) ∧ (b = true → caller ∈ s.cancelled)
  answers : ∀ x ∈ s.answers, x.caller ∉ s.cancelled → ∃ fut, ⟨x.key, fut, x.result⟩ ∈ s.ended

variable {s : Flights κ ε β} {ws : List (Flight κ)} {key : κ} {fut caller : Nat} {b : Bool}

theorem Flown.perm {ws' : List (Flight κ)} (hp : ws.Perm ws') (h : Flown s ws) : Flown s ws' where
  running k f hm := h.running k f (by simpa only [hp.mem_iff] using hm)
  single := (hp.filterMap _).nodup_iff.mp h.single
  pending k f hf := by simpa only [hp.mem_iff] using h.pending k f hf
  ended := h.ended
  done := h.done
  alive := h.alive
  once := h.once
  registered := h.registered
  waiting c k f b hm := h.waiting c k f b (hp.mem_iff.mpr hm)
  answers := h.answers

theorem flown_idle : Flown (Flights.idle : Flights κ ε β) [] :=
  ⟨by simp, by simp, by simp [Flights.Has, Flights.idle], by simp [Flights.idle],
    by simp [Flights.Has, Flights.idle], by simp [Flights.Has, Flights.idle],
    by simp [Flights.idle], by simp [Flights.idle], by simp, by simp [Flights.idle]⟩

/-- A caller waits for a future with its key. -/
theorem flown_await (h : Flown s ws) {st : FutureState ε β}
    (hf : s.Has key fut st) (hb : b = true → caller ∈ s.cancelled) :
    Flown (awaitFuture caller key fut b s).1 ((awaitFuture caller key fut b s).2 ++ ws) := by
  cases st with
  | cancelled => exact absurd hf (h.alive key fut)
  | pending =>
    have hstay : awaitFuture caller key fut b s = (s, [.future caller key fut b]) := by
      simp [awaitFuture, Flights.state, show s.futures[fut]? = _ from hf]
    rw [hstay]
    refine ⟨fun k f hm => h.running k f (by simpa using hm), by simpa [List.filterMap_cons, Flight.running] using h.single,
      fun k f hk => by simpa using h.pending k f hk, h.ended, h.done, h.alive, h.once, h.registered,
      fun c k f b' hm => ?_, h.answers⟩
    rcases List.mem_cons.mp hm with heq | hm
    · cases heq
      exact ⟨⟨_, hf⟩, hb⟩
    · exact h.waiting c k f b' hm
  | done r =>
    have hend : awaitFuture caller key fut b s =
        (s.answer caller key (if b then .error .cancelledError else r), []) := by
      simp [awaitFuture, Flights.state, show s.futures[fut]? = _ from hf]
    rw [hend]
    refine ⟨h.running, h.single, h.pending, h.ended, h.done, h.alive, h.once, h.registered,
      h.waiting, fun x hx hc => ?_⟩
    rcases List.mem_cons.mp hx with rfl | hx
    · cases b with
      | true => exact absurd (hb rfl) hc
      | false => exact ⟨fut, h.done key fut r hf⟩
    · exact h.answers x hx hc

/-- A new caller changes nothing that is there. -/
theorem Flown.nextCaller (h : Flown s ws) : Flown { s with callers := s.callers + 1 } ws :=
  ⟨h.running, h.single, h.pending, h.ended, h.done, h.alive, h.once, h.registered, h.waiting,
    h.answers⟩

theorem Flights.Has.lt {st : FutureState ε β} (h : s.Has key fut st) : fut < s.futures.length :=
  (List.getElem?_eq_some_iff.mp h).1

theorem Flights.Has.unique {k : κ} {st st' : FutureState ε β} (h : s.Has key fut st)
    (h' : s.Has k fut st') : k = key ∧ st' = st := by
  rw [Flights.Has, h] at h'
  cases h'
  exact ⟨rfl, rfl⟩

theorem flown_begin (h : Flown s (.begin key fut :: ws)) : Flown s (.fetch key fut :: ws) := by
  have hmem : ∀ k f, .begin k f ∈ Flight.fetch key fut :: ws ∨
      .fetch k f ∈ Flight.fetch key fut :: ws ↔
      .begin k f ∈ Flight.begin key fut :: ws ∨ .fetch k f ∈ Flight.begin key fut :: ws := by
    intro k f
    simp only [List.mem_cons, reduceCtorEq, false_or, Flight.begin.injEq, Flight.fetch.injEq]
    tauto
  refine ⟨fun k f hm => h.running k f ((hmem k f).mp hm), by
    simpa [List.filterMap_cons, Flight.running] using h.single,
    fun k f hf => (hmem k f).mpr (h.pending k f hf), h.ended, h.done, h.alive, h.once, h.registered,
    fun c k f b hm => h.waiting c k f b (by simpa using hm), h.answers⟩

theorem settle_pending {st : FutureState ε β} (h : s.Has key fut .pending) :
    s.settle fut st = { s with futures := s.futures.set fut ⟨key, st⟩ } := by
  simp only [Flights.settle, show s.futures[fut]? = _ from h]

theorem flown_dropCaller (h : Flown s (.future caller key fut b :: ws)) : Flown s ws :=
  ⟨fun k f hm => h.running k f (by simpa using hm), by
    simpa [List.filterMap_cons, Flight.running] using h.single,
    fun k f hf => by simpa using h.pending k f hf, h.ended, h.done, h.alive, h.once, h.registered,
    fun c k f b' hm => h.waiting c k f b' (List.mem_cons_of_mem _ hm), h.answers⟩

/-- A caller that is cancelled after its fetch ended takes nothing away from the others. -/
theorem flown_cancel (h : Flown s (.future caller key fut b :: ws))
    (hlate : ¬s.Has key fut .pending) :
    Flown (cancelCaller caller fut s) (.future caller key fut true :: ws) := by
  obtain ⟨⟨st, hst⟩, _⟩ := h.waiting caller key fut b List.mem_cons_self
  have hsettle : s.settle fut .cancelled = s := by
    cases st with
    | pending => exact absurd hst hlate
    | _ => simp only [Flights.settle, show s.futures[fut]? = _ from hst]
  rw [cancelCaller, hsettle]
  refine ⟨fun k f hm => h.running k f (by simpa using hm), by
    simpa [List.filterMap_cons, Flight.running] using h.single,
    fun k f hf => by simpa using h.pending k f hf, h.ended, h.done, h.alive, h.once, h.registered,
    fun c k f b' hm => ?_, fun x hx hc => ?_⟩
  · rcases List.mem_cons.mp hm with heq | hm
    · cases heq
      exact ⟨⟨st, hst⟩, fun _ => List.mem_cons_self⟩
    · obtain ⟨hf, hb⟩ := h.waiting c k f b' (List.mem_cons_of_mem _ hm)
      exact ⟨hf, fun hb' => List.mem_cons_of_mem _ (hb hb')⟩
  · exact h.answers x hx fun hm => hc (List.mem_cons_of_mem _ hm)

variable [DecidableEq κ]

theorem Flown.isolated (h : Flown s ws) : Isolated s ws where
  answers := h.answers
  once := h.once
  cleared x hx k hk := by
    have hpending := h.registered k x.fut hk
    rw [Flights.Has, h.ended x hx] at hpending
    cases hpending
  waiting c k f hm := by
    obtain ⟨⟨st, hst⟩, _⟩ := h.waiting c k f false hm
    cases st with
    | pending => exact .inl (h.pending k f hst)
    | cancelled => exact absurd hst (h.alive k f)
    | done r =>
      refine .inr ⟨r, h.done k f r hst, ?_⟩
      simp [singleflightResume, awaitFuture, Flights.state, show s.futures[f]? = _ from hst, Flights.answer]

theorem has_startLeader {k : κ} {f : Nat} {st : FutureState ε β} :
    (startLeader key s).1.Has k f st ↔
      s.Has k f st ∨ f = s.futures.length ∧ k = key ∧ st = .pending := by
  simp only [Flights.Has, startLeader]
  rcases Nat.lt_trichotomy f s.futures.length with hlt | rfl | hgt
  · rw [List.getElem?_append_left hlt]
    simp [Nat.ne_of_lt hlt]
  · simp [eq_comm]
  · rw [List.getElem?_eq_none (by simp; omega), List.getElem?_eq_none (by omega)]
    simp [Nat.ne_of_gt hgt]

theorem flown_startLeader (h : Flown s ws) :
    Flown (startLeader key s).1 ((startLeader key s).2 ++ ws) := by
  have hmem : ∀ w, w ∈ (startLeader key s).2 ++ ws ↔
      w = .future s.callers key s.futures.length false ∨ w = .begin key s.futures.length ∨
        w ∈ ws := by
    intro w
    simp [startLeader]
  refine ⟨fun k f hm => ?_, ?_, fun k f hf => ?_, fun x hx => ?_, fun k f r hf => ?_,
    fun k f hf => ?_, h.once, fun k f hk => ?_, fun c k f b hm => ?_, h.answers⟩
  · simp only [hmem, reduceCtorEq, false_or, Flight.begin.injEq] at hm
    refine has_startLeader.mpr ?_
    rcases hm with (⟨rfl, rfl⟩ | hm) | hm
    · exact .inr ⟨rfl, rfl, rfl⟩
    · exact .inl (h.running k f (.inl hm))
    · exact .inl (h.running k f (.inr hm))
  · have hnew : s.futures.length ∉ ws.filterMap Flight.running := by
      intro hm
      obtain ⟨w, hw, hrun⟩ := List.mem_filterMap.mp hm
      cases w with
      | begin k f => cases hrun; exact Nat.lt_irrefl _ (h.running k _ (.inl hw)).lt
      | fetch k f => cases hrun; exact Nat.lt_irrefl _ (h.running k _ (.inr hw)).lt
      | future c k f b => cases hrun
    simpa [startLeader, List.filterMap_cons, Flight.running] using
      ⟨by simpa [Flight.running] using hnew, h.single⟩
  · rcases has_startLeader.mp hf with hf | ⟨rfl, rfl, _⟩
    · rcases h.pending k f hf with hm | hm
      · exact .inl ((hmem _).mpr (.inr (.inr hm)))
      · exact .inr ((hmem _).mpr (.inr (.inr hm)))
    · exact .inl ((hmem _).mpr (.inr (.inl rfl)))
  · exact has_startLeader.mpr (.inl (h.ended x hx))
  · rcases has_startLeader.mp hf with hf | ⟨_, _, hst⟩
    · exact h.done k f r hf
    · cases hst
  · rcases has_startLeader.mp hf with hf | ⟨_, _, hst⟩
    · exact h.alive k f hf
    · cases hst
  · refine has_startLeader.mpr ?_
    simp only [startLeader, Function.update_apply] at hk
    split at hk
    · rename_i heq
      exact .inr ⟨(Option.some.inj hk).symm, heq, rfl⟩
    · exact .inl (h.registered k f hk)
  · rcases (hmem _).mp hm with heq | heq | hm
    · cases heq
      exact ⟨⟨_, has_startLeader.mpr (.inr ⟨rfl, rfl, rfl⟩)⟩, nofun⟩
    · cases heq
    · obtain ⟨⟨st, hst⟩, hb⟩ := h.waiting c k f b hm
      exact ⟨⟨st, has_startLeader.mpr (.inl hst)⟩, hb⟩

theorem flown_start (h : Flown s ws) (key : κ) :
    Flown (singleflightStart key s).1 ((singleflightStart key s).2 ++ ws) := by
  unfold singleflightStart
  split
  · rename_i fut hreg
    exact flown_await (s := { s with callers := s.callers + 1 }) h.nextCaller
      (h.registered key fut hreg) nofun
  · exact flown_startLeader h

/-- What the end of a fetch changes. -/
theorem fetchEnded_eq (r : Fetched ε β) (h : s.Has key fut .pending) : fetchEnded key fut r s =
    { s with
      futures := s.futures.set fut ⟨key, .done r⟩
      pending := if s.pending key = some fut then Function.update s.pending key none else s.pending
      ended := ⟨key, fut, r⟩ :: s.ended } := by
  unfold fetchEnded Flights.clear
  rw [settle_pending h]
  split <;> rfl

theorem has_fetchEnded {r : Fetched ε β} (h : s.Has key fut .pending) {k : κ} {f : Nat}
    {st : FutureState ε β} : (fetchEnded key fut r s).Has k f st ↔
      if f = fut then k = key ∧ st = .done r else s.Has k f st := by
  rw [fetchEnded_eq r h, Flights.Has]
  dsimp only
  rw [List.getElem?_set]
  by_cases hf : f = fut
  · subst hf
    simp [h.lt, eq_comm]
  · simp [hf, Ne.symm hf, Flights.Has]

/-- The `finally` takes out the entry of the future that has ended. -/
theorem registered_fetchEnded {r : Fetched ε β} (h : Flown s ws)
    (hpend : s.Has key fut .pending) {k : κ} {f : Nat}
    (hk : (fetchEnded key fut r s).pending k = some f) : s.pending k = some f ∧ f ≠ fut := by
  rw [fetchEnded_eq r hpend] at hk
  dsimp only at hk
  split at hk
  · rw [Function.update_apply] at hk
    split at hk
    · cases hk
    · rename_i hne
      refine ⟨hk, ?_⟩
      rintro rfl
      exact hne (hpend.unique (h.registered k f hk)).1
  · rename_i hout
    refine ⟨hk, ?_⟩
    rintro rfl
    exact hout ((hpend.unique (h.registered k f hk)).1 ▸ hk)

theorem flown_fetchEnded (r : Fetched ε β) (h : Flown s (.fetch key fut :: ws)) :
    Flown (fetchEnded key fut r s) ws := by
  have hpend : s.Has key fut .pending := h.running key fut (.inr List.mem_cons_self)
  have hgone : fut ∉ ws.filterMap Flight.running :=
    (List.nodup_cons.mp (by simpa [Flight.running] using h.single)).1
  have hrun : ∀ k f, .begin k f ∈ ws ∨ .fetch k f ∈ ws → f ≠ fut := by
    rintro k f (hm | hm) rfl
    · exact hgone (List.mem_filterMap.mpr ⟨_, hm, rfl⟩)
    · exact hgone (List.mem_filterMap.mpr ⟨_, hm, rfl⟩)
  have hother : ∀ k f x, f ≠ fut → ((fetchEnded key fut r s).Has k f x ↔ s.Has k f x) := by
    intro k f x hf
    rw [has_fetchEnded hpend, if_neg hf]
  have hnew : ∀ x ∈ s.ended, x.fut ≠ fut := by
    rintro x hx rfl
    have := hpend.unique (h.ended x hx)
    cases this.2
  have hmem : ∀ x, x ∈ (fetchEnded key fut r s).ended ↔ x = ⟨key, fut, r⟩ ∨ x ∈ s.ended := by
    intro x
    simp [fetchEnded]
  refine ⟨fun k f hm => ?_, ?_, fun k f hf => ?_, fun x hx => ?_, fun k f r' hf => ?_,
    fun k f hf => ?_, ?_, fun k f hk => ?_, fun c k f b hm => ?_, ?_⟩
  · rw [hother k f _ (hrun k f hm)]
    refine h.running k f ?_
    exact hm.imp (List.mem_cons_of_mem _) (List.mem_cons_of_mem _)
  · exact (List.nodup_cons.mp (by simpa [Flight.running] using h.single)).2
  · by_cases hff : f = fut
    · rw [has_fetchEnded hpend, if_pos hff] at hf
      cases hf.2
    · have := h.pending k f ((hother k f _ hff).mp hf)
      simpa [hff] using this
  · rcases (hmem x).mp hx with rfl | hx
    · rw [has_fetchEnded hpend, if_pos rfl]
      exact ⟨rfl, rfl⟩
    · rw [hother _ _ _ (hnew x hx)]
      exact h.ended x hx
  · by_cases hff : f = fut
    · rw [has_fetchEnded hpend, if_pos hff] at hf
      cases hf.2
      exact (hmem _).mpr (.inl (by rw [hf.1, hff]))
    · exact (hmem _).mpr (.inr (h.done k f r' ((hother k f _ hff).mp hf)))
  · by_cases hff : f = fut
    · rw [has_fetchEnded hpend, if_pos hff] at hf
      cases hf.2
    · exact h.alive k f ((hother k f _ hff).mp hf)
  · simp only [fetchEnded, List.map_cons, List.nodup_cons]
    refine ⟨fun hm => ?_, h.once⟩
    obtain ⟨x, hx, hxf⟩ := List.mem_map.mp hm
    exact hnew x hx hxf
  · have hreg := registered_fetchEnded h hpend hk
    rw [hother k f _ hreg.2]
    exact h.registered k f hreg.1
  · obtain ⟨⟨st, hst⟩, hb⟩ := h.waiting c k f b (List.mem_cons_of_mem _ hm)
    refine ⟨?_, by rw [fetchEnded_eq r hpend]; exact hb⟩
    by_cases hff : f = fut
    · subst hff
      refine ⟨.done r, ?_⟩
      rw [has_fetchEnded hpend, if_pos rfl]
      exact ⟨(hpend.unique hst).1, rfl⟩
    · exact ⟨st, (hother k f _ hff).mpr hst⟩
  · rw [fetchEnded_eq r hpend]
    intro x hx hc
    obtain ⟨f, hf⟩ := h.answers x hx hc
    exact ⟨f, List.mem_cons_of_mem _ hf⟩

theorem flown_resume (w : Flight κ) (r : Wake ε β) (h : Flown s (w :: ws))
    (hm : lateCancel.resume w r s ws) :
    Flown (singleflightResume w r s).1 ((singleflightResume w r s).2 ++ ws) := by
  cases w with
  | begin key fut =>
    cases r with
    | run => exact flown_begin h
    | _ => exact h
  | fetch key fut =>
    cases r with
    | fetched r => exact flown_fetchEnded r h
    | _ => exact h
  | future caller key fut b =>
    cases r with
    | run =>
      obtain ⟨⟨st, hst⟩, hb⟩ := h.waiting caller key fut b List.mem_cons_self
      exact flown_await (s := s) (flown_dropCaller h) hst hb
    | cancel =>
      refine flown_cancel h fun hp => ?_
      simp [lateCancel, cancelsPending, Flights.isPending, Flights.state,
        show s.futures[fut]? = _ from hp] at hm
    | fetched r => exact h

/-- In every run in which no caller is cancelled while its fetch goes on, each caller that was not
cancelled gets the result or the exception of one run of `fetch_once` for its key. -/
theorem isolated_of_late_cancels (ts : List (Turn κ (Wake ε β)))
    (h : (Tasks.mk (Flights.idle : Flights κ ε β) []).Meets awaitTileSingleflight lateCancel ts) :
    (Tasks.mk (Flights.idle : Flights κ ε β) []).Along awaitTileSingleflight Isolated ts :=
  (along_of_meets (Q := Flown) ⟨fun _ _ _ hp hs => hs.perm hp, fun a _ _ hs _ => flown_start hs a,
    fun w r _ _ hs hm => flown_resume w r hs hm⟩ ts flown_idle h).mono fun _ _ hs => hs.isolated

end

/-! ## Runs -/

instance {κ ε β : Type} (a : κ) (s : Flights κ ε β) (ws : List (Flight κ)) :
    Decidable (lateCancel.arrive a s ws) := isTrue trivial

instance {κ ε β : Type} (w : Flight κ) (r : Wake ε β) (s : Flights κ ε β) (ws : List (Flight κ)) :
    Decidable (lateCancel.resume w r s ws) :=
  inferInstanceAs (Decidable (cancelsPending w r s = false))

/-- Two callers of one key; the first is cancelled while the fetch goes on. -/
def earlyCancel : List (Turn Unit (Wake Unit Nat)) :=
  [.arrive (), .arrive (), .resume 1 .cancel, .resume 1 .run]

/-- The caller that was not cancelled gets the cancellation of the other one. -/
theorem cancelled_leader_cancels_follower :
    ¬(Tasks.mk (Flights.idle : Flights Unit Unit Nat) []).Along awaitTileSingleflight Isolated
      earlyCancel := by
  intro h
  obtain ⟨fut, hfut⟩ := h.last.answers ⟨1, (), .error .cancelledError⟩ (List.mem_cons_self)
    (by decide)
  cases hfut

/-- The first caller is cancelled when the fetch has ended and before it is resumed. -/
theorem late_cancel_isolated :
    (Tasks.mk (Flights.idle : Flights Unit Unit Nat) []).Along awaitTileSingleflight Isolated
      [.arrive (), .arrive (), .resume 2 .run, .resume 0 (.fetched (.ok 7)), .resume 1 .cancel,
        .resume 1 .run] :=
  isolated_of_late_cancels _ (by decide)

end Gate
end Geofastmap
