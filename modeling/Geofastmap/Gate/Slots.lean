import Mathlib.Tactic.Ring
import Geofastmap.Interleave.EventLoop

/-!
# Geofastmap.Gate.Slots

The gates of `titiler_gate.py` and `db_load_gate.py`: at most `max_c` callers run their `fn`, the
others wait for an event each, the newest first in line.

No section under the lock of a gate awaits anything, so the lock is free whenever a caller asks for
it and `async with` does not suspend. What is left are four kinds of awaits (`Await`).

A caller that leaves gives its slot up and sets the event of a waiter; the waiter counts itself when
it is resumed. `booked` counts the slots held and the signals on their way.

* `booked` grows only when a caller enters directly, and shrinks only when a caller leaves with
  nobody in line or when a signalled waiter gives up.
* `running_le_max` : no caller enters directly into a slot that is booked.
* `no_wakeup_lost_iff` : no signalled waiter gives up while others are in line.
-/

namespace Geofastmap
namespace Gate

open Interleave

/-- A gate, the events that are set, and the number of events made so far. An event is known by
its number. -/
structure Slots where
  active : Int
  waiters : List Nat
  set : List Nat
  events : Nat

def Slots.idle : Slots := ⟨0, [], [], 0⟩

inductive Exn where
  | cancelled
  | timeout
  | clientDisconnected
  | other
deriving DecidableEq

/-- A caller: whether it has a request, and a handler for overload. -/
structure Caller where
  request : Bool
  onOverload : Bool
deriving DecidableEq

/-- `expired`: the wait budget is used up when the loop looks at the clock. -/
structure Arrival where
  caller : Caller
  expired : Bool
deriving DecidableEq

/-- Where a caller is suspended. -/
inductive Await where
  /-- `await fn()` with a slot, or without one when the gate is off. -/
  | fn
  | ungated
  /-- `asyncio.wait_for(ev.wait(), …)`. -/
  | event (ev : Nat) (caller : Caller)
  /-- `raise_if_disconnected(request)`. -/
  | disconnect (ev : Nat) (caller : Caller)
  /-- `await on_overload()`. -/
  | overload (ev : Nat)
deriving DecidableEq

/-- What an await comes to. -/
structure Outcome where
  raised : Option Exn
  expired : Bool
deriving DecidableEq

/-! ## Both gates -/

/-- `if waiters: waiters.popleft().set()`. -/
def Slots.signalNext (s : Slots) : Slots :=
  match s.waiters with
  | ev :: rest => { s with waiters := rest, set := ev :: s.set }
  | [] => s

/-- `waiters.remove(ev)`, with its `ValueError` swallowed. -/
def Slots.remove (ev : Nat) (s : Slots) : Slots := { s with waiters := s.waiters.erase ev }

/-- The slot is counted, and `fn` called. -/
def Slots.enter (s : Slots) : Slots × List Await := ({ s with active := s.active + 1 }, [.fn])

/-- A new event at the front of the line. -/
def Slots.queue (s : Slots) : Slots :=
  { s with waiters := s.events :: s.waiters, events := s.events + 1 }

/-! ## `titiler_upstream_gate_run` -/

def releaseSlot (s : Slots) : Slots := Slots.signalNext { s with active := s.active - 1 }

def abandonWaiter (ev : Nat) (s : Slots) : Slots := s.remove ev

/-- The loop of a waiter, from its head. -/
def titilerWait (ev : Nat) (caller : Caller) (s : Slots) : Slots × List Await :=
  if s.set.contains ev then s.enter else (s, [.event ev caller])

def titilerStart (maxC : Int) (a : Arrival) (s : Slots) : Slots × List Await :=
  if maxC ≤ 0 then (s, [.ungated])
  else if s.active < maxC then s.enter
  else titilerWait s.events a.caller s.queue

def titilerResume : Await → Outcome → Slots → Slots × List Await
  | .fn, _, s => (releaseSlot s, [])
  | .ungated, _, s => (s, [])
  | .event ev caller, r, s =>
    match r.raised with
    | none => titilerWait ev caller s
    | some .timeout =>
      if caller.request then (s, [.disconnect ev caller]) else titilerWait ev caller s
    | some _ => (abandonWaiter ev s, [])
  | .disconnect ev caller, r, s =>
    match r.raised with
    | none => titilerWait ev caller s
    | some _ => (abandonWaiter ev s, [])
  -- this gate has no such await
  | .overload _, _, s => (s, [])

def titilerUpstreamGateRun (maxC : Int) : Coroutine Slots Await Arrival Outcome :=
  ⟨titilerStart maxC, titilerResume⟩

/-! ## `_run_gated` -/

/-- `_release`. -/
def release (s : Slots) : Slots := Slots.signalNext { s with active := max 0 (s.active - 1) }

/-- The loop of a waiter, from its head. The exception of an overload passes the handler that
removes the event again. -/
def gatedWait (ev : Nat) (caller : Caller) (expired : Bool) (s : Slots) : Slots × List Await :=
  if s.set.contains ev then s.enter
  else if expired then
    if caller.onOverload then (s.remove ev, [.overload ev]) else ((s.remove ev).remove ev, [])
  else (s, [.event ev caller])

def gatedStart (maxC : Int) (a : Arrival) (s : Slots) : Slots × List Await :=
  if maxC ≤ 0 then (s, [.ungated])
  else if s.active < maxC then s.enter
  else gatedWait s.events a.caller a.expired s.queue

def gatedResume : Await → Outcome → Slots → Slots × List Await
  | .fn, _, s => (release s, [])
  | .ungated, _, s => (s, [])
  | .event ev caller, r, s =>
    match r.raised with
    | none => gatedWait ev caller r.expired s
    | some .timeout =>
      if caller.request then (s, [.disconnect ev caller]) else gatedWait ev caller r.expired s
    | some _ => (s.remove ev, [])
  | .disconnect ev caller, r, s =>
    match r.raised with
    | none => gatedWait ev caller r.expired s
    -- a cancellation is no `Exception`, so it passes one handler only
    | some .cancelled => (s.remove ev, [])
    | some _ => ((s.remove ev).remove ev, [])
  | .overload ev, r, s => if r.raised.isSome then (s.remove ev, []) else (s, [])

def runGated (maxC : Int) : Coroutine Slots Await Arrival Outcome :=
  ⟨gatedStart maxC, gatedResume⟩

inductive GateKind where
  | titiler
  | db
deriving DecidableEq

def gate (maxC : Int) : GateKind → Coroutine Slots Await Arrival Outcome
  | .titiler => titilerUpstreamGateRun maxC
  | .db => runGated maxC

/-! ## What the claims speak of -/

/-- `fn` is running. -/
def Await.running : Await → Bool
  | .fn | .ungated => true
  | _ => false

def Await.ev : Await → Option Nat
  | .event ev _ | .disconnect ev _ | .overload ev => some ev
  | _ => none

/-- The event that a caller waits for. -/
def Await.waiting : Await → Option Nat
  | .event ev _ | .disconnect ev _ => some ev
  | _ => none

section
variable {ev : Nat} {caller : Caller}

@[simp] theorem Await.ev_fn : Await.fn.ev = none := rfl
@[simp] theorem Await.ev_event : (Await.event ev caller).ev = some ev := rfl
@[simp] theorem Await.ev_disconnect : (Await.disconnect ev caller).ev = some ev := rfl
@[simp] theorem Await.ev_overload : (Await.overload ev).ev = some ev := rfl
@[simp] theorem Await.waiting_fn : Await.fn.waiting = none := rfl
@[simp] theorem Await.waiting_event : (Await.event ev caller).waiting = some ev := rfl
@[simp] theorem Await.waiting_disconnect : (Await.disconnect ev caller).waiting = some ev := rfl
@[simp] theorem Await.waiting_overload : (Await.overload ev).waiting = none := rfl

end

/-- The events of the waiters that are set: these callers are signalled and not yet resumed. -/
def signalled (s : Slots) (ws : List Await) : List Nat :=
  (ws.filterMap Await.waiting).filter fun ev => s.set.contains ev

/-- The callers that hold a slot, and the waiters that are signalled. -/
def booked (s : Slots) (ws : List Await) : Int :=
  (ws.countP (· == .fn) : Int) + (signalled s ws).length

/-- The outcome makes a waiter give up. -/
def gaveUp : Await → Outcome → Bool
  | .event _ _, r => r.raised.isSome && r.raised != some .timeout
  | .disconnect _ _, r => r.raised.isSome
  | _, _ => false

/-! ## What every run keeps -/

/-- The counter and the line of the gate agree with the callers. -/
structure Wired (s : Slots) (ws : List Await) : Prop where
  gated : Await.ungated ∉ ws
  active : s.active = ws.countP (· == .fn)
  nodup : (ws.filterMap Await.ev).Nodup
  queued : ((ws.filterMap Await.waiting).filter fun ev => !s.set.contains ev).Perm s.waiters
  made : ∀ ev ∈ ws.filterMap Await.ev, ev < s.events
  set : ∀ ev ∈ s.set, ev < s.events

theorem Await.ev_of_waiting {w : Await} {ev : Nat} (h : w.waiting = some ev) : w.ev = some ev := by
  cases w <;> simp_all [Await.waiting, Await.ev]

theorem waiting_subset {ws : List Await} {ev : Nat} (h : ev ∈ ws.filterMap Await.waiting) :
    ev ∈ ws.filterMap Await.ev := by
  obtain ⟨w, hw, hev⟩ := List.mem_filterMap.mp h
  exact List.mem_filterMap.mpr ⟨w, hw, Await.ev_of_waiting hev⟩

theorem Await.waiting_not_fn {w : Await} {ev : Nat} (h : w.waiting = some ev) :
    (w == .fn) = false := by
  cases w <;> simp_all [Await.waiting]

theorem Wired.perm {s : Slots} {ws ws' : List Await} (hp : ws.Perm ws') (h : Wired s ws) :
    Wired s ws' where
  gated := fun hm => h.gated (hp.mem_iff.mpr hm)
  active := by rw [h.active, hp.countP_eq]
  nodup := (hp.filterMap _).nodup_iff.mp h.nodup
  queued := ((hp.filterMap _).filter _).symm.trans h.queued
  made := fun ev hev => h.made ev ((hp.filterMap _).mem_iff.mpr hev)
  set := h.set

theorem booked_perm {s : Slots} {ws ws' : List Await} (hp : ws.Perm ws') :
    booked s ws = booked s ws' := by
  simp only [booked, signalled, hp.countP_eq, ((hp.filterMap Await.waiting).filter _).length_eq]

theorem wired_idle : Wired Slots.idle [] :=
  ⟨by simp, rfl, by simp, by simp [Slots.idle], by simp, by simp [Slots.idle]⟩

section
variable {s : Slots} {w w' : Await} {ws : List Await} {ev : Nat} {caller : Caller}

/-- A waiter stands in line until it is signalled. -/
theorem Wired.mem_waiters (h : Wired s ws) :
    ev ∈ s.waiters ↔ ev ∈ ws.filterMap Await.waiting ∧ ev ∉ s.set := by
  rw [← h.queued.mem_iff, List.mem_filter]
  simp

theorem Wired.waiters_nodup (h : Wired s ws) : s.waiters.Nodup := by
  refine h.queued.nodup_iff.mp (List.Nodup.sublist List.filter_sublist ?_)
  refine h.nodup.sublist ?_
  have heq : ws.filterMap Await.waiting =
      (ws.filter fun w => w.waiting.isSome).filterMap Await.ev := by
    rw [List.filterMap_filter]
    refine List.filterMap_congr fun w _ => ?_
    cases w <;> rfl
  rw [heq]
  exact List.Sublist.filterMap _ List.filter_sublist

/-- `fn` with a slot is one caller more. -/
theorem Wired.enter (h : Wired s ws) : Wired s.enter.1 (s.enter.2 ++ ws) where
  gated := by simpa [Slots.enter] using h.gated
  active := by simp [Slots.enter, h.active]
  nodup := by simpa [Slots.enter, List.filterMap_cons] using h.nodup
  queued := by simpa [Slots.enter, List.filterMap_cons] using h.queued
  made := by simpa [Slots.enter] using h.made
  set := h.set

theorem booked_enter : booked s.enter.1 (s.enter.2 ++ ws) = booked s ws + 1 := by
  simp [booked, signalled, Slots.enter, List.filterMap_cons]
  ring

theorem Wired.queue (h : Wired s ws) (caller : Caller) :
    Wired s.queue (.event s.events caller :: ws) := by
  have hnew : s.events ∉ ws.filterMap Await.ev := fun hm => Nat.lt_irrefl _ (h.made _ hm)
  have hset : s.events ∉ s.set := fun hm => Nat.lt_irrefl _ (h.set _ hm)
  refine ⟨by simpa using h.gated, by simpa [Slots.queue] using h.active, ?_, ?_, ?_, ?_⟩
  · simpa using ⟨by simpa using hnew, h.nodup⟩
  · simpa [Slots.queue, hset] using h.queued
  · intro ev hev
    rw [List.filterMap_cons_some Await.ev_event] at hev
    rcases List.mem_cons.mp hev with rfl | hev
    · exact Nat.lt_succ_self _
    · exact Nat.lt_succ_of_lt (h.made ev hev)
  · exact fun ev hev => Nat.lt_succ_of_lt (h.set ev hev)

theorem booked_queue (h : Wired s ws) (caller : Caller) :
    booked s.queue (.event s.events caller :: ws) = booked s ws := by
  have hset : s.events ∉ s.set := fun hm => Nat.lt_irrefl _ (h.set _ hm)
  simp [booked, signalled, Slots.queue, hset]

/-- The head of the line is signalled. -/
theorem Wired.signalNext (h : Wired s ws) : Wired s.signalNext ws := by
  unfold Slots.signalNext
  split
  · rename_i ev rest hw
    have hev := h.mem_waiters.mp (hw ▸ List.mem_cons_self)
    have hrest : ev ∉ rest := (List.nodup_cons.mp (hw ▸ h.waiters_nodup)).1
    refine ⟨h.gated, h.active, h.nodup, ?_, h.made, ?_⟩
    · have hq := (hw ▸ h.queued).filter (fun x => !(x == ev))
      have hr : (ev :: rest).filter (fun x => !(x == ev)) = rest := by
        rw [List.filter_cons]
        simp only [beq_self_eq_true, Bool.not_true, Bool.false_eq_true, if_false]
        exact List.filter_eq_self.mpr fun x hx => by
          simpa using fun he : x = ev => hrest (he ▸ hx)
      rw [hr, List.filter_filter] at hq
      refine (List.Perm.of_eq ?_).trans hq
      refine List.filter_congr fun x _ => ?_
      by_cases hx : x = ev <;> simp [hx]
    · intro x hx
      rcases List.mem_cons.mp hx with rfl | hx
      · exact h.made _ (waiting_subset hev.1)
      · exact h.set x hx
  · exact h

theorem booked_signalNext (h : Wired s ws) : booked s.signalNext ws =
    booked s ws + if s.waiters = [] then 0 else 1 := by
  have hafter := h.signalNext
  have hsplit : ∀ {t : Slots}, Wired t ws →
      (ws.filterMap Await.waiting).length = t.waiters.length + (signalled t ws).length := by
    intro t ht
    have := List.length_eq_length_filter_add
      (l := ws.filterMap Await.waiting) fun ev => t.set.contains ev
    rw [this, ← ht.queued.length_eq, signalled, Nat.add_comm]
  have h1 := hsplit h
  have h2 := hsplit hafter
  have hlen : s.signalNext.waiters.length + (if s.waiters = [] then 0 else 1) =
      s.waiters.length := by
    unfold Slots.signalNext
    split
    · rename_i hw; simp [hw]
    · rename_i hw; simp [hw]
  simp only [booked]
  split at hlen
  · rename_i hw
    rw [if_pos hw]
    omega
  · rename_i hw
    rw [if_neg hw]
    omega

/-- A caller with a slot is gone, and its slot counted back. -/
theorem Wired.leave (h : Wired s (.fn :: ws)) : Wired { s with active := s.active - 1 } ws where
  gated := fun hm => h.gated (List.mem_cons_of_mem _ hm)
  active := by simp [h.active]
  nodup := by simpa [List.filterMap_cons] using h.nodup
  queued := by simpa [List.filterMap_cons] using h.queued
  made := by simpa [List.filterMap_cons] using h.made
  set := h.set

/-- The event of a waiter that is signalled is not in line. -/
theorem Wired.remove_eq_self (h : Wired s ws) (hset : ev ∈ s.set) : s.remove ev = s := by
  have hout : ev ∉ s.waiters := fun hm => (h.mem_waiters.mp hm).2 hset
  simp [Slots.remove, List.erase_of_not_mem hout]

/-- A waiter is gone, and its event taken out of the line. -/
theorem Wired.remove (h : Wired s (w :: ws)) (hw : w.waiting = some ev) :
    Wired (s.remove ev) ws := by
  have hev := Await.ev_of_waiting hw
  refine ⟨fun hm => h.gated (List.mem_cons_of_mem _ hm), ?_, ?_, ?_, ?_, h.set⟩
  · simpa [Slots.remove, Await.waiting_not_fn hw] using h.active
  · exact (List.nodup_cons.mp (by simpa [hev] using h.nodup)).2
  · by_cases hset : ev ∈ s.set
    · rw [h.remove_eq_self hset]
      simpa [hw, hset] using h.queued
    · have hq := h.queued.erase ev
      simpa [Slots.remove, hw, hset] using hq
  · exact fun x hx => h.made x (by rw [List.filterMap_cons_some hev]; exact List.mem_cons_of_mem _ hx)

theorem booked_remove (hw : w.waiting = some ev) :
    booked (s.remove ev) ws = booked s (w :: ws) - if ev ∈ s.set then 1 else 0 := by
  have hfn := Await.waiting_not_fn hw
  by_cases hset : ev ∈ s.set
  · simp [booked, signalled, Slots.remove, hw, hset, hfn]
    ring
  · simp [booked, signalled, Slots.remove, hw, hset, hfn]

/-- A waiter goes on waiting for its event, at the same await or at another one. -/
theorem Wired.move (h : Wired s (w :: ws)) (hw : w.waiting = some ev) (hw' : w'.waiting = some ev) :
    Wired s (w' :: ws) := by
  have hev := Await.ev_of_waiting hw
  have hev' := Await.ev_of_waiting hw'
  have hne : w' ≠ .ungated := by rintro rfl; cases hw'
  refine ⟨?_, ?_, ?_, ?_, ?_, h.set⟩
  · exact fun hm => (List.mem_cons.mp hm).elim (fun he => hne he.symm)
      fun hm => h.gated (List.mem_cons_of_mem _ hm)
  · simpa [Await.waiting_not_fn hw, Await.waiting_not_fn hw'] using h.active
  · simpa [hev, hev'] using h.nodup
  · simpa [hw, hw'] using h.queued
  · have hmade := h.made
    rw [List.filterMap_cons_some hev] at hmade
    rwa [List.filterMap_cons_some hev']

theorem booked_move (hw : w.waiting = some ev) (hw' : w'.waiting = some ev) :
    booked s (w' :: ws) = booked s (w :: ws) := by
  simp [booked, signalled, hw, hw', Await.waiting_not_fn hw, Await.waiting_not_fn hw']

/-- The overload handler of a caller that is out of the line. -/
theorem Wired.overload (h : Wired s (w :: ws)) (hw : w.waiting = some ev) :
    Wired (s.remove ev) (.overload ev :: ws) := by
  have hev := Await.ev_of_waiting hw
  have hgone := h.remove hw
  have hmade := h.made
  rw [List.filterMap_cons_some hev] at hmade
  refine ⟨by simpa using hgone.gated, by simpa using hgone.active, ?_, ?_, ?_, hgone.set⟩
  · simpa [hev] using h.nodup
  · simpa [List.filterMap_cons] using hgone.queued
  · rwa [List.filterMap_cons_some Await.ev_overload]

theorem Wired.remove_overload (h : Wired s (.overload ev :: ws)) : s.remove ev = s := by
  have hout : ev ∉ s.waiters := by
    intro hm
    have hwait := (h.mem_waiters.mp hm).1
    rw [List.filterMap_cons_none Await.waiting_overload] at hwait
    have hnd := h.nodup
    rw [List.filterMap_cons_some Await.ev_overload] at hnd
    exact (List.nodup_cons.mp hnd).1 (waiting_subset hwait)
  simp [Slots.remove, List.erase_of_not_mem hout]

theorem Wired.forget (h : Wired s (.overload ev :: ws)) : Wired s ws where
  gated := fun hm => h.gated (List.mem_cons_of_mem _ hm)
  active := by simpa using h.active
  nodup := (List.nodup_cons.mp (by simpa using h.nodup)).2
  queued := by simpa [List.filterMap_cons] using h.queued
  made := fun x hx => h.made x (by simpa using .inr (by simpa using hx))
  set := h.set

theorem booked_overload : booked s (.overload ev :: ws) = booked s ws := by
  simp [booked, signalled, List.filterMap_cons]

theorem Wired.remove_remove (h : Wired s ws) : (s.remove ev).remove ev = s.remove ev := by
  have hout : ev ∉ s.waiters.erase ev := h.waiters_nodup.not_mem_erase
  simp only [Slots.remove, List.erase_of_not_mem hout]

/-! ## What a turn does -/

/-- A turn that takes no booking away from those in line, and adds none. -/
structure Calm (s : Slots) (ws : List Await) (s' : Slots) (ws' : List Await) : Prop where
  wired : Wired s' ws'
  le : booked s' ws' ≤ booked s ws
  line : s'.waiters ≠ [] → s.waiters ≠ [] ∧ booked s ws ≤ booked s' ws'

theorem Calm.of_eq {s' : Slots} {ws' : List Await} (hw : Wired s' ws')
    (hb : booked s' ws' = booked s ws) (hl : s'.waiters ≠ [] → s.waiters ≠ []) :
    Calm s ws s' ws' :=
  ⟨hw, hb.le, fun h => ⟨hl h, hb.ge⟩⟩

theorem calm_admit (h : Wired s (w :: ws)) (hw : w.waiting = some ev) (hset : ev ∈ s.set) :
    Calm s (w :: ws) s.enter.1 (s.enter.2 ++ ws) := by
  have hgone := h.remove hw
  have hb : booked (s.remove ev) ws = _ := booked_remove hw
  rw [h.remove_eq_self hset] at hgone hb
  refine Calm.of_eq hgone.enter ?_ fun hl => hl
  rw [booked_enter, hb, if_pos hset]
  omega

theorem calm_move (h : Wired s (w :: ws)) (hw : w.waiting = some ev)
    (hw' : w'.waiting = some ev) : Calm s (w :: ws) s (w' :: ws) :=
  Calm.of_eq (h.move hw hw') (booked_move hw hw') fun hl => hl

theorem remove_line : (s.remove ev).waiters ≠ [] → s.waiters ≠ [] := by
  intro h hnil
  simp [Slots.remove, hnil] at h

/-- A waiter that is not signalled may go. -/
theorem calm_remove (h : Wired s (w :: ws)) (hw : w.waiting = some ev) (hset : ev ∉ s.set) :
    Calm s (w :: ws) (s.remove ev) ws :=
  Calm.of_eq (h.remove hw) (by rw [booked_remove hw, if_neg hset]; ring) remove_line

theorem calm_overload (h : Wired s (w :: ws)) (hw : w.waiting = some ev) (hset : ev ∉ s.set) :
    Calm s (w :: ws) (s.remove ev) (.overload ev :: ws) :=
  Calm.of_eq (h.overload hw) (by rw [booked_overload, booked_remove hw, if_neg hset]; ring)
    remove_line

theorem calm_signalNext (h : Wired s (.fn :: ws)) {s' : Slots}
    (hs : s' = { s with active := s.active - 1 }) :
    Calm s (.fn :: ws) s'.signalNext ws := by
  have hleft : Wired s' ws := hs ▸ h.leave
  have hb : booked s' ws = booked s (.fn :: ws) - 1 := by
    subst hs
    simp [booked, signalled, List.filterMap_cons]
    ring
  have hline : s'.waiters = s.waiters := by rw [hs]
  have hsig := booked_signalNext hleft
  refine ⟨hleft.signalNext, ?_, fun hl => ?_⟩
  · split at hsig <;> omega
  · have hne : s'.waiters ≠ [] := by
      intro hnil
      exact hl (by simp [Slots.signalNext, hnil])
    rw [if_neg hne] at hsig
    exact ⟨hline ▸ hne, by omega⟩

theorem calm_titilerWait (h : Wired s (w :: ws)) (hw : w.waiting = some ev) :
    Calm s (w :: ws) (titilerWait ev caller s).1 ((titilerWait ev caller s).2 ++ ws) := by
  unfold titilerWait
  split
  · rename_i hset
    exact calm_admit h hw (by simpa using hset)
  · exact calm_move h hw Await.waiting_event

theorem calm_gatedWait {expired : Bool} (h : Wired s (w :: ws)) (hw : w.waiting = some ev) :
    Calm s (w :: ws) (gatedWait ev caller expired s).1
      ((gatedWait ev caller expired s).2 ++ ws) := by
  unfold gatedWait
  split
  · rename_i hset
    exact calm_admit h hw (by simpa using hset)
  · rename_i hset
    have hset : ev ∉ s.set := by simpa using hset
    split
    · split
      · exact calm_overload h hw hset
      · rw [h.remove_remove]
        exact calm_remove h hw hset
    · exact calm_move h hw Await.waiting_event

/-- What comes of a turn that resumes a caller: a signalled waiter that gives up takes a booking
with it, and every other turn is calm. -/
def Resumed (w : Await) (r : Outcome) (s : Slots) (ws : List Await) (s' : Slots)
    (ws' : List Await) : Prop :=
  if gaveUp w r = true ∧ ∃ ev ∈ w.waiting, ev ∈ s.set then
    Wired s' ws' ∧ booked s' ws' = booked s (w :: ws) - 1 ∧ s'.waiters = s.waiters
  else Calm s (w :: ws) s' ws'

theorem resumed_calm {r : Outcome} {s' : Slots} {ws' : List Await} (hg : gaveUp w r = false)
    (h : Calm s (w :: ws) s' ws') : Resumed w r s ws s' ws' := by
  rw [Resumed, if_neg (by simp [hg])]
  exact h

theorem resumed_remove {r : Outcome} (h : Wired s (w :: ws)) (hw : w.waiting = some ev)
    (hg : gaveUp w r = true) : Resumed w r s ws (s.remove ev) ws := by
  unfold Resumed
  by_cases hset : ev ∈ s.set
  · rw [if_pos ⟨hg, ev, hw, hset⟩]
    refine ⟨h.remove hw, by rw [booked_remove hw, if_pos hset], ?_⟩
    rw [h.remove_eq_self hset]
  · rw [if_neg]
    · exact calm_remove h hw hset
    · rintro ⟨_, ev', hev', hset'⟩
      rw [hw] at hev'
      exact hset (Option.some.inj hev' ▸ hset')

theorem titilerResume_resumed (h : Wired s (w :: ws)) (r : Outcome) :
    Resumed w r s ws (titilerResume w r s).1 ((titilerResume w r s).2 ++ ws) := by
  cases w with
  | fn => exact resumed_calm rfl (calm_signalNext h rfl)
  | ungated => exact absurd List.mem_cons_self h.gated
  | overload ev =>
    refine resumed_calm rfl (Calm.of_eq h.forget booked_overload.symm fun hl => hl)
  | event ev caller =>
    obtain ⟨raised, expired⟩ := r
    match raised with
    | none => exact resumed_calm rfl (calm_titilerWait h rfl)
    | some .timeout =>
      refine resumed_calm rfl ?_
      simp only [titilerResume]
      split
      · exact calm_move h rfl rfl
      · exact calm_titilerWait h rfl
    | some .cancelled => exact resumed_remove h rfl rfl
    | some .clientDisconnected => exact resumed_remove h rfl rfl
    | some .other => exact resumed_remove h rfl rfl
  | disconnect ev caller =>
    obtain ⟨raised, expired⟩ := r
    match raised with
    | none => exact resumed_calm rfl (calm_titilerWait h rfl)
    | some e => exact resumed_remove h rfl rfl

theorem gatedResume_resumed (h : Wired s (w :: ws)) (r : Outcome) :
    Resumed w r s ws (gatedResume w r s).1 ((gatedResume w r s).2 ++ ws) := by
  cases w with
  | fn =>
    refine resumed_calm rfl (calm_signalNext h ?_)
    have : 1 ≤ s.active := by rw [h.active]; simp
    simp only [Slots.mk.injEq, and_self, and_true]
    omega
  | ungated => exact absurd List.mem_cons_self h.gated
  | overload ev =>
    have hstay : gatedResume (.overload ev) r s = (s, []) := by
      simp only [gatedResume, h.remove_overload, ite_self]
    rw [hstay]
    exact resumed_calm rfl (Calm.of_eq h.forget booked_overload.symm fun hl => hl)
  | event ev caller =>
    obtain ⟨raised, expired⟩ := r
    match raised with
    | none => exact resumed_calm rfl (calm_gatedWait h rfl)
    | some .timeout =>
      refine resumed_calm rfl ?_
      simp only [gatedResume]
      split
      · exact calm_move h rfl rfl
      · exact calm_gatedWait h rfl
    | some .cancelled => exact resumed_remove h rfl rfl
    | some .clientDisconnected => exact resumed_remove h rfl rfl
    | some .other => exact resumed_remove h rfl rfl
  | disconnect ev caller =>
    obtain ⟨raised, expired⟩ := r
    have htwice : ∀ e, Resumed (.disconnect ev caller) ⟨some e, expired⟩ s ws
        ((s.remove ev).remove ev) ws := by
      intro e
      rw [h.remove_remove]
      exact resumed_remove h rfl rfl
    match raised with
    | none => exact resumed_calm rfl (calm_gatedWait h rfl)
    | some .cancelled => exact resumed_remove h rfl rfl
    | some .timeout => exact htwice _
    | some .clientDisconnected => exact htwice _
    | some .other => exact htwice _

/-- What comes of a new caller: it takes a slot, or waits while all of them are held. -/
def Arrived (maxC : Int) (s : Slots) (ws : List Await) (s' : Slots) (ws' : List Await) : Prop :=
  Wired s' ws' ∧
    if s.active < maxC then booked s' ws' = booked s ws + 1 ∧ s'.waiters = s.waiters
    else booked s' ws' = booked s ws

theorem arrived_enter {maxC : Int} (h : Wired s ws) (hlt : s.active < maxC) :
    Arrived maxC s ws s.enter.1 (s.enter.2 ++ ws) :=
  ⟨h.enter, by rw [if_pos hlt]; exact ⟨booked_enter, rfl⟩⟩

/-- The caller gets a new event, and what its loop does with it first is calm. -/
theorem arrived_queue {maxC : Int} (h : Wired s ws) (caller : Caller) (hge : ¬s.active < maxC) {s' : Slots}
    {ws' : List Await} (hwait : Wired s' ws')
    (hb : booked s' ws' = booked s.queue (.event s.events caller :: ws)) :
    Arrived maxC s ws s' ws' :=
  ⟨hwait, by rw [if_neg hge, hb, booked_queue h caller]⟩

theorem titilerStart_arrived {maxC : Int} (hmax : 1 ≤ maxC) (h : Wired s ws) (a : Arrival) :
    Arrived maxC s ws (titilerStart maxC a s).1 ((titilerStart maxC a s).2 ++ ws) := by
  unfold titilerStart
  rw [if_neg (by omega)]
  split
  · rename_i hlt
    exact arrived_enter h hlt
  · rename_i hge
    have hnew : ¬s.queue.set.contains s.events := by
      simpa [Slots.queue] using fun hm => Nat.lt_irrefl _ (h.set _ hm)
    rw [titilerWait, if_neg hnew]
    exact arrived_queue h a.caller hge (h.queue _) rfl

theorem gatedStart_arrived {maxC : Int} (hmax : 1 ≤ maxC) (h : Wired s ws) (a : Arrival) :
    Arrived maxC s ws (gatedStart maxC a s).1 ((gatedStart maxC a s).2 ++ ws) := by
  unfold gatedStart
  rw [if_neg (by omega)]
  split
  · rename_i hlt
    exact arrived_enter h hlt
  · rename_i hge
    have hset : s.events ∉ s.queue.set := fun hm => Nat.lt_irrefl _ (h.set _ hm)
    have hnew : ¬s.queue.set.contains s.events := by simpa using hset
    have hqueue := h.queue a.caller
    have hb : booked (s.queue.remove s.events) ws =
        booked s.queue (.event s.events a.caller :: ws) := by
      rw [booked_remove Await.waiting_event, if_neg hset, Int.sub_zero]
    rw [gatedWait, if_neg hnew]
    split
    · split
      · exact arrived_queue h a.caller hge (hqueue.overload rfl) (booked_overload.trans hb)
      · rw [hqueue.remove_remove]
        exact arrived_queue h a.caller hge (hqueue.remove rfl) hb
    · exact arrived_queue h a.caller hge hqueue rfl

/-! ## Runs -/

theorem gate_resumed (maxC : Int) (k : GateKind) (h : Wired s (w :: ws)) (r : Outcome) :
    Resumed w r s ws ((gate maxC k).resume w r s).1 (((gate maxC k).resume w r s).2 ++ ws) := by
  cases k with
  | titiler => exact titilerResume_resumed h r
  | db => exact gatedResume_resumed h r

theorem gate_arrived {maxC : Int} (k : GateKind) (hmax : 1 ≤ maxC) (h : Wired s ws) (a : Arrival) :
    Arrived maxC s ws ((gate maxC k).start a s).1 (((gate maxC k).start a s).2 ++ ws) := by
  cases k with
  | titiler => exact titilerStart_arrived hmax h a
  | db => exact gatedStart_arrived hmax h a

theorem Resumed.wired {r : Outcome} {s' : Slots} {ws' : List Await}
    (h : Resumed w r s ws s' ws') : Wired s' ws' := by
  unfold Resumed at h
  split at h
  · exact h.1
  · exact h.wired

theorem Resumed.booked_le {r : Outcome} {s' : Slots} {ws' : List Await}
    (h : Resumed w r s ws s' ws') : booked s' ws' ≤ booked s (w :: ws) := by
  unfold Resumed at h
  split at h
  · omega
  · exact h.le

theorem active_le_booked (h : Wired s ws) : s.active ≤ booked s ws := by
  rw [h.active, booked]
  omega

theorem running_eq (h : Wired s ws) : ws.countP Await.running = ws.countP (· == .fn) := by
  refine List.countP_congr fun w hw => ?_
  cases w with
  | ungated => exact absurd hw h.gated
  | _ => simp [Await.running]

end

/-- A caller enters directly only while a slot is neither held nor promised to a waiter. -/
def directEntry (maxC : Int) : TurnRule Slots Await Arrival Outcome where
  arrive _ s ws := s.active < maxC → booked s ws < maxC
  resume _ _ _ _ := True

instance (maxC : Int) (a : Arrival) (s : Slots) (ws : List Await) :
    Decidable ((directEntry maxC).arrive a s ws) :=
  inferInstanceAs (Decidable (s.active < maxC → booked s ws < maxC))

instance (maxC : Int) (w : Await) (r : Outcome) (s : Slots) (ws : List Await) :
    Decidable ((directEntry maxC).resume w r s ws) := isTrue trivial

/-- In every run in which no caller enters a slot that is promised to a waiter, at most `maxC`
callers run their `fn` at any time. -/
theorem running_le_max (k : GateKind) (maxC : Int) (hmax : 1 ≤ maxC)
    (ts : List (Turn Arrival Outcome))
    (h : (Tasks.mk Slots.idle []).Meets (gate maxC k) (directEntry maxC) ts) :
    (Tasks.mk Slots.idle []).Along (gate maxC k)
      (fun _ ws => (ws.countP Await.running : Int) ≤ maxC) ts := by
  have hI : LoopInvariant (gate maxC k) (directEntry maxC)
      fun s ws => Wired s ws ∧ booked s ws ≤ maxC := by
    refine ⟨fun s ws ws' hp hs => ⟨hs.1.perm hp, booked_perm hp ▸ hs.2⟩, fun a s ws hs hm => ?_,
      fun w r s ws hs _ => ?_⟩
    · obtain ⟨hwired, hb⟩ := gate_arrived k hmax hs.1 a
      refine ⟨hwired, ?_⟩
      split at hb
      · rename_i hlt
        have := hm hlt
        omega
      · rw [hb]
        exact hs.2
    · have hout := gate_resumed maxC k hs.1 r
      exact ⟨hout.wired, hout.booked_le.trans hs.2⟩
  refine (along_of_meets hI ts ⟨wired_idle, by simp [booked, signalled]; omega⟩ h).mono
    fun s ws hs => ?_
  have hle := active_le_booked hs.1
  rw [hs.1.active] at hle
  rw [running_eq hs.1]
  omega

/-- A caller without a request. -/
def background : Arrival := ⟨⟨false, false⟩, false⟩

def ended : Outcome := ⟨none, false⟩

/-- One slot: a caller enters, another waits, the first ends, and a third enters before the second
is resumed. -/
def overtaken : List (Turn Arrival Outcome) :=
  [.arrive background, .arrive background, .resume 1 ended, .arrive background, .resume 1 ended]

/-- The waiter counts itself in beside the caller that has overtaken it. -/
theorem overtaken_exceeds_max : ¬(Tasks.mk Slots.idle []).Along (gate 1 .titiler)
    (fun _ ws => (ws.countP Await.running : Int) ≤ 1) overtaken := by
  decide

/-- The waiter is resumed first. -/
theorem resumed_first_within_max : (Tasks.mk Slots.idle []).Along (gate 1 .titiler)
    (fun _ ws => (ws.countP Await.running : Int) ≤ 1)
    [.arrive background, .arrive background, .resume 1 ended, .resume 0 ended,
      .arrive background] :=
  running_le_max .titiler 1 (by decide) _ (by decide)

/-- While somebody stands in line, every slot is held or promised. -/
def NoneIdle (maxC : Int) (s : Slots) (ws : List Await) : Prop :=
  s.waiters ≠ [] → maxC ≤ booked s ws

/-- A signalled waiter gives up only when nobody else stands in line, or the gate is overbooked. -/
def keepsSignal (maxC : Int) : TurnRule Slots Await Arrival Outcome where
  arrive _ _ _ := True
  resume w r s ws := gaveUp w r = true → (∃ ev ∈ w.waiting, ev ∈ s.set) → s.waiters ≠ [] →
    maxC < booked s (w :: ws)

instance (maxC : Int) (a : Arrival) (s : Slots) (ws : List Await) :
    Decidable ((keepsSignal maxC).arrive a s ws) := isTrue trivial

instance (maxC : Int) (w : Await) (r : Outcome) (s : Slots) (ws : List Await) :
    Decidable ((keepsSignal maxC).resume w r s ws) :=
  inferInstanceAs (Decidable (gaveUp w r = true → (∃ ev ∈ w.waiting, ev ∈ s.set) →
    s.waiters ≠ [] → maxC < booked s (w :: ws)))

/-- A waiter is left in line with a slot idle and nobody due to wake it exactly when, in some turn
of the run, a signalled waiter gives up and takes the signal with it. -/
theorem no_wakeup_lost_iff (k : GateKind) (maxC : Int) (hmax : 1 ≤ maxC)
    (ts : List (Turn Arrival Outcome)) :
    (Tasks.mk Slots.idle []).Along (gate maxC k) (NoneIdle maxC) ts ↔
      (Tasks.mk Slots.idle []).Meets (gate maxC k) (keepsSignal maxC) ts := by
  refine along_iff_meets Wired ⟨fun s ws ws' hp hs => hs.perm hp,
    fun a s ws hs _ => (gate_arrived k hmax hs a).1, fun w r s ws hs _ => (gate_resumed maxC k hs r).wired⟩
    (fun s ws ws' hp hq hl => booked_perm hp ▸ hq hl) (fun a s ws hs hq => ?_)
    (fun w r s ws hs hq => ?_) ts wired_idle (by simp [NoneIdle, Slots.idle])
  · obtain ⟨_, hb⟩ := gate_arrived k hmax hs a
    refine ⟨fun _ => trivial, fun _ hl => ?_⟩
    split at hb
    · have := hq (hb.2 ▸ hl)
      omega
    · rename_i hge
      have := active_le_booked hs
      omega
  · have hout := gate_resumed maxC k hs r
    unfold Resumed at hout
    split at hout
    · rename_i hlost
      obtain ⟨_, hb, hline⟩ := hout
      constructor
      · intro hq' _ _ hl
        have := hq' (hline ▸ hl)
        omega
      · intro hm hl
        have := hm hlost.1 hlost.2 (hline ▸ hl)
        omega
    · rename_i hkept
      refine ⟨fun _ hg hev => absurd ⟨hg, hev⟩ hkept, fun _ hl => ?_⟩
      obtain ⟨hl', hle⟩ := hout.line hl
      exact (hq hl').trans hle

/-- One slot and two waiters: the first caller ends, and the waiter it has signalled is cancelled
before it is resumed. -/
def signalledCancelled : List (Turn Arrival Outcome) :=
  [.arrive background, .arrive background, .arrive background, .resume 2 ended,
    .resume 0 ⟨some .cancelled, false⟩]

instance (maxC : Int) (s : Slots) (ws : List Await) : Decidable (NoneIdle maxC s ws) :=
  inferInstanceAs (Decidable (s.waiters ≠ [] → maxC ≤ booked s ws))

/-- The other waiter stays in line, with the slot free and no signal on its way. -/
theorem cancelled_waiter_loses_wakeup :
    ¬(Tasks.mk Slots.idle []).Along (gate 1 .titiler) (NoneIdle 1) signalledCancelled := by
  decide

/-- A waiter that is not signalled may be cancelled. -/
theorem unsignalled_waiter_may_go :
    (Tasks.mk Slots.idle []).Along (gate 1 .titiler) (NoneIdle 1)
      [.arrive background, .arrive background, .arrive background,
        .resume 0 ⟨some .cancelled, false⟩, .resume 1 ended, .resume 0 ended] :=
  (no_wakeup_lost_iff .titiler 1 (by decide) _).mpr (by decide)

end Gate
end Geofastmap
