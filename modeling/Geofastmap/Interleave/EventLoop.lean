import Mathlib.Data.List.InsertIdx
import Mathlib.Data.List.Perm.Basic

/-!
# Geofastmap.Interleave.EventLoop

Tasks of one event loop. A task runs without interruption up to its next `await`; what it does
there is a step of its own. A coroutine is given by its code between two awaits: `start` up to the
first one, and `resume` from an await on, with what the await comes to. Both return the new shared
state and the awaits of the tasks that are there afterwards: the next await of the task itself,
none when it has ended, and those of the tasks it has created.

A run is a list of turns. `Tasks.Along` says that something holds in every state of a run, and
`Tasks.Meets` that every turn of it meets a condition.

* `along_of_meets` : an invariant that every turn under the condition keeps.
* `along_iff_meets` : what one turn breaks exactly when it misses the condition.
-/

namespace Geofastmap
namespace Interleave

variable {σ ω κ ρ : Type}

structure Coroutine (σ ω κ ρ : Type) where
  start : κ → σ → σ × List ω
  resume : ω → ρ → σ → σ × List ω

inductive Turn (κ ρ : Type) where
  | arrive (a : κ)
  | resume (i : Nat) (r : ρ)
deriving DecidableEq

/-- The shared state, and the awaits at which the tasks are suspended. -/
structure Tasks (σ ω : Type) where
  st : σ
  awaits : List ω

variable (C : Coroutine σ ω κ ρ)

def Tasks.turn (c : Tasks σ ω) : Turn κ ρ → Tasks σ ω
  | .arrive a => ⟨(C.start a c.st).1, (C.start a c.st).2 ++ c.awaits⟩
  | .resume i r =>
    match c.awaits[i]? with
    | some w => ⟨(C.resume w r c.st).1, (C.resume w r c.st).2 ++ c.awaits.eraseIdx i⟩
    | none => c

def Tasks.run (c : Tasks σ ω) (ts : List (Turn κ ρ)) : Tasks σ ω := ts.foldl (Tasks.turn C) c

/-- A condition on a turn: what it starts, or resumes at an await with an outcome, by the shared
state and the awaits of the other tasks. -/
structure TurnRule (σ ω κ ρ : Type) where
  arrive : κ → σ → List ω → Prop
  resume : ω → ρ → σ → List ω → Prop

variable (M : TurnRule σ ω κ ρ)

def Tasks.MeetsTurn (c : Tasks σ ω) : Turn κ ρ → Prop
  | .arrive a => M.arrive a c.st c.awaits
  | .resume i r => ∀ w ∈ c.awaits[i]?, M.resume w r c.st (c.awaits.eraseIdx i)

def Tasks.Meets : Tasks σ ω → List (Turn κ ρ) → Prop
  | _, [] => True
  | c, t :: ts => c.MeetsTurn M t ∧ Tasks.Meets (c.turn C t) ts

/-- `Q` holds in every state of the run. -/
def Tasks.Along (Q : σ → List ω → Prop) : Tasks σ ω → List (Turn κ ρ) → Prop
  | c, [] => Q c.st c.awaits
  | c, t :: ts => Q c.st c.awaits ∧ Tasks.Along Q (c.turn C t) ts

instance decidableMeetsTurn [∀ a s ws, Decidable (M.arrive a s ws)]
    [∀ w r s ws, Decidable (M.resume w r s ws)] (c : Tasks σ ω) :
    ∀ t : Turn κ ρ, Decidable (c.MeetsTurn M t)
  | .arrive a => inferInstanceAs (Decidable (M.arrive a c.st c.awaits))
  | .resume i r =>
    inferInstanceAs (Decidable (∀ w ∈ c.awaits[i]?, M.resume w r c.st (c.awaits.eraseIdx i)))

instance decidableTasksMeets [∀ a s ws, Decidable (M.arrive a s ws)]
    [∀ w r s ws, Decidable (M.resume w r s ws)] :
    ∀ (ts : List (Turn κ ρ)) (c : Tasks σ ω), Decidable (c.Meets C M ts)
  | [], _ => isTrue trivial
  | t :: ts, c =>
    have := decidableTasksMeets ts (c.turn C t)
    inferInstanceAs (Decidable (c.MeetsTurn M t ∧ (c.turn C t).Meets C M ts))

instance decidableAlong (Q : σ → List ω → Prop) [∀ s ws, Decidable (Q s ws)] :
    ∀ (ts : List (Turn κ ρ)) (c : Tasks σ ω), Decidable (c.Along C Q ts)
  | [], c => inferInstanceAs (Decidable (Q c.st c.awaits))
  | t :: ts, c =>
    have := decidableAlong Q ts (c.turn C t)
    inferInstanceAs (Decidable (Q c.st c.awaits ∧ (c.turn C t).Along C Q ts))

variable {C M} {Q Q' : σ → List ω → Prop}

theorem Tasks.Along.mono (hQ : ∀ s ws, Q s ws → Q' s ws) {ts : List (Turn κ ρ)} {c : Tasks σ ω}
    (h : c.Along C Q ts) : c.Along C Q' ts := by
  induction ts generalizing c with
  | nil => exact hQ _ _ h
  | cons t ts ih => exact ⟨hQ _ _ h.1, ih h.2⟩

theorem Tasks.Along.head {ts : List (Turn κ ρ)} {c : Tasks σ ω} (h : c.Along C Q ts) :
    Q c.st c.awaits := by
  cases ts with
  | nil => exact h
  | cons t ts => exact h.1

/-- What holds along a run holds at its end. -/
theorem Tasks.Along.last {ts : List (Turn κ ρ)} {c : Tasks σ ω} (h : c.Along C Q ts) :
    Q (c.run C ts).st (c.run C ts).awaits := by
  induction ts generalizing c with
  | nil => exact h
  | cons t ts ih => exact ih h.2

/-- What an invariant has to survive. It does not depend on the order of the tasks. -/
structure LoopInvariant (C : Coroutine σ ω κ ρ) (M : TurnRule σ ω κ ρ)
    (inv : σ → List ω → Prop) : Prop where
  perm : ∀ s ws ws', ws.Perm ws' → inv s ws → inv s ws'
  arrive : ∀ a s ws, inv s ws → M.arrive a s ws → inv (C.start a s).1 ((C.start a s).2 ++ ws)
  resume : ∀ w r s ws, inv s (w :: ws) → M.resume w r s ws →
    inv (C.resume w r s).1 ((C.resume w r s).2 ++ ws)

/-- The task that is resumed, apart from the others. -/
theorem awaits_perm {ws : List ω} {i : Nat} {w : ω} (h : ws[i]? = some w) :
    ws.Perm (w :: ws.eraseIdx i) := by
  obtain ⟨hlt, hget⟩ := List.getElem?_eq_some_iff.mp h
  rw [← hget]
  exact (List.getElem_cons_eraseIdx_perm hlt).symm

theorem LoopInvariant.turn (hI : LoopInvariant C M Q) {c : Tasks σ ω} (hc : Q c.st c.awaits)
    {t : Turn κ ρ} (hm : c.MeetsTurn M t) : Q (c.turn C t).st (c.turn C t).awaits := by
  cases t with
  | arrive a => exact hI.arrive a c.st c.awaits hc hm
  | resume i r =>
    cases hi : c.awaits[i]? with
    | none => simpa only [Tasks.turn, hi] using hc
    | some w =>
      simp only [Tasks.turn, hi]
      exact hI.resume w r c.st _ (hI.perm _ _ _ (awaits_perm hi) hc) (hm w hi)

theorem along_of_meets (hI : LoopInvariant C M Q) (ts : List (Turn κ ρ)) {c : Tasks σ ω}
    (hc : Q c.st c.awaits) (hm : c.Meets C M ts) : c.Along C Q ts := by
  induction ts generalizing c with
  | nil => exact hc
  | cons t ts ih => exact ⟨hc, ih (hI.turn hc hm.1) hm.2⟩

/-- `inv` holds in any case; `Q` is lost in the very turn that misses the condition. -/
theorem along_iff_meets (inv : σ → List ω → Prop)
    (hI : LoopInvariant C ⟨fun _ _ _ => True, fun _ _ _ _ => True⟩ inv)
    (perm : ∀ s ws ws', ws.Perm ws' → Q s ws → Q s ws')
    (ha : ∀ a s ws, inv s ws → Q s ws →
      (Q (C.start a s).1 ((C.start a s).2 ++ ws) ↔ M.arrive a s ws))
    (hr : ∀ w r s ws, inv s (w :: ws) → Q s (w :: ws) →
      (Q (C.resume w r s).1 ((C.resume w r s).2 ++ ws) ↔ M.resume w r s ws))
    (ts : List (Turn κ ρ)) {c : Tasks σ ω} (hc : inv c.st c.awaits) (hq : Q c.st c.awaits) :
    c.Along C Q ts ↔ c.Meets C M ts := by
  induction ts generalizing c with
  | nil => exact ⟨fun _ => trivial, fun _ => hq⟩
  | cons t ts ih =>
    have hinv : inv (c.turn C t).st (c.turn C t).awaits := by
      refine hI.turn hc ?_
      cases t with
      | arrive a => trivial
      | resume i r => exact fun _ _ => trivial
    have hstep : Q (c.turn C t).st (c.turn C t).awaits ↔ c.MeetsTurn M t := by
      cases t with
      | arrive a => exact ha a c.st c.awaits hc hq
      | resume i r =>
        cases hi : c.awaits[i]? with
        | none => simp [Tasks.turn, Tasks.MeetsTurn, hi, hq]
        | some w =>
          simp only [Tasks.turn, Tasks.MeetsTurn, hi, Option.mem_def, Option.some.injEq,
            forall_eq']
          exact hr w r c.st _ (hI.perm _ _ _ (awaits_perm hi) hc) (perm _ _ _ (awaits_perm hi) hq)
    constructor
    · intro h
      have hq' := h.2.head
      exact ⟨hstep.mp hq', (ih hinv hq').mp h.2⟩
    · intro h
      have hq' := hstep.mpr h.1
      exact ⟨hq, (ih hinv hq').mpr h.2⟩

end Interleave
end Geofastmap
