import Mathlib.Data.List.Basic

/-!
# Geofastmap.Interleave.Refine

Machines whose operations return something, and what it means that one of them does what a
specification allows.

* `results`, `after` : a run of operations, one after the other.
* `Trace` : a sequence of operations with their results that a specification allows; the
  specification need not be deterministic.
* `Refines` : each step is one of the specification, up to a relation on states. `Refines.trace`
  is the same for whole runs.
-/

namespace Geofastmap
namespace Interleave

variable {S A Op Q R : Type*}

/-- The results of the operations. -/
def results (step : S → Op → Q × S) : S → List Op → List Q
  | _, [] => []
  | s, op :: ops => (step s op).1 :: results step (step s op).2 ops

/-- The state after the operations. -/
def after (step : S → Op → Q × S) : S → List Op → S
  | s, [] => s
  | s, op :: ops => after step (step s op).2 ops

inductive Trace (spec : A → Op → R → A → Prop) : A → List (Op × R) → A → Prop where
  | nil (a : A) : Trace spec a [] a
  | cons {a b c : A} {op : Op} {r : R} {rest : List (Op × R)} (h : spec a op r b)
      (hrest : Trace spec b rest c) : Trace spec a ((op, r) :: rest) c

/-- From related states an operation that is allowed is a step of the specification. -/
structure Refines (step : S → Op → Q × S) (spec : A → Op → R → A → Prop) (allowed : S → Op → Prop)
    (rel : S → A → Prop) (result : Q → R) : Prop where
  step : ∀ {s a op}, rel s a → allowed s op →
    ∃ b, spec a op (result (step s op).1) b ∧ rel (step s op).2 b

/-- Each operation is allowed when its turn comes. -/
def Allowed (step : S → Op → Q × S) (allowed : S → Op → Prop) : S → List Op → Prop
  | _, [] => True
  | s, op :: ops => allowed s op ∧ Allowed step allowed (step s op).2 ops

variable {step : S → Op → Q × S} {spec : A → Op → R → A → Prop} {allowed : S → Op → Prop}
  {rel : S → A → Prop} {result : Q → R}

@[simp] theorem after_nil (s : S) : after step s [] = s := rfl

@[simp] theorem after_cons (s : S) (op : Op) (ops : List Op) :
    after step s (op :: ops) = after step (step s op).2 ops := rfl

theorem allowed_of_forall (h : ∀ s op, allowed s op) (s : S) (ops : List Op) :
    Allowed step allowed s ops := by
  induction ops generalizing s with
  | nil => trivial
  | cons op ops ih => exact ⟨h s op, ih (step s op).2⟩

theorem after_inv {I : S → Prop} (hstep : ∀ s op, I s → allowed s op → I (step s op).2) {s : S}
    {ops : List Op} (hs : I s) (hops : Allowed step allowed s ops) : I (after step s ops) := by
  induction ops generalizing s with
  | nil => exact hs
  | cons op ops ih => exact ih (hstep s op hs hops.1) hops.2

/-- A run is a trace of the specification. -/
theorem Refines.trace (h : Refines step spec allowed rel result) {s : S} {a : A} {ops : List Op}
    (hrel : rel s a) (hops : Allowed step allowed s ops) :
    ∃ b, Trace spec a (ops.zip ((results step s ops).map result)) b ∧
      rel (after step s ops) b := by
  induction ops generalizing s a with
  | nil => exact ⟨a, .nil a, hrel⟩
  | cons op ops ih =>
    obtain ⟨b, hb, hrel⟩ := h.step hrel hops.1
    obtain ⟨c, hc, hrel⟩ := ih hrel hops.2
    exact ⟨c, .cons hb hc, hrel⟩

end Interleave
end Geofastmap
