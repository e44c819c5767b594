import Geofastmap.Interleave.Fault

/-!
# Geofastmap.Interleave.Logic

What the logics of programs have in common: rules for `pure`, `throw` and `bind`. A proof that
follows the text of a loop by these rules alone holds in each of them.

* `tripleLogic` : the program among others (`Triple`).
* `triedLogic`  : the program alone under faults (`Tried`), where the world includes the faults
  that struck.
* `runLogic`    : the program alone (`Prog.run`), where it raises only if `E` holds.
-/

namespace Geofastmap
namespace Interleave

/-- Statements about programs in a world of type `W`. Where an exception is raised, `raised`
holds. -/
structure ProgLogic (ι σ ε W : Type) where
  judge {α : Type} : (W → Prop) → Prog ι σ ε α → (α → W → Prop) → Prop
  raised : ε → W → Prop
  pure {α : Type} {P : W → Prop} {Q : α → W → Prop} {a : α} :
    (∀ w, P w → Q a w) → judge P (Pure.pure a) Q
  throw {α : Type} {P : W → Prop} {Q : α → W → Prop} {e : ε} :
    (∀ w, P w → raised e w) → judge P (MonadExcept.throw e) Q
  bind {α β : Type} {P : W → Prop} {V : α → W → Prop} {Q : β → W → Prop} {p : Prog ι σ ε α}
    {f : α → Prog ι σ ε β} :
    judge P p V → (∀ a, judge (V a) (f a) Q) → judge P (p >>= f) Q
  conseq {α : Type} {P P' : W → Prop} {Q Q' : α → W → Prop} {p : Prog ι σ ε α} :
    (∀ w, P' w → P w) → judge P p Q → (∀ a w, Q a w → Q' a w) → judge P' p Q'
  /-- A fact that is not about the world. -/
  lift {α : Type} {φ : Prop} {P : W → Prop} {Q : α → W → Prop} {p : Prog ι σ ε α} :
    (φ → judge P p Q) → judge (fun w => φ ∧ P w) p Q

variable {ι σ ε W α : Type}

theorem ProgLogic.frame (L : ProgLogic ι σ ε W) {P : W → Prop} {Q : α → W → Prop}
    {p : Prog ι σ ε α} (φ : Prop) (h : L.judge P p Q) :
    L.judge (fun w => φ ∧ P w) p fun a w => φ ∧ Q a w :=
  L.lift fun hφ => L.conseq (fun _ hp => hp) h fun _ _ hq => ⟨hφ, hq⟩

def tripleLogic (A : Assume ι σ ε) (K : Guarantee ι σ) (E : ε → σ → Prop) :
    ProgLogic ι σ ε σ where
  judge P p Q := Triple A K P p fun r s =>
    match r with
    | .ok a => Q a s
    | .error e => E e s
  raised := E
  pure h := Triple.pure _ fun s _ hp => h s hp
  throw h := Triple.throw _ fun s _ hp => h s hp
  bind h hf := Triple.bind h hf fun _ _ _ he => he
  conseq hP h hQ := by
    refine h.conseq (fun s _ hp => hP s hp) fun r s _ hq => ?_
    cases r with
    | ok a => exact hQ a s hq
    | error e => exact hq
  lift h s hs hp := h hp.1 s hs hp.2

def triedLogic (ε : Type) (R : ι → Bool → Prop) : ProgLogic ι σ ε (σ × Past ι) where
  judge P p Q := Returns R (fun s past => P (s, past)) p fun a s past => Q a (s, past)
  raised _ _ := True
  pure h := Returns.pure fun s past hp => h (s, past) hp
  throw _ := Returns.throw _
  bind h hf := Returns.bind h hf
  conseq hP h hQ := Tried.conseq (fun s past hp => hP (s, past) hp) h
    fun _ s past hq a ha => hQ a (s, past) (hq a ha)
  lift h fs s past hp hR := h hp.1 fs s past hp.2 hR

/-- With `E := False` the program returns; with `E := True` nothing is said when it raises. -/
def runLogic (ι σ ε : Type) (E : Prop) : ProgLogic ι σ ε σ where
  judge P p Q := ∀ s, P s →
    match p.run s with
    | (.ok a, s') => Q a s'
    | (.error _, _) => E
  raised _ _ := E
  pure h s hp := h s hp
  throw h s hp := h s hp
  bind {α β P V Q p f} h hf s hp := by
    have h' := h s hp
    rw [Prog.run_bind]
    rcases hr : p.run s with ⟨r, s'⟩
    rw [hr] at h'
    cases r with
    | ok a => exact hf a s' h'
    | error e => exact h'
  conseq {α P P' Q Q' p} hP h hQ s hp := by
    have h' := h s (hP s hp)
    rcases hr : p.run s with ⟨r, s'⟩
    rw [hr] at h'
    cases r with
    | ok a => exact hQ a s' h'
    | error e => exact h'
  lift h s hp := h hp.1 s hp.2

theorem runLogic_of_run {E : Prop} {P : σ → Prop} {Q : α → σ → Prop} {p : Prog ι σ ε α}
    (h : ∀ s, P s → ∃ a s', p.run s = (.ok a, s') ∧ Q a s') : (runLogic ι σ ε E).judge P p Q := by
  intro s hp
  obtain ⟨a, s', hr, hq⟩ := h s hp
  rw [hr]
  exact hq

/-- What holds whenever the program returns is added to a judgement. -/
theorem runLogic_and {E : Prop} {P : σ → Prop} {Q V : α → σ → Prop} {p : Prog ι σ ε α}
    (h : (runLogic ι σ ε E).judge P p Q) (h' : (runLogic ι σ ε True).judge P p V) :
    (runLogic ι σ ε E).judge P p fun a s => Q a s ∧ V a s := by
  intro s hp
  have h1 := h s hp
  have h2 := h' s hp
  rcases hr : p.run s with ⟨r, s'⟩
  rw [hr] at h1 h2
  cases r with
  | ok a => exact ⟨h1, h2⟩
  | error e => exact h1

theorem runLogic_trivial {P : σ → Prop} (p : Prog ι σ ε α) :
    (runLogic ι σ ε True).judge P p fun _ _ => True := by
  intro s _
  rcases p.run s with ⟨r, s'⟩
  cases r <;> trivial

end Interleave
end Geofastmap
