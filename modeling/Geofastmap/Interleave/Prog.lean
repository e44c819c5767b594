import Mathlib.Data.List.Forall2
import Mathlib.Logic.Function.Basic

/-!
# Geofastmap.Interleave.Prog

Programs over a shared state, as trees of atomic steps. An `atom` carries a label, the effect it
has on the state, the continuation after it (which sees the state the step started from, so it can
read) and the continuation when the step raises instead.

* `Prog.run`  — the program alone, to its end, no step raising.
* `Prog.wp`   — the program among others: between two of its steps the others may move the state,
  a step may raise before or after its effect, and the invariant must hold after every step.

`wp` is computed through `bind`, `tryCatch` and retry loops by the rules below, so a proof about a
program follows its text.
-/

namespace Geofastmap
namespace Interleave

inductive Prog (ι σ ε α : Type) where
  | done (r : Except ε α)
  | atom (l : ι) (g : σ → σ) (k : σ → Prog ι σ ε α) (h : ε → Prog ι σ ε α)

namespace Prog

variable {ι σ ε α β : Type}

def bind : Prog ι σ ε α → (α → Prog ι σ ε β) → Prog ι σ ε β
  | .done (.ok a), f => f a
  | .done (.error e), _ => .done (.error e)
  | .atom l g k h, f => .atom l g (fun s => (k s).bind f) (fun e => (h e).bind f)

def tryCatch : Prog ι σ ε α → (ε → Prog ι σ ε α) → Prog ι σ ε α
  | .done (.ok a), _ => .done (.ok a)
  | .done (.error e), c => c e
  | .atom l g k h, c => .atom l g (fun s => (k s).tryCatch c) (fun e => (h e).tryCatch c)

instance : Monad (Prog ι σ ε) where
  pure a := .done (.ok a)
  bind := Prog.bind

instance : MonadExceptOf ε (Prog ι σ ε) where
  throw e := .done (.error e)
  tryCatch := Prog.tryCatch

/-- One atomic step that computes a value and a new state, or raises and leaves the state. -/
def atomic (l : ι) (f : σ → Except ε (α × σ)) : Prog ι σ ε α :=
  .atom l
    (fun s => match f s with | .ok (_, s') => s' | .error _ => s)
    (fun s => match f s with | .ok (a, _) => .done (.ok a) | .error e => .done (.error e))
    (fun e => .done (.error e))

/-- The program has come to its end without an exception. -/
def returned : Prog ι σ ε α → Bool
  | .done (.ok _) => true
  | _ => false

/-- A read: one atomic step that leaves the state as it is. -/
def read (l : ι) (f : σ → α) : Prog ι σ ε α :=
  .atom l id (fun s => .done (.ok (f s))) (fun e => .done (.error e))

/-- A write: one atomic step without a result. -/
def write (l : ι) (g : σ → σ) : Prog ι σ ε Unit :=
  .atom l g (fun _ => .done (.ok ())) (fun e => .done (.error e))

/-- `try: p finally: c`. -/
def tryFinally (p : Prog ι σ ε α) (c : Prog ι σ ε Unit) : Prog ι σ ε α :=
  (p.tryCatch fun e => c.bind fun _ => .done (.error e)).bind fun a => c.bind fun _ => .done (.ok a)

/-- Run `p` again while it raises, at most `n + 1` times. -/
def retry : Nat → Prog ι σ ε α → Prog ι σ ε α
  | 0, p => p
  | n + 1, p => p.tryCatch fun _ => retry n p

/-- Run `p x` for the members of a list in order. -/
def forEach (p : β → Prog ι σ ε Unit) : List β → Prog ι σ ε Unit
  | [] => .done (.ok ())
  | x :: xs => (p x).bind fun _ => forEach p xs

/-- The results of `p x` for the members of a list in order. -/
def mapAll (p : β → Prog ι σ ε α) : List β → Prog ι σ ε (List α)
  | [] => .done (.ok [])
  | x :: xs => (p x).bind fun y => (mapAll p xs).bind fun ys => .done (.ok (y :: ys))

/-! ## The program alone -/

def run : Prog ι σ ε α → σ → Except ε α × σ
  | .done r, s => (r, s)
  | .atom _ g k _, s => (k s).run (g s)

@[simp] theorem run_pure (a : α) (s : σ) : (pure a : Prog ι σ ε α).run s = (.ok a, s) := rfl

@[simp] theorem run_throw (e : ε) (s : σ) :
    (throw e : Prog ι σ ε α).run s = (.error e, s) := rfl

@[simp] theorem run_read (l : ι) (f : σ → α) (s : σ) :
    (read l f : Prog ι σ ε α).run s = (.ok (f s), s) := rfl

@[simp] theorem run_write (l : ι) (g : σ → σ) (s : σ) :
    (write l g : Prog ι σ ε Unit).run s = (.ok (), g s) := rfl

theorem run_atomic (l : ι) (f : σ → Except ε (α × σ)) (s : σ) :
    (atomic l f).run s =
      match f s with
      | .ok (a, s') => (.ok a, s')
      | .error e => (.error e, s) := by
  simp only [atomic, run]
  cases f s <;> rfl

@[simp] theorem run_bind (p : Prog ι σ ε α) (f : α → Prog ι σ ε β) (s : σ) :
    (p >>= f).run s =
      match p.run s with
      | (.ok a, s') => (f a).run s'
      | (.error e, s') => (.error e, s') := by
  change (p.bind f).run s = _
  induction p generalizing s with
  | done r => cases r <;> rfl
  | atom l g k h ihk _ => exact ihk s (g s)

@[simp] theorem run_tryCatch (p : Prog ι σ ε α) (c : ε → Prog ι σ ε α) (s : σ) :
    (MonadExcept.tryCatch p c).run s =
      match p.run s with
      | (.ok a, s') => (.ok a, s')
      | (.error e, s') => (c e).run s' := by
  change (p.tryCatch c).run s = _
  induction p generalizing s with
  | done r => cases r <;> rfl
  | atom l g k h ihk _ => exact ihk s (g s)

/-- A program that only reads, for each member of a list. -/
theorem run_mapAll {p : β → Prog ι σ ε α} {f : β → α} {s : σ} {xs : List β}
    (h : ∀ x ∈ xs, (p x).run s = (.ok (f x), s)) : (mapAll p xs).run s = (.ok (xs.map f), s) := by
  induction xs with
  | nil => rfl
  | cons x xs ih =>
    change (p x >>= fun y => mapAll p xs >>= fun ys => pure (y :: ys)).run s = _
    rw [run_bind, h x List.mem_cons_self]
    simp [ih fun y hy => h y (List.mem_cons_of_mem x hy)]

end Prog

/-! ## The program among others -/

/-- What is assumed of a run: when a step is taken, and what a step may raise, before its effect
(`false`) or after it (`true`). -/
structure Assume (ι σ ε : Type) where
  may : ι → σ → Prop
  raises : ι → Bool → ε → Prop

/-- What is shown of it: `inv` holds in every state, a program moves the state along `rel` while
the others move it along `rely`, and `must` holds where a step is taken. -/
structure Guarantee (ι σ : Type) where
  inv : σ → Prop
  rely : σ → σ → Prop
  rel : σ → σ → Prop
  must : ι → σ → Prop
  rely_refl : ∀ s, rely s s
  rely_trans : ∀ {s t u}, rely s t → rely t u → rely s u
  rel_refl : ∀ s, rel s s

section Rules

variable {ι σ ε α β : Type} (A : Assume ι σ ε) (K : Guarantee ι σ)

/-- `p` keeps the guarantee from `s` on, whatever the other programs do, and ends in `Q`. -/
def Prog.wp : Prog ι σ ε α → (Except ε α → σ → Prop) → σ → Prop
  | .done r, Q, s => Q r s
  | .atom l g k h, Q, s =>
    ∀ t, K.rely s t → K.inv t →
      (∀ e, A.raises l false e → (h e).wp Q t) ∧
      (A.may l t → K.must l t ∧ K.inv (g t) ∧ K.rel t (g t) ∧ (k t).wp Q (g t) ∧
        ∀ e, A.raises l true e → (h e).wp Q (g t))

variable {A K}

theorem Prog.wp_mono {Q Q' : Except ε α → σ → Prop}
    (hQ : ∀ r s, K.inv s → Q r s → Q' r s) (p : Prog ι σ ε α) :
    ∀ s, K.inv s → p.wp A K Q s → p.wp A K Q' s := by
  induction p with
  | done r => intro s hs h; exact hQ r s hs h
  | atom l g k h ihk ihh =>
    intro s _ hw t hst ht
    obtain ⟨hf, hm⟩ := hw t hst ht
    refine ⟨fun e he => ihh e t ht (hf e he), fun hmay => ?_⟩
    obtain ⟨h1, h2, h3, h4, h5⟩ := hm hmay
    exact ⟨h1, h2, h3, ihk t _ h2 h4, fun e he => ihh e _ h2 (h5 e he)⟩

theorem Prog.wp_bind (f : α → Prog ι σ ε β) (Q : Except ε β → σ → Prop) (p : Prog ι σ ε α) :
    ∀ s, (p >>= f).wp A K Q s ↔
      p.wp A K (fun r s => match r with
        | .ok a => (f a).wp A K Q s
        | .error e => Q (.error e) s) s := by
  change ∀ s, (p.bind f).wp A K Q s ↔ _
  induction p with
  | done r => intro s; cases r <;> exact Iff.rfl
  | atom l g k h ihk ihh => intro s; simp only [Prog.bind, Prog.wp, ihk, ihh]

theorem Prog.wp_tryCatch (c : ε → Prog ι σ ε α) (Q : Except ε α → σ → Prop) (p : Prog ι σ ε α) :
    ∀ s, (MonadExcept.tryCatch p c).wp A K Q s ↔
      p.wp A K (fun r s => match r with
        | .ok a => Q (.ok a) s
        | .error e => (c e).wp A K Q s) s := by
  change ∀ s, (p.tryCatch c).wp A K Q s ↔ _
  induction p with
  | done r => intro s; cases r <;> exact Iff.rfl
  | atom l g k h ihk ihh => intro s; simp only [Prog.tryCatch, Prog.wp, ihk, ihh]

/-- What a program knows of the state survives the steps of the others. -/
theorem Prog.wp_stable {Q : Except ε α → σ → Prop}
    (hQ : ∀ r s t, K.rely s t → K.inv t → Q r s → Q r t) (p : Prog ι σ ε α) {s t : σ}
    (hst : K.rely s t) (ht : K.inv t) (h : p.wp A K Q s) : p.wp A K Q t := by
  cases p with
  | done r => exact hQ r s t hst ht h
  | atom l g k c => exact fun u htu hu => h u (K.rely_trans hst htu) hu

variable (A K)

/-- From a state with `P`, `p` keeps the guarantee and ends in `Q`. -/
def Triple (P : σ → Prop) (p : Prog ι σ ε α) (Q : Except ε α → σ → Prop) : Prop :=
  ∀ s, K.inv s → P s → p.wp A K Q s

/-- `p` keeps the guarantee from every state. -/
def Keeps (p : Prog ι σ ε α) : Prop := Triple A K (fun _ => True) p (fun _ _ => True)

/-- `P` survives the steps of the other programs. -/
def Stable (P : σ → Prop) : Prop := ∀ s t, K.rely s t → K.inv t → P s → P t

variable {A K} {P P' : σ → Prop}

theorem Triple.conseq {Q Q' : Except ε α → σ → Prop} {p : Prog ι σ ε α}
    (hP : ∀ s, K.inv s → P' s → P s) (h : Triple A K P p Q)
    (hQ : ∀ r s, K.inv s → Q r s → Q' r s) : Triple A K P' p Q' :=
  fun s hs hp => p.wp_mono hQ s hs (h s hs (hP s hs hp))

theorem Triple.pre {Q : Except ε α → σ → Prop} {p : Prog ι σ ε α}
    (h : Triple A K P p Q) (hP : ∀ s, K.inv s → P' s → P s) : Triple A K P' p Q :=
  h.conseq hP fun _ _ _ hq => hq

theorem Triple.pure {Q : Except ε α → σ → Prop} (a : α) (h : ∀ s, K.inv s → P s → Q (.ok a) s) :
    Triple A K P (Pure.pure a) Q := h

theorem Triple.throw {Q : Except ε α → σ → Prop} (e : ε)
    (h : ∀ s, K.inv s → P s → Q (.error e) s) :
    Triple A K P (MonadExcept.throw e) Q := h

theorem Triple.bind {R : Except ε α → σ → Prop} {Q : Except ε β → σ → Prop} {p : Prog ι σ ε α}
    {f : α → Prog ι σ ε β} (h : Triple A K P p R)
    (hf : ∀ a, Triple A K (fun s => R (.ok a) s) (f a) Q)
    (he : ∀ e s, K.inv s → R (.error e) s → Q (.error e) s) : Triple A K P (p >>= f) Q := by
  intro s hs hp
  rw [Prog.wp_bind]
  refine p.wp_mono ?_ s hs (h s hs hp)
  intro r t ht hr
  cases r with
  | ok a => exact hf a t ht hr
  | error e => exact he e t ht hr

theorem Triple.tryCatch {R Q : Except ε α → σ → Prop} {p : Prog ι σ ε α}
    {c : ε → Prog ι σ ε α} (h : Triple A K P p R)
    (hok : ∀ a s, K.inv s → R (.ok a) s → Q (.ok a) s)
    (hc : ∀ e, Triple A K (fun s => R (.error e) s) (c e) Q) :
    Triple A K P (MonadExcept.tryCatch p c) Q := by
  intro s hs hp
  rw [Prog.wp_tryCatch]
  refine p.wp_mono ?_ s hs (h s hs hp)
  intro r t ht hr
  cases r with
  | ok a => exact hok a t ht hr
  | error e => exact hc e t ht hr

/-- The clean-up runs after a result `r` and leaves it, or raises instead. -/
theorem Triple.tryFinally {R Q : Except ε α → σ → Prop} {p : Prog ι σ ε α} {c : Prog ι σ ε Unit}
    (h : Triple A K P p R)
    (hc : ∀ r, Triple A K (R r) c (fun r' s => match r' with
      | .ok _ => Q r s
      | .error e => Q (.error e) s)) : Triple A K P (Prog.tryFinally p c) Q := by
  refine Triple.bind (R := fun r s => match r with
    | .ok a => R (.ok a) s
    | .error e => Q (.error e) s) (Triple.tryCatch h (fun _ _ _ hr => hr) fun e => ?_)
    (fun a => ?_) fun _ _ _ hq => hq
  · exact Triple.bind (hc (.error e)) (fun _ _ _ hq => hq) fun _ _ _ hq => hq
  · exact Triple.bind (hc (.ok a)) (fun _ _ _ hq => hq) fun _ _ _ hq => hq

theorem Triple.read {Q : Except ε α → σ → Prop} (l : ι) (f : σ → α) (hP : Stable K P)
    (hm : ∀ s, K.inv s → P s → A.may l s → K.must l s ∧ Q (.ok (f s)) s)
    (he : ∀ b e s, A.raises l b e → K.inv s → P s → Q (.error e) s) :
    Triple A K P (Prog.read l f) Q := by
  intro s _ hp t hst ht
  have hpt := hP s t hst ht hp
  refine ⟨fun e hr => he _ e t hr ht hpt, fun hmay => ?_⟩
  obtain ⟨h1, h2⟩ := hm t ht hpt hmay
  exact ⟨h1, ht, K.rel_refl t, h2, fun e hr => he _ e t hr ht hpt⟩

theorem Triple.write {Q : Except ε Unit → σ → Prop} (l : ι) (g : σ → σ) (hP : Stable K P)
    (hm : ∀ s, K.inv s → P s → A.may l s →
      K.must l s ∧ K.inv (g s) ∧ K.rel s (g s) ∧ Q (.ok ()) (g s))
    (he : ∀ e s, A.raises l false e → K.inv s → P s → Q (.error e) s)
    (hl : ∀ e s, A.raises l true e → K.inv s → P s → A.may l s → Q (.error e) (g s)) :
    Triple A K P (Prog.write l g) Q := by
  intro s _ hp t hst ht
  have hpt := hP s t hst ht hp
  refine ⟨fun e hr => he e t hr ht hpt, fun hmay => ?_⟩
  obtain ⟨h1, h2, h3, h4⟩ := hm t ht hpt hmay
  exact ⟨h1, h2, h3, h4, fun e hr => hl e t hr ht hpt hmay⟩

theorem Triple.atomic {Q : Except ε α → σ → Prop} (l : ι) (f : σ → Except ε (α × σ))
    (hP : Stable K P)
    (hm : ∀ s, K.inv s → P s → A.may l s → K.must l s)
    (hok : ∀ s a s', K.inv s → P s → A.may l s → f s = .ok (a, s') →
      K.inv s' ∧ K.rel s s' ∧ Q (.ok a) s' ∧ ∀ e, A.raises l true e → Q (.error e) s')
    (herr : ∀ s e, K.inv s → P s → A.may l s → f s = .error e → Q (.error e) s)
    (he : ∀ b e s, A.raises l b e → K.inv s → P s → Q (.error e) s) :
    Triple A K P (Prog.atomic l f) Q := by
  intro s _ hp t hst ht
  have hpt := hP s t hst ht hp
  refine ⟨fun e hr => he _ e t hr ht hpt, fun hmay => ?_⟩
  refine ⟨hm t ht hpt hmay, ?_⟩
  cases hf : f t with
  | ok r =>
    obtain ⟨a, t'⟩ := r
    obtain ⟨h1, h2, h3, h4⟩ := hok t a t' ht hpt hmay hf
    simp only [hf]
    exact ⟨h1, h2, h3, h4⟩
  | error e =>
    simp only [hf]
    exact ⟨ht, K.rel_refl t, herr t e ht hpt hmay hf, fun e' hr => he _ e' t hr ht hpt⟩

/-- What the steps of the others and of the program itself leave true, holds at its end. -/
theorem Prog.wp_frame {P : σ → Prop} (hrely : Stable K P) (hrel : ∀ s t, K.rel s t → P s → P t)
    {Q : Except ε α → σ → Prop} (p : Prog ι σ ε α) :
    ∀ s, P s → p.wp A K Q s → p.wp A K (fun r t => P t ∧ Q r t) s := by
  induction p with
  | done r => exact fun s hs hw => ⟨hs, hw⟩
  | atom l g k h ihk ihh =>
    intro s hs hw t hst ht
    have hpt := hrely s t hst ht hs
    obtain ⟨hf, hm⟩ := hw t hst ht
    refine ⟨fun e he => ihh e t hpt (hf e he), fun hmay => ?_⟩
    obtain ⟨h1, h2, h3, h4, h5⟩ := hm hmay
    have hpg := hrel t (g t) h3 hpt
    exact ⟨h1, h2, h3, ihk t _ hpg h4, fun e he => ihh e _ hpg (h5 e he)⟩

theorem Triple.frame {P R : σ → Prop} (hrely : Stable K R) (hrel : ∀ s t, K.rel s t → R s → R t)
    {Q : Except ε α → σ → Prop} {p : Prog ι σ ε α} (h : Triple A K P p Q) :
    Triple A K (fun s => R s ∧ P s) p fun r s => R s ∧ Q r s :=
  fun s hs hp => p.wp_frame hrely hrel s hp.1 (h s hs hp.2)

/-! ### Programs that keep the guarantee from every state -/

theorem Keeps.triple {p : Prog ι σ ε α} (h : Keeps A K p) {Q : Except ε α → σ → Prop}
    (hQ : ∀ r s, K.inv s → Q r s) : Triple A K P p Q :=
  h.conseq (fun _ _ _ => trivial) fun r s hs _ => hQ r s hs

theorem Triple.keeps {Q : Except ε α → σ → Prop} {p : Prog ι σ ε α}
    (h : Triple A K (fun _ => True) p Q) : Keeps A K p :=
  h.conseq (fun _ _ _ => trivial) fun _ _ _ _ => trivial

theorem Keeps.pure (a : α) : Keeps A K (Pure.pure a : Prog ι σ ε α) :=
  Triple.pure a fun _ _ _ => trivial

theorem Keeps.throw (e : ε) : Keeps A K (MonadExcept.throw e : Prog ι σ ε α) :=
  Triple.throw e fun _ _ _ => trivial

theorem Keeps.bind {p : Prog ι σ ε α} {f : α → Prog ι σ ε β} (h : Keeps A K p)
    (hf : ∀ a, Keeps A K (f a)) : Keeps A K (p >>= f) :=
  Triple.bind h hf fun _ _ _ _ => trivial

theorem Keeps.tryCatch {p : Prog ι σ ε α} {c : ε → Prog ι σ ε α} (h : Keeps A K p)
    (hc : ∀ e, Keeps A K (c e)) : Keeps A K (MonadExcept.tryCatch p c) :=
  Triple.tryCatch h (fun _ _ _ _ => trivial) hc

/-- `p` keeps the guarantee and returns a value with `V`. -/
theorem Triple.bindValue {p : Prog ι σ ε α} {f : α → Prog ι σ ε β} {V : α → Prop}
    (h : Triple A K (fun _ => True) p (fun r _ => ∀ a, r = .ok a → V a))
    (hf : ∀ a, V a → Keeps A K (f a)) : Keeps A K (p >>= f) := by
  refine Triple.bind h (fun a s hs ha => ?_) fun _ _ _ _ => trivial
  exact hf a (ha a rfl) s hs trivial

variable (A K) in
/-- `p` keeps the guarantee from every state, and what it returns has `V`. -/
def Gives (V : α → Prop) (p : Prog ι σ ε α) : Prop :=
  Triple A K (fun _ => True) p fun r _ => ∀ a, r = .ok a → V a

theorem Gives.keeps {V : α → Prop} {p : Prog ι σ ε α} (h : Gives A K V p) : Keeps A K p :=
  Triple.keeps h

theorem Gives.pure {V : α → Prop} {a : α} (h : V a) :
    Gives A K V (Pure.pure a : Prog ι σ ε α) :=
  Triple.pure a fun _ _ _ => by rintro b ⟨⟩; exact h

theorem Gives.bind {V : α → Prop} {W : β → Prop} {p : Prog ι σ ε α} {f : α → Prog ι σ ε β}
    (h : Gives A K V p) (hf : ∀ a, V a → Gives A K W (f a)) : Gives A K W (p >>= f) :=
  Triple.bind h (fun a s hs ha => hf a (ha a rfl) s hs trivial) fun _ _ _ _ _ => nofun

theorem Gives.tryCatch {V : α → Prop} {p : Prog ι σ ε α} {c : ε → Prog ι σ ε α}
    (h : Gives A K V p) (hc : ∀ e, Gives A K V (c e)) :
    Gives A K V (MonadExcept.tryCatch p c) :=
  Triple.tryCatch h (fun _ _ _ hr => hr) fun e s hs _ => hc e s hs trivial

theorem Gives.retry {V : α → Prop} {p : Prog ι σ ε α} (h : Gives A K V p) (n : Nat) :
    Gives A K V (Prog.retry n p) := by
  induction n with
  | zero => exact h
  | succ n ih => exact Gives.tryCatch h fun _ => ih

theorem Gives.mapAll {V : β → α → Prop} {p : β → Prog ι σ ε α} {xs : List β}
    (h : ∀ x ∈ xs, Gives A K (V x) (p x)) :
    Gives A K (fun ys => List.Forall₂ V xs ys) (Prog.mapAll p xs) := by
  induction xs with
  | nil => exact Gives.pure .nil
  | cons x xs ih =>
    refine Gives.bind (h x List.mem_cons_self) fun y hy => ?_
    refine Gives.bind (ih fun z hz => h z (List.mem_cons_of_mem x hz)) fun ys hys => ?_
    exact Gives.pure (.cons hy hys)

theorem Keeps.retry {p : Prog ι σ ε α} (h : Keeps A K p) (n : Nat) :
    Keeps A K (Prog.retry n p) := by
  induction n with
  | zero => exact h
  | succ n ih => exact Keeps.tryCatch h fun _ => ih

theorem Keeps.tryFinally {p : Prog ι σ ε α} {c : Prog ι σ ε Unit} (h : Keeps A K p)
    (hc : Keeps A K c) : Keeps A K (Prog.tryFinally p c) := by
  refine Keeps.bind (Keeps.tryCatch h fun e => ?_) fun a => ?_
  · exact Keeps.bind hc fun _ => Keeps.throw e
  · exact Keeps.bind hc fun _ => Keeps.pure a

theorem Keeps.forEach {p : β → Prog ι σ ε Unit} {xs : List β} (h : ∀ x ∈ xs, Keeps A K (p x)) :
    Keeps A K (Prog.forEach p xs) := by
  induction xs with
  | nil => exact Keeps.pure ()
  | cons x xs ih =>
    refine Keeps.bind (h x (by simp)) fun _ => ih fun y hy => h y (by simp [hy])

theorem stable_true : Stable K fun _ => True := fun _ _ _ _ _ => trivial

/-! ### Programs whose steps are all of one kind -/

/-- Every step of the program, on every path, has a label and an effect in `S`. -/
def Prog.Within (S : ι → (σ → σ) → Prop) : Prog ι σ ε α → Prop
  | .done _ => True
  | .atom l g k h => S l g ∧ (∀ s, (k s).Within S) ∧ ∀ e, (h e).Within S

variable {S S' : ι → (σ → σ) → Prop}

theorem Prog.Within.mono (hS : ∀ l g, S l g → S' l g) {p : Prog ι σ ε α} (h : p.Within S) :
    p.Within S' := by
  induction p with
  | done r => trivial
  | atom l g k c ihk ihc =>
    exact ⟨hS l g h.1, fun s => ihk s (h.2.1 s), fun e => ihc e (h.2.2 e)⟩

theorem Prog.Within.pure (a : α) : (Pure.pure a : Prog ι σ ε α).Within S := trivial

theorem Prog.Within.throw (e : ε) : (MonadExcept.throw e : Prog ι σ ε α).Within S := trivial

theorem Prog.Within.bind {p : Prog ι σ ε α} {f : α → Prog ι σ ε β} (h : p.Within S)
    (hf : ∀ a, (f a).Within S) : (p >>= f).Within S := by
  change (p.bind f).Within S
  induction p with
  | done r =>
    cases r with
    | ok a => exact hf a
    | error e => trivial
  | atom l g k c ihk ihc =>
    exact ⟨h.1, fun s => ihk s (h.2.1 s), fun e => ihc e (h.2.2 e)⟩

theorem Prog.Within.tryCatch {p : Prog ι σ ε α} {c : ε → Prog ι σ ε α} (h : p.Within S)
    (hc : ∀ e, (c e).Within S) : (MonadExcept.tryCatch p c).Within S := by
  change (p.tryCatch c).Within S
  induction p with
  | done r =>
    cases r with
    | ok a => trivial
    | error e => exact hc e
  | atom l g k d ihk ihd =>
    exact ⟨h.1, fun s => ihk s (h.2.1 s), fun e => ihd e (h.2.2 e)⟩

theorem Prog.Within.read {l : ι} (f : σ → α) (h : S l id) :
    (Prog.read l f : Prog ι σ ε α).Within S :=
  ⟨h, fun _ => trivial, fun _ => trivial⟩

theorem Prog.Within.write {l : ι} {g : σ → σ} (h : S l g) :
    (Prog.write l g : Prog ι σ ε Unit).Within S :=
  ⟨h, fun _ => trivial, fun _ => trivial⟩

theorem Prog.Within.atomic {l : ι} {f : σ → Except ε (α × σ)}
    (h : S l fun s => match f s with | .ok (_, s') => s' | .error _ => s) :
    (Prog.atomic l f).Within S := by
  refine ⟨h, fun s => ?_, fun _ => trivial⟩
  dsimp only
  split <;> trivial

theorem Prog.Within.retry {p : Prog ι σ ε α} (h : p.Within S) (n : Nat) :
    (Prog.retry n p).Within S := by
  induction n with
  | zero => exact h
  | succ n ih => exact Prog.Within.tryCatch h fun _ => ih

theorem Prog.Within.forEach {p : β → Prog ι σ ε Unit} {xs : List β}
    (h : ∀ x ∈ xs, (p x).Within S) : (Prog.forEach p xs).Within S := by
  induction xs with
  | nil => trivial
  | cons x xs ih => exact Prog.Within.bind (h x (by simp)) fun _ => ih fun y hy => h y (by simp [hy])

/-- Every value the program can return, on every path, has `V`. -/
def Prog.Yields (V : α → Prop) : Prog ι σ ε α → Prop
  | .done (.ok a) => V a
  | .done (.error _) => True
  | .atom _ _ k h => (∀ s, (k s).Yields V) ∧ ∀ e, (h e).Yields V

theorem Prog.Yields.read {V : α → Prop} (l : ι) {f : σ → α} (h : ∀ s, V (f s)) :
    (Prog.read l f : Prog ι σ ε α).Yields V := ⟨h, fun _ => trivial⟩

theorem Prog.Yields.tryCatch {V : α → Prop} {p : Prog ι σ ε α} {c : ε → Prog ι σ ε α}
    (h : p.Yields V) (hc : ∀ e, (c e).Yields V) : (p.tryCatch c).Yields V := by
  induction p with
  | done r =>
    cases r with
    | ok a => exact h
    | error e => exact hc e
  | atom l g k d ihk ihd => exact ⟨fun s => ihk s (h.1 s), fun e => ihd e (h.2 e)⟩

theorem Prog.Yields.retry {V : α → Prop} {p : Prog ι σ ε α} (h : p.Yields V) (n : Nat) :
    (Prog.retry n p).Yields V := by
  induction n with
  | zero => exact h
  | succ n ih => exact Prog.Yields.tryCatch h fun _ => ih

/-- `Within.bind`, where the rest is only run on values with `V`. -/
theorem Prog.Within.bindYields {V : α → Prop} {p : Prog ι σ ε α} {f : α → Prog ι σ ε β}
    (h : p.Within S) (hV : p.Yields V) (hf : ∀ a, V a → (f a).Within S) : (p >>= f).Within S := by
  change (p.bind f).Within S
  induction p with
  | done r =>
    cases r with
    | ok a => exact hf a hV
    | error e => trivial
  | atom l g k c ihk ihc =>
    exact ⟨h.1, fun s => ihk s (h.2.1 s) (hV.1 s), fun e => ihc e (h.2.2 e) (hV.2 e)⟩

/-- When every step of a kind keeps the guarantee, so does a program of such steps. -/
theorem Prog.Within.keeps {p : Prog ι σ ε α} (h : p.Within S)
    (hS : ∀ l g, S l g → ∀ s, K.inv s → A.may l s → K.must l s ∧ K.inv (g s) ∧ K.rel s (g s)) :
    Keeps A K p := by
  intro s _ _
  induction p generalizing s with
  | done r => trivial
  | atom l g k c ihk ihc =>
    intro t _ ht
    refine ⟨fun e _ => ihc e (h.2.2 e) t ht, fun hmay => ?_⟩
    obtain ⟨h1, h2, h3⟩ := hS l g h.1 t ht hmay
    exact ⟨h1, h2, h3, ihk t (h.2.1 t) (g t) h2, fun e _ => ihc e (h.2.2 e) (g t) h2⟩

/-- What every step of a kind does to the state, the program alone does. -/
theorem Prog.Within.run {p : Prog ι σ ε α} (h : p.Within S) {R : σ → σ → Prop}
    (hrefl : ∀ s, R s s) (htrans : ∀ s t u, R s t → R t u → R s u)
    (hS : ∀ l g, S l g → ∀ s, R s (g s)) (s : σ) : R s (p.run s).2 := by
  induction p generalizing s with
  | done r => exact hrefl s
  | atom l g k c ihk _ => exact htrans _ _ _ (hS l g h.1 s) (ihk s (h.2.1 s) (g s))

end Rules

/-! ## The program among given moves of others -/

/-- The program after some steps of its own and some moves of the others. -/
structure Amid (ι σ ε α : Type) where
  prog : Prog ι σ ε α
  state : σ
  /-- The states before. -/
  visited : List σ

section Amid
variable {ι σ ε α ω : Type} (move : ω → σ → σ)

/-- A schedule lists who goes next: another one with a move, or the program. -/
def Prog.amid : List (Option ω) → Prog ι σ ε α → σ → Amid ι σ ε α
  | [], p, s => ⟨p, s, []⟩
  | some m :: sched, p, s =>
    let out := Prog.amid sched p (move m s)
    { out with visited := s :: out.visited }
  | none :: sched, .atom _ g k _, s =>
    let out := Prog.amid sched (k s) (g s)
    { out with visited := s :: out.visited }
  | none :: sched, .done r, s => Prog.amid sched (.done r) s

/-- Every move of the others is one that `ok` allows in the state it is made in. -/
def Prog.AmidMeets (ok : ω → σ → Prop) : List (Option ω) → Prog ι σ ε α → σ → Prop
  | [], _, _ => True
  | some m :: sched, p, s => ok m s ∧ Prog.AmidMeets ok sched p (move m s)
  | none :: sched, .atom _ g k _, s => Prog.AmidMeets ok sched (k s) (g s)
  | none :: sched, .done r, s => Prog.AmidMeets ok sched (.done r) s

instance decidableAmidMeets (ok : ω → σ → Prop) [∀ m s, Decidable (ok m s)] :
    ∀ (sched : List (Option ω)) (p : Prog ι σ ε α) (s : σ),
      Decidable (Prog.AmidMeets move ok sched p s)
  | [], _, _ => isTrue trivial
  | some m :: sched, p, s =>
    have := decidableAmidMeets ok sched p (move m s)
    inferInstanceAs (Decidable (ok m s ∧ Prog.AmidMeets move ok sched p (move m s)))
  | none :: sched, .atom _ g k _, s => decidableAmidMeets ok sched (k s) (g s)
  | none :: sched, .done r, s => decidableAmidMeets ok sched (.done r) s

/-- Every step of the program is one that `may` allows in the state it is taken in. -/
def Prog.AmidTakes (may : ι → σ → Prop) : List (Option ω) → Prog ι σ ε α → σ → Prop
  | [], _, _ => True
  | some m :: sched, p, s => Prog.AmidTakes may sched p (move m s)
  | none :: sched, .atom l g k _, s => may l s ∧ Prog.AmidTakes may sched (k s) (g s)
  | none :: sched, .done r, s => Prog.AmidTakes may sched (.done r) s

instance decidableAmidTakes (may : ι → σ → Prop) [∀ l s, Decidable (may l s)] :
    ∀ (sched : List (Option ω)) (p : Prog ι σ ε α) (s : σ),
      Decidable (Prog.AmidTakes move may sched p s)
  | [], _, _ => isTrue trivial
  | some m :: sched, p, s => decidableAmidTakes may sched p (move m s)
  | none :: sched, .atom l g k _, s =>
    have := decidableAmidTakes may sched (k s) (g s)
    inferInstanceAs (Decidable (may l s ∧ Prog.AmidTakes move may sched (k s) (g s)))
  | none :: sched, .done r, s => decidableAmidTakes may sched (.done r) s

theorem Prog.amidTakes_of_all {may : ι → σ → Prop} (h : ∀ l s, may l s) :
    ∀ (sched : List (Option ω)) (p : Prog ι σ ε α) (s : σ), Prog.AmidTakes move may sched p s
  | [], _, _ => trivial
  | some m :: sched, p, s => amidTakes_of_all h sched p (move m s)
  | none :: sched, .atom l g k _, s => ⟨h l s, amidTakes_of_all h sched (k s) (g s)⟩
  | none :: sched, .done r, s => amidTakes_of_all h sched (.done r) s

variable {move} {A : Assume ι σ ε} {K : Guarantee ι σ} {ok : ω → σ → Prop}
  {Q : Except ε α → σ → Prop} {R : σ → σ → Prop}

/-- The invariant holds in every state, and `R` leads from each of them to the last. -/
structure Amid.Sound (K : Guarantee ι σ) (R : σ → σ → Prop) (s : σ) (out : Amid ι σ ε α) :
    Prop where
  inv : K.inv out.state
  visited : ∀ u ∈ out.visited, K.inv u
  first : R s out.state
  last : ∀ u ∈ out.visited, R u out.state

theorem Amid.Sound.cons {s t : σ} {out : Amid ι σ ε α} (h : out.Sound K R t) (hs : K.inv s)
    (hst : R s t) (htrans : ∀ s t u, R s t → R t u → R s u) :
    ({ out with visited := s :: out.visited } : Amid ι σ ε α).Sound K R s where
  inv := h.inv
  visited := List.forall_mem_cons.mpr ⟨hs, h.visited⟩
  first := htrans _ _ _ hst h.first
  last := List.forall_mem_cons.mpr ⟨htrans _ _ _ hst h.first, h.last⟩

/-- What `wp` shows holds under every schedule. -/
theorem Prog.wp_amid (hQ : ∀ r s t, K.rely s t → K.inv t → Q r s → Q r t)
    (hmove : ∀ m s, K.inv s → ok m s → K.inv (move m s) ∧ K.rely s (move m s))
    (hrefl : ∀ s, R s s) (htrans : ∀ s t u, R s t → R t u → R s u)
    (hrely : ∀ s t, K.rely s t → R s t) (hrel : ∀ s t, K.rel s t → R s t) :
    ∀ (sched : List (Option ω)) (p : Prog ι σ ε α) (s : σ), K.inv s → p.wp A K Q s →
      Prog.AmidMeets move ok sched p s → Prog.AmidTakes move A.may sched p s →
      let out := Prog.amid move sched p s
      out.prog.wp A K Q out.state ∧ out.Sound K R s
  | [], p, s, hs, hp, _, _ => ⟨hp, ⟨hs, by simp [Prog.amid], hrefl s, by simp [Prog.amid]⟩⟩
  | some m :: sched, p, s, hs, hp, hm, ht => by
    obtain ⟨hinv, hst⟩ := hmove m s hs hm.1
    obtain ⟨h1, h2⟩ := wp_amid hQ hmove hrefl htrans hrely hrel sched p (move m s) hinv
      (p.wp_stable hQ hst hinv hp) hm.2 ht
    exact ⟨h1, h2.cons hs (hrely _ _ hst) htrans⟩
  | none :: sched, .atom l g k h, s, hs, hp, hm, ht => by
    obtain ⟨_, hstep⟩ := hp s (K.rely_refl s) hs
    obtain ⟨_, hinv, hst, hk, _⟩ := hstep ht.1
    obtain ⟨h1, h2⟩ := wp_amid hQ hmove hrefl htrans hrely hrel sched (k s) (g s) hinv hk hm ht.2
    exact ⟨h1, h2.cons hs (hrel _ _ hst) htrans⟩
  | none :: sched, .done r, s, hs, hp, hm, ht =>
    wp_amid hQ hmove hrefl htrans hrely hrel sched (.done r) s hs hp hm ht

end Amid

/-! ## Programs that raise nothing by themselves -/

namespace Prog

variable {ι σ ε α β : Type}

/-- Alone and without a fault, the program returns. -/
def Total (p : Prog ι σ ε α) : Prop := ∀ s, ∃ a s', p.run s = (.ok a, s')

theorem Total.pure (a : α) : (Pure.pure a : Prog ι σ ε α).Total := fun s => ⟨a, s, rfl⟩

theorem Total.read (l : ι) (f : σ → α) : (read l f : Prog ι σ ε α).Total := fun s => ⟨f s, s, rfl⟩

theorem Total.write (l : ι) (g : σ → σ) : (write l g : Prog ι σ ε Unit).Total :=
  fun s => ⟨(), g s, rfl⟩

theorem Total.bind {p : Prog ι σ ε α} {f : α → Prog ι σ ε β} (h : p.Total)
    (hf : ∀ a, (f a).Total) : (p >>= f).Total := by
  intro s
  obtain ⟨a, s', hp⟩ := h s
  obtain ⟨b, s'', hb⟩ := hf a s'
  exact ⟨b, s'', by rw [run_bind, hp]; exact hb⟩

theorem Total.tryCatch {p : Prog ι σ ε α} {c : ε → Prog ι σ ε α} (hc : ∀ e, (c e).Total) :
    (MonadExcept.tryCatch p c).Total := by
  intro s
  rw [run_tryCatch]
  rcases hp : p.run s with ⟨r, s'⟩
  cases r with
  | ok a => exact ⟨a, s', rfl⟩
  | error e => exact hc e s'

theorem run_retry {p : Prog ι σ ε α} {s s' : σ} {a : α} (h : p.run s = (.ok a, s')) (n : Nat) :
    (retry n p).run s = (.ok a, s') := by
  cases n with
  | zero => exact h
  | succ n => exact (run_tryCatch p _ s).trans (by rw [h])

theorem Total.retry {p : Prog ι σ ε α} (h : p.Total) (n : Nat) : (retry n p).Total := by
  intro s
  obtain ⟨a, s', hp⟩ := h s
  exact ⟨a, s', run_retry hp n⟩

theorem Total.forEach {p : β → Prog ι σ ε Unit} {xs : List β} (h : ∀ x ∈ xs, (p x).Total) :
    (Prog.forEach p xs).Total := by
  induction xs with
  | nil => exact Total.pure ()
  | cons x xs ih => exact Total.bind (h x (by simp)) fun _ => ih fun y hy => h y (by simp [hy])

end Prog

end Interleave
end Geofastmap
