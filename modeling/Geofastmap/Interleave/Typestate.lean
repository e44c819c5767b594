import Mathlib.Data.List.InsertIdx
import Mathlib.Data.List.Perm.Basic
import Geofastmap.Interleave.Pool

/-!
# Geofastmap.Interleave.Typestate

A pool of programs in which each program has a state of its own besides the shared one. The own
state is not part of the program: a rule says how it moves when the program takes a step with a
label, from the shared state the step sees, and when the step raises.

* `Prog.Typed` : along every path of the program its steps are of a kind that the own state
  allows, and it ends in an own state with `Q`.
* `Threads.exec` : the runs of such a pool; a program that is stopped takes its own state with it.
* `exec_inv` : an invariant of the shared state and all own states that every allowed step keeps
  holds after every run that meets a condition on its steps.
-/

namespace Geofastmap
namespace Interleave

variable {ι σ ε α β κ Φ : Type}

/-- How own states move, which steps they allow, and which steps may raise. -/
structure Typestate (ι σ Φ : Type) where
  after : ι → σ → Φ → Φ
  failed : ι → Φ → Φ
  allows : Φ → ι → (σ → σ) → Prop
  raises : ι → Prop

section Rules
variable (T : Typestate ι σ Φ)

def Prog.Typed : Prog ι σ ε α → (Except ε α → Φ → Prop) → Φ → Prop
  | .done r, Q, φ => Q r φ
  | .atom l g k h, Q, φ =>
    T.allows φ l g ∧ (∀ s, (k s).Typed Q (T.after l s φ)) ∧
      (T.raises l → ∀ e, (h e).Typed Q (T.failed l φ))

variable {T} {φ : Φ}

theorem Prog.Typed.mono {Q Q' : Except ε α → Φ → Prop} (hQ : ∀ r φ, Q r φ → Q' r φ)
    (p : Prog ι σ ε α) : ∀ φ, p.Typed T Q φ → p.Typed T Q' φ := by
  induction p with
  | done r => intro φ h; exact hQ r φ h
  | atom l g k h ihk ihh =>
    intro φ hp
    exact ⟨hp.1, fun s => ihk s _ (hp.2.1 s), fun hl e => ihh e _ (hp.2.2 hl e)⟩

theorem Prog.typed_bind (f : α → Prog ι σ ε β) (Q : Except ε β → Φ → Prop) (p : Prog ι σ ε α) :
    ∀ φ, (p >>= f).Typed T Q φ ↔
      p.Typed T (fun r φ => match r with
        | .ok a => (f a).Typed T Q φ
        | .error e => Q (.error e) φ) φ := by
  change ∀ φ, (p.bind f).Typed T Q φ ↔ _
  induction p with
  | done r => intro φ; cases r <;> exact Iff.rfl
  | atom l g k h ihk ihh => intro φ; simp only [Prog.bind, Prog.Typed, ihk, ihh]

theorem Prog.typed_tryCatch (c : ε → Prog ι σ ε α) (Q : Except ε α → Φ → Prop)
    (p : Prog ι σ ε α) :
    ∀ φ, (MonadExcept.tryCatch p c).Typed T Q φ ↔
      p.Typed T (fun r φ => match r with
        | .ok a => Q (.ok a) φ
        | .error e => (c e).Typed T Q φ) φ := by
  change ∀ φ, (p.tryCatch c).Typed T Q φ ↔ _
  induction p with
  | done r => intro φ; cases r <;> exact Iff.rfl
  | atom l g k h ihk ihh => intro φ; simp only [Prog.tryCatch, Prog.Typed, ihk, ihh]

theorem Prog.Typed.bind {p : Prog ι σ ε α} {f : α → Prog ι σ ε β} {R : Except ε α → Φ → Prop}
    {Q : Except ε β → Φ → Prop} (h : p.Typed T R φ)
    (hf : ∀ a φ, R (.ok a) φ → (f a).Typed T Q φ)
    (he : ∀ e φ, R (.error e) φ → Q (.error e) φ) : (p >>= f).Typed T Q φ := by
  rw [Prog.typed_bind]
  refine Prog.Typed.mono ?_ p φ h
  rintro (e | a) φ' hr
  · exact he e φ' hr
  · exact hf a φ' hr

theorem Prog.Typed.tryCatch {p : Prog ι σ ε α} {c : ε → Prog ι σ ε α}
    {R Q : Except ε α → Φ → Prop} (h : p.Typed T R φ)
    (hok : ∀ a φ, R (.ok a) φ → Q (.ok a) φ)
    (hc : ∀ e φ, R (.error e) φ → (c e).Typed T Q φ) :
    (MonadExcept.tryCatch p c).Typed T Q φ := by
  rw [Prog.typed_tryCatch]
  refine Prog.Typed.mono ?_ p φ h
  rintro (e | a) φ' hr
  · exact hc e φ' hr
  · exact hok a φ' hr

theorem Prog.Typed.read {l : ι} {f : σ → α} {Q : Except ε α → Φ → Prop} (h : T.allows φ l id)
    (hok : ∀ s, Q (.ok (f s)) (T.after l s φ)) (he : ∀ e, Q (.error e) (T.failed l φ)) :
    (Prog.read l f : Prog ι σ ε α).Typed T Q φ :=
  ⟨h, hok, fun _ e => he e⟩

theorem Prog.Typed.write {l : ι} {g : σ → σ} {Q : Except ε Unit → Φ → Prop} (h : T.allows φ l g)
    (hok : ∀ s, Q (.ok ()) (T.after l s φ)) (he : ∀ e, Q (.error e) (T.failed l φ)) :
    (Prog.write l g : Prog ι σ ε Unit).Typed T Q φ :=
  ⟨h, hok, fun _ e => he e⟩

/-- The clean-up of `finally` starts where the program ends. -/
theorem Prog.Typed.tryFinally {p : Prog ι σ ε α} {c : Prog ι σ ε Unit}
    {R : Except ε α → Φ → Prop} {Q : Φ → Prop} (h : p.Typed T R φ)
    (hc : ∀ r φ', R r φ' → c.Typed T (fun _ => Q) φ') :
    (Prog.tryFinally p c).Typed T (fun _ => Q) φ := by
  change ((MonadExcept.tryCatch p fun e => c >>= fun _ => Prog.done (.error e)) >>= fun a =>
    c >>= fun _ => Prog.done (.ok a) : Prog ι σ ε α).Typed T _ φ
  rw [Prog.typed_bind, Prog.typed_tryCatch]
  refine Prog.Typed.mono ?_ p φ h
  rintro (e | a) φ' hr
  · exact Prog.Typed.bind (hc _ _ hr) (fun _ _ hq => hq) fun _ _ hq => hq
  · exact Prog.Typed.bind (hc _ _ hr) (fun _ _ hq => hq) fun _ _ hq => hq

/-- When an exception leaves the own state where it was, the program may be run again. -/
theorem Prog.Typed.retry {p : Prog ι σ ε α} {Q : Except ε α → Φ → Prop} (h : p.Typed T Q φ)
    (he : ∀ e φ', Q (.error e) φ' → φ' = φ) (n : Nat) : (Prog.retry n p).Typed T Q φ := by
  induction n with
  | zero => exact h
  | succ n ih =>
    refine Prog.Typed.tryCatch h (fun _ _ hq => hq) fun e φ' hq => ?_
    rw [he e φ' hq]
    exact ih

/-! ### Programs that give their own state back -/

variable (T) in
/-- Started in the own state `φ`, the program ends in it. -/
def Restores (φ : Φ) (p : Prog ι σ ε α) : Prop := p.Typed T (fun _ φ' => φ' = φ) φ

theorem Restores.pure (a : α) : Restores T φ (Pure.pure a : Prog ι σ ε α) := rfl

theorem Restores.throw (e : ε) : Restores T φ (MonadExcept.throw e : Prog ι σ ε α) := rfl

/-- A part that ends in the phase it began in leaves the rest of the program where it was. -/
theorem Restores.then {p : Prog ι σ ε α} {f : α → Prog ι σ ε β} {Q : Except ε β → Φ → Prop}
    (h : Restores T φ p) (hf : ∀ a, (f a).Typed T Q φ) (he : ∀ e, Q (.error e) φ) :
    (p >>= f).Typed T Q φ := by
  refine Prog.Typed.bind h ?_ ?_
  · rintro a φ' rfl; exact hf a
  · rintro e φ' rfl; exact he e

theorem Restores.bind {p : Prog ι σ ε α} {f : α → Prog ι σ ε β} (h : Restores T φ p)
    (hf : ∀ a, Restores T φ (f a)) : Restores T φ (p >>= f) :=
  h.then hf fun _ => rfl

theorem Restores.tryCatch {p : Prog ι σ ε α} {c : ε → Prog ι σ ε α} (h : Restores T φ p)
    (hc : ∀ e, Restores T φ (c e)) : Restores T φ (MonadExcept.tryCatch p c) := by
  refine Prog.Typed.tryCatch h ?_ ?_
  · rintro a φ' rfl; rfl
  · rintro e φ' rfl; exact hc e

theorem Restores.retry {p : Prog ι σ ε α} (h : Restores T φ p) (n : Nat) :
    Restores T φ (Prog.retry n p) := by
  induction n with
  | zero => exact h
  | succ n ih => exact Restores.tryCatch h fun _ => ih

/-- A program under `finally`: the clean-up starts in the own state the program had. -/
theorem Restores.tryFinally {p : Prog ι σ ε α} {c : Prog ι σ ε Unit} {ψ : Φ} (h : Restores T φ p)
    (hc : c.Typed T (fun _ φ' => φ' = ψ) φ) :
    (Prog.tryFinally p c).Typed T (fun _ φ' => φ' = ψ) φ := by
  refine Prog.Typed.tryFinally h ?_
  rintro r φ' rfl
  exact hc

theorem Restores.forEach {p : β → Prog ι σ ε Unit} {xs : List β}
    (h : ∀ x ∈ xs, Restores T φ (p x)) : Restores T φ (Prog.forEach p xs) := by
  induction xs with
  | nil => exact Restores.pure ()
  | cons x xs ih =>
    exact Restores.bind (h x (by simp)) fun _ => ih fun y hy => h y (by simp [hy])

/-- A program of steps that the own state allows and that do not move it. -/
theorem Prog.Within.restores {S : ι → (σ → σ) → Prop} {p : Prog ι σ ε α} (h : p.Within S)
    (hS : ∀ l g, S l g → T.allows φ l g ∧ (∀ s, T.after l s φ = φ) ∧ T.failed l φ = φ) :
    Restores T φ p := by
  induction p with
  | done r => rfl
  | atom l g k c ihk ihc =>
    obtain ⟨h1, h2, h3⟩ := hS l g h.1
    refine ⟨h1, fun s => ?_, fun _ e => ?_⟩
    · rw [h2 s]; exact ihk s (h.2.1 s)
    · rw [h3]; exact ihc e (h.2.2 e)

end Rules

/-! ## Pools -/

structure Threads (ι σ ε Φ : Type) where
  st : σ
  pool : List (Prog ι σ ε Unit × Φ)

/-- The own states. -/
def Threads.own (c : Threads ι σ ε Φ) : List Φ := c.pool.map Prod.snd

/-- The label of the next step of program `i`. -/
def Threads.label (c : Threads ι σ ε Φ) (i : Nat) : Option (ι × Φ) :=
  match c.pool[i]? with
  | some (.atom l _ _ _, φ) => some (l, φ)
  | _ => none

variable (T : Typestate ι σ Φ) (entry : κ → Prog ι σ ε Unit) (start : κ → σ → Φ)

def Threads.act (c : Threads ι σ ε Φ) : Choice κ ε → Threads ι σ ε Φ
  | .spawn a => { c with pool := c.pool ++ [(entry a, start a c.st)] }
  | .step i =>
    match c.pool[i]? with
    | some (.atom l g k _, φ) => ⟨g c.st, c.pool.set i (k c.st, T.after l c.st φ)⟩
    | _ => c
  | .fault i e late =>
    match c.pool[i]? with
    | some (.atom l g _ h, φ) =>
      ⟨if late then g c.st else c.st, c.pool.set i (h e, T.failed l φ)⟩
    | _ => c
  | .crash i => { c with pool := c.pool.eraseIdx i }

def Threads.exec (c : Threads ι σ ε Φ) (cs : List (Choice κ ε)) : Threads ι σ ε Φ :=
  cs.foldl (Threads.act T entry start) c

/-- A condition on a step: its label, the shared state, the own state of the program that takes
it and the own states of the others. -/
abbrev Condition (ι σ Φ : Type) := ι → σ → Φ → List Φ → Prop

variable (may : Condition ι σ Φ) (starts : κ → σ → List Φ → Prop)

/-- A choice meets the condition: a step does, also one that raises after its effect, only steps
that may raise do, and a program is started where it may be. -/
def MeetsChoice (c : Threads ι σ ε Φ) : Choice κ ε → Prop
  | .spawn a => starts a c.st c.own
  | .step i => ∀ x ∈ c.label i, may x.1 c.st x.2 (c.own.eraseIdx i)
  | .fault i _ late => ∀ x ∈ c.label i, T.raises x.1 ∧
      (late = true → may x.1 c.st x.2 (c.own.eraseIdx i))
  | .crash _ => True

def MeetsAll : Threads ι σ ε Φ → List (Choice κ ε) → Prop
  | _, [] => True
  | c, ch :: cs => MeetsChoice T may starts c ch ∧ MeetsAll (c.act T entry start ch) cs

instance decidableMeetsChoice [∀ l s φ φs, Decidable (may l s φ φs)]
    [∀ a s φs, Decidable (starts a s φs)] [∀ l, Decidable (T.raises l)] (c : Threads ι σ ε Φ) :
    ∀ ch : Choice κ ε, Decidable (MeetsChoice T may starts c ch)
  | .spawn a => inferInstanceAs (Decidable (starts a c.st c.own))
  | .step i =>
    inferInstanceAs (Decidable (∀ x ∈ c.label i, may x.1 c.st x.2 (c.own.eraseIdx i)))
  | .fault i _ late =>
    inferInstanceAs (Decidable (∀ x ∈ c.label i, T.raises x.1 ∧
      (late = true → may x.1 c.st x.2 (c.own.eraseIdx i))))
  | .crash _ => isTrue trivial

instance decidableMeetsAll [∀ l s φ φs, Decidable (may l s φ φs)]
    [∀ a s φs, Decidable (starts a s φs)] [∀ l, Decidable (T.raises l)] :
    ∀ (cs : List (Choice κ ε)) (c : Threads ι σ ε Φ),
      Decidable (MeetsAll T entry start may starts c cs)
  | [], _ => isTrue trivial
  | ch :: cs, c =>
    have := decidableMeetsAll cs (c.act T entry start ch)
    inferInstanceAs (Decidable (MeetsChoice T may starts c ch ∧
      MeetsAll T entry start may starts (c.act T entry start ch) cs))

variable {T entry start may starts} {inv : σ → List Φ → Prop}

/-- What holds between two choices. -/
structure Threads.Good (T : Typestate ι σ Φ) (inv : σ → List Φ → Prop) (c : Threads ι σ ε Φ) :
    Prop where
  inv : inv c.st c.own
  pool : ∀ x ∈ c.pool, x.1.Typed T (fun _ _ => True) x.2

/-- What an invariant has to survive: a step of one program among the others, one that raises, a
new program and one that is gone. -/
structure Invariant (T : Typestate ι σ Φ) (start : κ → σ → Φ) (may : Condition ι σ Φ)
    (starts : κ → σ → List Φ → Prop) (inv : σ → List Φ → Prop) : Prop where
  perm : ∀ s φs φs', φs.Perm φs' → inv s φs → inv s φs'
  step : ∀ l g s φ φs, inv s (φ :: φs) → T.allows φ l g → may l s φ φs →
    inv (g s) (T.after l s φ :: φs)
  late : ∀ l g s φ φs, inv s (φ :: φs) → T.allows φ l g → T.raises l → may l s φ φs →
    inv (g s) (T.failed l φ :: φs)
  fault : ∀ l g s φ φs, inv s (φ :: φs) → T.allows φ l g → T.raises l →
    inv s (T.failed l φ :: φs)
  spawn : ∀ a s φs, inv s φs → starts a s φs → inv s (start a s :: φs)
  crash : ∀ s φ φs, inv s (φ :: φs) → inv s φs

theorem Threads.label_eq {c : Threads ι σ ε Φ} {i : Nat} {l : ι} {g : σ → σ}
    {k : σ → Prog ι σ ε Unit} {h : ε → Prog ι σ ε Unit} {φ : Φ}
    (hi : c.pool[i]? = some (.atom l g k h, φ)) : c.label i = some (l, φ) := by
  simp only [Threads.label, hi]

/-- Program `i` and its own state, apart from the others. -/
theorem Threads.own_perm {c : Threads ι σ ε Φ} {i : Nat} {p : Prog ι σ ε Unit} {φ : Φ}
    (hi : c.pool[i]? = some (p, φ)) : c.own.Perm (φ :: c.own.eraseIdx i) := by
  have hown : c.own[i]? = some φ := by simp [Threads.own, hi]
  obtain ⟨hlt, hget⟩ := List.getElem?_eq_some_iff.mp hown
  rw [← hget]
  exact (List.getElem_cons_eraseIdx_perm hlt).symm

/-- The configuration after program `i` moved on to `q` and the own state `ψ`. -/
theorem Threads.Good.moved {c : Threads ι σ ε Φ} (hc : c.Good T inv)
    (hI : ∀ s φs φs', φs.Perm φs' → inv s φs → inv s φs') {i : Nat} {p q : Prog ι σ ε Unit}
    {φ ψ : Φ} (hi : c.pool[i]? = some (p, φ)) {t : σ} (hinv : inv t (ψ :: c.own.eraseIdx i))
    (hq : q.Typed T (fun _ _ => True) ψ) :
    Threads.Good T inv ⟨t, c.pool.set i (q, ψ)⟩ := by
  have hlt : i < c.own.length := by
    have := (List.getElem?_eq_some_iff.mp hi).1
    simpa [Threads.own] using this
  refine ⟨hI _ _ _ ?_ hinv, fun x hx => ?_⟩
  · simp only [Threads.own, List.map_set]
    exact (List.set_perm_cons_eraseIdx hlt ψ).symm
  · rcases List.mem_or_eq_of_mem_set hx with hx | rfl
    · exact hc.pool x hx
    · exact hq

theorem act_inv (hI : Invariant T start may starts inv)
    (hentry : ∀ a s φs, starts a s φs → (entry a).Typed T (fun _ _ => True) (start a s))
    {c : Threads ι σ ε Φ} (hc : c.Good T inv) {ch : Choice κ ε}
    (hm : MeetsChoice T may starts c ch) : (c.act T entry start ch).Good T inv := by
  cases ch with
  | spawn a =>
    refine ⟨?_, fun x hx => ?_⟩
    · refine hI.perm _ _ _ ?_ (hI.spawn a c.st c.own hc.inv hm)
      simpa [Threads.act, Threads.own] using (List.perm_append_singleton _ _).symm
    · rcases List.mem_append.mp hx with hx | hx
      · exact hc.pool x hx
      · rw [List.mem_singleton.mp hx]
        exact hentry a c.st c.own hm
  | step i =>
    simp only [Threads.act, MeetsChoice] at hm ⊢
    split
    · rename_i l g k h φ hi
      obtain ⟨hallow, hk, _⟩ := hc.pool _ (List.mem_of_getElem? hi)
      have hmay := hm _ (Threads.label_eq hi)
      have hinv := hI.perm _ _ _ (Threads.own_perm hi) hc.inv
      exact hc.moved hI.perm hi (hI.step l g c.st φ _ hinv hallow hmay) (hk c.st)
    · exact hc
  | fault i e late =>
    simp only [Threads.act, MeetsChoice] at hm ⊢
    split
    · rename_i l g k h φ hi
      obtain ⟨hallow, _, hh⟩ := hc.pool _ (List.mem_of_getElem? hi)
      obtain ⟨hraise, hmay⟩ := hm _ (Threads.label_eq hi)
      have hinv := hI.perm _ _ _ (Threads.own_perm hi) hc.inv
      refine hc.moved hI.perm hi ?_ (hh hraise e)
      cases late with
      | true => exact hI.late l g c.st φ _ hinv hallow hraise (hmay rfl)
      | false => exact hI.fault l g c.st φ _ hinv hallow hraise
    · exact hc
  | crash i =>
    refine ⟨?_, fun x hx => hc.pool x (List.mem_of_mem_eraseIdx hx)⟩
    cases hi : c.pool[i]? with
    | none =>
      have : c.pool.eraseIdx i = c.pool :=
        List.eraseIdx_of_length_le (List.getElem?_eq_none_iff.mp hi)
      simp only [Threads.act, this]
      exact hc.inv
    | some x =>
      have := hI.crash _ _ _ (hI.perm _ _ _ (Threads.own_perm (p := x.1) hi) hc.inv)
      simpa [Threads.act, Threads.own, List.eraseIdx_map] using this

/-- The rule for all runs. -/
theorem exec_inv (hI : Invariant T start may starts inv)
    (hentry : ∀ a s φs, starts a s φs → (entry a).Typed T (fun _ _ => True) (start a s))
    (cs : List (Choice κ ε)) {c : Threads ι σ ε Φ} (hc : c.Good T inv)
    (hm : MeetsAll T entry start may starts c cs) : (c.exec T entry start cs).Good T inv := by
  induction cs generalizing c with
  | nil => exact hc
  | cons ch cs ih => exact ih (act_inv hI hentry hc hm.1) hm.2

end Interleave
end Geofastmap
