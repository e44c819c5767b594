import Mathlib.Logic.Function.Iterate
import Geofastmap.Interleave.Prog

/-!
# Geofastmap.Interleave.Fault

A program alone under a pattern of faults. The pattern says for each step in turn whether it
raises, and if it does, whether it has taken effect. `Prog.trial` replays a pattern and records
which faults struck.

`Prog.wp_trial` carries a proof by `wp` over to every pattern; `trial_bind`, `trial_tryCatch` and
`trial_retry` compute one bad pattern. `Tried` is a logic for statements about the faults that
struck.
-/

namespace Geofastmap
namespace Interleave

variable {ι σ ε α β : Type}

/-- One entry of a pattern: `some (e, late)` for a step that raises `e`. -/
abbrev Fault (ε : Type) := Option (ε × Bool)

structure Trial (ι σ ε α : Type) where
  result : Except ε α
  state : σ
  /-- The part of the pattern that was not used. -/
  rest : List (Fault ε)
  /-- The steps that raised, and whether they had taken effect. -/
  struck : List (ι × Bool)

namespace Prog

def trial : Prog ι σ ε α → List (Fault ε) → σ → Trial ι σ ε α
  | .done r, fs, s => ⟨r, s, fs, []⟩
  | .atom _ g k _, [], s => (k s).trial [] (g s)
  | .atom _ g k _, none :: fs, s => (k s).trial fs (g s)
  | .atom l g _ h, some (e, late) :: fs, s =>
    let t := (h e).trial fs (if late then g s else s)
    { t with struck := (l, late) :: t.struck }

theorem trial_bind (p : Prog ι σ ε α) (f : α → Prog ι σ ε β) (fs : List (Fault ε)) (s : σ) :
    (p >>= f).trial fs s =
      let t := p.trial fs s
      match t.result with
      | .ok a =>
        let u := (f a).trial t.rest t.state
        { u with struck := t.struck ++ u.struck }
      | .error e => ⟨.error e, t.state, t.rest, t.struck⟩ := by
  change (p.bind f).trial fs s = _
  induction p generalizing fs s with
  | done r => cases r <;> rfl
  | atom l g k h ihk ihh =>
    match fs with
    | [] => exact ihk s [] (g s)
    | none :: fs => exact ihk s fs (g s)
    | some (e, late) :: fs =>
      simp only [Prog.bind, trial, ihh]
      split <;> rfl

theorem trial_tryCatch (p : Prog ι σ ε α) (c : ε → Prog ι σ ε α) (fs : List (Fault ε)) (s : σ) :
    (MonadExcept.tryCatch p c).trial fs s =
      let t := p.trial fs s
      match t.result with
      | .ok _ => t
      | .error e =>
        let u := (c e).trial t.rest t.state
        { u with struck := t.struck ++ u.struck } := by
  change (p.tryCatch c).trial fs s = _
  induction p generalizing fs s with
  | done r => cases r <;> rfl
  | atom l g k h ihk ihh =>
    match fs with
    | [] => exact ihk s [] (g s)
    | none :: fs => exact ihk s fs (g s)
    | some (e, late) :: fs =>
      simp only [Prog.tryCatch, trial, ihh]
      split <;> rfl

theorem trial_retry (p : Prog ι σ ε α) (n : Nat) (fs : List (Fault ε)) (s : σ) :
    (retry (n + 1) p).trial fs s =
      let t := p.trial fs s
      match t.result with
      | .ok _ => t
      | .error _ =>
        let u := (retry n p).trial t.rest t.state
        { u with struck := t.struck ++ u.struck } :=
  trial_tryCatch p (fun _ => retry n p) fs s

/-- A retried body that raises in every attempt. -/
theorem trial_retry_error {p : Prog ι σ ε α} {pattern : List (Fault ε)} {e : ε} {g : σ → σ}
    {struck : List (ι × Bool)}
    (h : ∀ s rest, p.trial (pattern ++ rest) s = ⟨.error e, g s, rest, struck⟩) (n : Nat) :
    ∀ s rest, (retry n p).trial ((List.replicate (n + 1) pattern).flatten ++ rest) s =
      ⟨.error e, g^[n + 1] s, rest, (List.replicate (n + 1) struck).flatten⟩ := by
  induction n with
  | zero =>
    intro s rest
    simpa [retry] using h s rest
  | succ n ih =>
    intro s rest
    rw [List.replicate_succ, List.flatten_cons, List.append_assoc]
    rw [trial_retry]
    simp only [h, ih]
    rw [List.replicate_succ (n := n + 1), List.flatten_cons]
    rfl

end Prog

/-- The guarantee of a program that runs alone: nothing moves between its steps. -/
def alone (ι σ : Type) : Guarantee ι σ where
  inv _ := True
  rely := Eq
  rel _ _ := True
  must _ _ := True
  rely_refl _ := rfl
  rely_trans h h' := h.trans h'
  rel_refl _ := trivial

theorem stable_alone {P : σ → Prop} : Stable (alone ι σ) P := fun _ _ h _ hp => h ▸ hp

/-- Steps that raise only where `R` allows it. -/
def faults (ε : Type) (R : ι → Bool → Prop) : Assume ι σ ε where
  may _ _ := True
  raises l late _ := R l late

/-- What `wp` shows holds under every pattern. -/
theorem Prog.wp_trial {R : ι → Bool → Prop} {Q : Except ε α → σ → Prop} (p : Prog ι σ ε α) :
    ∀ (fs : List (Fault ε)) (s : σ), p.wp (faults ε R) (alone ι σ) Q s →
      (∀ x ∈ (p.trial fs s).struck, R x.1 x.2) →
      Q (p.trial fs s).result (p.trial fs s).state := by
  induction p with
  | done r => intro fs s h _; exact h
  | atom l g k h ihk ihh =>
    intro fs s hw hR
    obtain ⟨hearly, hstep⟩ := hw s rfl trivial
    obtain ⟨_, _, _, hk, hlate⟩ := hstep trivial
    match fs with
    | [] => exact ihk s [] (g s) hk hR
    | none :: fs => exact ihk s fs (g s) hk hR
    | some (e, late) :: fs =>
      have hl : R l late := hR (l, late) List.mem_cons_self
      have hrest := fun x hx => hR x (List.mem_cons_of_mem _ hx)
      cases late with
      | false => exact ihh e fs s (hearly e hl) hrest
      | true => exact ihh e fs (g s) (hlate e hl) hrest

/-! ## What is known of the faults that struck -/

section Tried

/-- The steps that raised so far, and whether they had taken effect. -/
abbrev Past (ι : Type) := List (ι × Bool)

variable (R : ι → Bool → Prop)

/-- From `P`, under every pattern of faults that `R` allows, `p` ends in `Q`. Both may speak of the
faults that have struck. -/
def Tried (P : σ → Past ι → Prop) (p : Prog ι σ ε α) (Q : Except ε α → σ → Past ι → Prop) : Prop :=
  ∀ fs s past, P s past → (∀ x ∈ (p.trial fs s).struck, R x.1 x.2) →
    Q (p.trial fs s).result (p.trial fs s).state (past ++ (p.trial fs s).struck)

variable {R} {P : σ → Past ι → Prop}

theorem Tried.conseq {P' : σ → Past ι → Prop} {p : Prog ι σ ε α}
    {Q Q' : Except ε α → σ → Past ι → Prop} (hP : ∀ s past, P' s past → P s past)
    (h : Tried R P p Q) (hQ : ∀ r s past, Q r s past → Q' r s past) : Tried R P' p Q' :=
  fun fs s past hp hR => hQ _ _ _ (h fs s past (hP s past hp) hR)

theorem Tried.pure {Q : Except ε α → σ → Past ι → Prop} (a : α)
    (h : ∀ s past, P s past → Q (.ok a) s past) : Tried R P (Pure.pure a) Q := by
  intro fs s past hp _
  simpa [Prog.trial, Pure.pure] using h s past hp

theorem Tried.throw {Q : Except ε α → σ → Past ι → Prop} (e : ε)
    (h : ∀ s past, P s past → Q (.error e) s past) : Tried R P (MonadExcept.throw e) Q := by
  intro fs s past hp _
  simpa [Prog.trial, MonadExcept.throw, throwThe, MonadExceptOf.throw] using h s past hp

theorem Tried.bind {p : Prog ι σ ε α} {f : α → Prog ι σ ε β}
    {V : Except ε α → σ → Past ι → Prop} {Q : Except ε β → σ → Past ι → Prop}
    (h : Tried R P p V) (hf : ∀ a, Tried R (fun s past => V (.ok a) s past) (f a) Q)
    (he : ∀ e s past, V (.error e) s past → Q (.error e) s past) : Tried R P (p >>= f) Q := by
  intro fs s past hp hR
  rw [Prog.trial_bind] at hR ⊢
  cases hr : (p.trial fs s).result with
  | ok a =>
    simp only [hr] at hR ⊢
    have hp' := h fs s past hp fun x hx => hR x (List.mem_append_left _ hx)
    rw [hr] at hp'
    rw [← List.append_assoc]
    exact hf a _ _ _ hp' fun x hx => hR x (List.mem_append_right _ hx)
  | error e =>
    simp only [hr] at hR ⊢
    have hp' := h fs s past hp hR
    rw [hr] at hp'
    exact he e _ _ hp'

theorem Tried.tryCatch {p : Prog ι σ ε α} {c : ε → Prog ι σ ε α}
    {V Q : Except ε α → σ → Past ι → Prop} (h : Tried R P p V)
    (hok : ∀ a s past, V (.ok a) s past → Q (.ok a) s past)
    (hc : ∀ e, Tried R (fun s past => V (.error e) s past) (c e) Q) :
    Tried R P (MonadExcept.tryCatch p c) Q := by
  intro fs s past hp hR
  rw [Prog.trial_tryCatch] at hR ⊢
  cases hr : (p.trial fs s).result with
  | ok a =>
    simp only [hr] at hR ⊢
    have hp' := h fs s past hp hR
    rw [hr] at hp'
    exact hok a _ _ hp'
  | error e =>
    simp only [hr] at hR ⊢
    have hp' := h fs s past hp fun x hx => hR x (List.mem_append_left _ hx)
    rw [hr] at hp'
    rw [← List.append_assoc]
    exact hc e _ _ _ hp' fun x hx => hR x (List.mem_append_right _ hx)

theorem Tried.atomic {l : ι} {f : σ → Except ε (α × σ)} {Q : Except ε α → σ → Past ι → Prop}
    (hok : ∀ s past a s', P s past → f s = .ok (a, s') → Q (.ok a) s' past ∧
      ∀ e, R l true → Q (.error e) s' (past ++ [(l, true)]))
    (herr : ∀ s past e, P s past → f s = .error e → Q (.error e) s past ∧
      ∀ e', R l true → Q (.error e') s (past ++ [(l, true)]))
    (hearly : ∀ s past e, P s past → R l false → Q (.error e) s (past ++ [(l, false)])) :
    Tried R P (Prog.atomic l f) Q := by
  intro fs s past hp hR
  match fs with
  | [] | none :: _ =>
    cases hf : f s with
    | ok r => simpa [Prog.atomic, Prog.trial, hf] using (hok s past r.1 r.2 hp hf).1
    | error e => simpa [Prog.atomic, Prog.trial, hf] using (herr s past e hp hf).1
  | some (e, late) :: fs =>
    have hl : R l late := hR (l, late) (by simp [Prog.atomic, Prog.trial])
    cases late with
    | false => simpa [Prog.atomic, Prog.trial] using hearly s past e hp hl
    | true =>
      cases hf : f s with
      | ok r => simpa [Prog.atomic, Prog.trial, hf] using (hok s past r.1 r.2 hp hf).2 e hl
      | error e' => simpa [Prog.atomic, Prog.trial, hf] using (herr s past e' hp hf).2 e hl

/-- A program none of whose steps may raise runs as without faults. -/
theorem Prog.trial_eq_run {p : Prog ι σ ε α} (h : p.Within fun l _ => ∀ late, ¬R l late) :
    ∀ (fs : List (Fault ε)) (s : σ), (∀ x ∈ (p.trial fs s).struck, R x.1 x.2) →
      (p.trial fs s).result = (p.run s).1 ∧ (p.trial fs s).state = (p.run s).2 ∧
        (p.trial fs s).struck = [] := by
  induction p with
  | done r => intro fs s _; exact ⟨rfl, rfl, rfl⟩
  | atom l g k c ihk _ =>
    intro fs s hR
    match fs with
    | [] => exact ihk s (h.2.1 s) [] (g s) hR
    | none :: fs => exact ihk s (h.2.1 s) fs (g s) hR
    | some (e, late) :: fs => exact absurd (hR (l, late) List.mem_cons_self) (h.1 late)

theorem Tried.of_run {p : Prog ι σ ε α} {Q : Except ε α → σ → Past ι → Prop}
    (h : p.Within fun l _ => ∀ late, ¬R l late)
    (hrun : ∀ s past, P s past → Q (p.run s).1 (p.run s).2 past) : Tried R P p Q := by
  intro fs s past hp hR
  obtain ⟨h1, h2, h3⟩ := Prog.trial_eq_run h fs s hR
  rw [h1, h2, h3, List.append_nil]
  exact hrun s past hp

/-- `p` returns only values with `V`. -/
abbrev Returns (R : ι → Bool → Prop) (P : σ → Past ι → Prop) (p : Prog ι σ ε α)
    (V : α → σ → Past ι → Prop) : Prop :=
  Tried R P p fun r s past => ∀ a, r = .ok a → V a s past

theorem Returns.pure {V : α → σ → Past ι → Prop} {a : α} (h : ∀ s past, P s past → V a s past) :
    Returns R P (Pure.pure a : Prog ι σ ε α) V :=
  Tried.pure a fun s past hp b hb => by cases hb; exact h s past hp

theorem Returns.throw {V : α → σ → Past ι → Prop} (e : ε) :
    Returns R P (MonadExcept.throw e : Prog ι σ ε α) V :=
  Tried.throw e fun _ _ _ => nofun

theorem Returns.bind {p : Prog ι σ ε α} {f : α → Prog ι σ ε β} {V : α → σ → Past ι → Prop}
    {W : β → σ → Past ι → Prop} (h : Returns R P p V) (hf : ∀ a, Returns R (V a) (f a) W) :
    Returns R P (p >>= f) W :=
  Tried.bind h (fun a => (hf a).conseq (fun _ _ hv => hv a rfl) fun _ _ _ hq => hq)
    fun _ _ _ _ => nofun

/-- A clean-up that leaves what is known of the result. -/
theorem Returns.tryFinally {p : Prog ι σ ε α} {c : Prog ι σ ε Unit} {V : α → σ → Past ι → Prop}
    (h : Returns R P p V) (hc : ∀ a, Returns R (V a) c fun _ => V a) :
    Returns R P (Prog.tryFinally p c) V := by
  refine Returns.bind (Tried.tryCatch h (fun _ _ _ hq => hq) fun e => ?_) fun a => ?_
  · refine Tried.bind (V := fun _ _ _ => True) (fun _ _ _ _ _ => trivial) (fun _ => ?_)
      fun _ _ _ _ => nofun
    exact Returns.throw e
  · exact Returns.bind (hc a) fun _ => Returns.pure fun _ _ hv => hv

/-- A fact about neither the state nor the faults is carried along. -/
theorem Returns.frame {p : Prog ι σ ε α} {V : α → σ → Past ι → Prop} (h : Returns R P p V)
    (φ : Prop) :
    Returns R (fun s past => φ ∧ P s past) p fun a s past => φ ∧ V a s past :=
  fun fs s past hp hR a ha => ⟨hp.1, h fs s past hp.2 hR a ha⟩

end Tried

section Retry
variable {A : Assume ι σ ε} {K : Guarantee ι σ} {P : σ → Prop} {p : Prog ι σ ε α}
  {Q : Except ε α → σ → Prop}

/-- A retried body that ends in `P` again when it raises. -/
theorem Triple.retry (h : Triple A K P p Q) (he : ∀ e s, K.inv s → Q (.error e) s → P s)
    (n : Nat) : Triple A K P (Prog.retry n p) Q := by
  induction n with
  | zero => exact h
  | succ n ih => exact Triple.tryCatch h (fun _ _ _ hq => hq) fun e => ih.pre fun s hs hq => he e s hs hq

end Retry

/-! ## Faults by label -/

namespace Prog

/-- The program alone, where the environment says of each label whether its steps raise, in every
attempt, and whether they have taken effect. -/
def under (f : ι → Fault ε) : Prog ι σ ε α → σ → Except ε α × σ
  | .done r, s => (r, s)
  | .atom l g k h, s =>
    match f l with
    | none => (k s).under f (g s)
    | some (e, late) => (h e).under f (if late then g s else s)

variable (f : ι → Fault ε)

@[simp] theorem under_pure (a : α) (s : σ) : (pure a : Prog ι σ ε α).under f s = (.ok a, s) := rfl

@[simp] theorem under_throw (e : ε) (s : σ) :
    (throw e : Prog ι σ ε α).under f s = (.error e, s) := rfl

theorem under_bind (p : Prog ι σ ε α) (q : α → Prog ι σ ε β) (s : σ) :
    (p >>= q).under f s =
      match p.under f s with
      | (.ok a, s') => (q a).under f s'
      | (.error e, s') => (.error e, s') := by
  change (p.bind q).under f s = _
  induction p generalizing s with
  | done r => cases r <;> rfl
  | atom l g k h ihk ihh =>
    simp only [Prog.bind, under]
    split
    · exact ihk s (g s)
    · exact ihh _ _

theorem under_tryCatch (p : Prog ι σ ε α) (c : ε → Prog ι σ ε α) (s : σ) :
    (MonadExcept.tryCatch p c).under f s =
      match p.under f s with
      | (.ok a, s') => (.ok a, s')
      | (.error e, s') => (c e).under f s' := by
  change (p.tryCatch c).under f s = _
  induction p generalizing s with
  | done r => cases r <;> rfl
  | atom l g k h ihk ihh =>
    simp only [Prog.tryCatch, under]
    split
    · exact ihk s (g s)
    · exact ihh _ _

theorem under_write (l : ι) (g : σ → σ) (s : σ) :
    (write l g : Prog ι σ ε Unit).under f s =
      match f l with
      | none => (.ok (), g s)
      | some (e, late) => (.error e, if late then g s else s) := by
  simp only [write, under]

theorem under_read (l : ι) (v : σ → α) (s : σ) :
    (read l v : Prog ι σ ε α).under f s =
      match f l with
      | none => (.ok (v s), s)
      | some (e, _) => (.error e, s) := by
  simp only [read, under, id, ite_self]

theorem under_atomic (l : ι) (v : σ → Except ε (α × σ)) (s : σ) :
    (atomic l v).under f s =
      match f l with
      | none =>
        match v s with
        | .ok (a, s') => (.ok a, s')
        | .error e => (.error e, s)
      | some (e, late) =>
        (.error e, if late then (match v s with | .ok (_, s') => s' | .error _ => s) else s) := by
  simp only [atomic, under]
  cases f l with
  | some x => rfl
  | none => cases v s <;> rfl

theorem under_tryFinally (p : Prog ι σ ε α) (c : Prog ι σ ε Unit) (s : σ) :
    (tryFinally p c).under f s =
      match p.under f s with
      | (r, s') =>
        match c.under f s' with
        | (.ok _, s'') => (r, s'')
        | (.error e, s'') => (.error e, s'') := by
  change ((MonadExcept.tryCatch p fun e => c >>= fun _ => Prog.done (.error e)) >>= fun a =>
    c >>= fun _ => Prog.done (.ok a) : Prog ι σ ε α).under f s = _
  rw [under_bind, under_tryCatch]
  rcases p.under f s with ⟨e | a, s'⟩
  · simp only [under_bind]
    rcases c.under f s' with ⟨e' | _, s''⟩ <;> rfl
  · simp only [under_bind]
    rcases c.under f s' with ⟨e' | _, s''⟩ <;> rfl

variable {f} {p : Prog ι σ ε α} {s t : σ}

theorem under_retry_ok {a : α} (h : p.under f s = (.ok a, t)) (n : Nat) :
    (retry n p).under f s = (.ok a, t) := by
  cases n with
  | zero => exact h
  | succ n =>
    change (MonadExcept.tryCatch p fun _ => retry n p).under f s = _
    rw [under_tryCatch, h]

/-- A body that raises, and whose effect does not change when it is repeated. -/
theorem under_retry_error {e : ε} (h : p.under f s = (.error e, t))
    (ht : p.under f t = (.error e, t)) (n : Nat) : (retry n p).under f s = (.error e, t) := by
  induction n generalizing s with
  | zero => exact h
  | succ n ih =>
    change (MonadExcept.tryCatch p fun _ => retry n p).under f s = _
    rw [under_tryCatch, h]
    exact ih ht

theorem under_retry_write (l : ι) (g : σ → σ) (n : Nat) : ∀ s : σ,
    (retry n (write l g) : Prog ι σ ε Unit).under f s =
      match f l with
      | none => (.ok (), g s)
      | some (e, late) => (.error e, if late then g^[n + 1] s else s) := by
  induction n with
  | zero => exact under_write f l g
  | succ n ih =>
    intro s
    change (MonadExcept.tryCatch (write l g) fun _ => retry n (write l g)).under f s = _
    rw [under_tryCatch, under_write]
    cases hl : f l with
    | none => rfl
    | some x =>
      obtain ⟨e, late⟩ := x
      simp only [ih, hl]
      cases late <;> rfl

/-- A write that may be repeated. -/
theorem under_retry_idem {l : ι} {g : σ → σ} (hg : ∀ s, g (g s) = g s) (n : Nat) (s : σ) :
    (retry n (write l g) : Prog ι σ ε Unit).under f s = (write l g).under f s := by
  rw [under_write]
  cases hl : f l with
  | none => exact under_retry_ok (by rw [under_write, hl]) n
  | some x =>
    obtain ⟨e, late⟩ := x
    refine under_retry_error (by rw [under_write, hl]) ?_ n
    rw [under_write, hl]
    cases late <;> simp [hg]

/-- What every step keeps is kept. -/
theorem Within.under {S : ι → (σ → σ) → Prop} (h : p.Within S) {R : σ → σ → Prop}
    (hrefl : ∀ s, R s s) (htrans : ∀ {s t u}, R s t → R t u → R s u)
    (hS : ∀ l g s, S l g → R s (g s)) : ∀ s, R s (p.under f s).2 := by
  induction p with
  | done r => exact hrefl
  | atom l g k c ihk ihc =>
    intro s
    simp only [Prog.under]
    split
    · exact htrans (hS l g s h.1) (ihk s (h.2.1 s) (g s))
    · rename_i e late _
      refine htrans ?_ (ihc e (h.2.2 e) _)
      split
      · exact hS l g s h.1
      · exact hrefl s

end Prog

end Interleave
end Geofastmap
