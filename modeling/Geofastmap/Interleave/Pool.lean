import Mathlib.Data.List.Basic
import Geofastmap.Interleave.Prog

/-!
# Geofastmap.Interleave.Pool

A pool of programs over one state, and its runs. A run is a list of choices: start a program,
let program `i` take its next step, let that step raise (before or after its effect), or stop
program `i` where it stands. `exec` replays a list of choices, so one bad run is a closed fact.

`exec_good` is the rule for all runs: when every program that may be started satisfies `wp`, the
invariant holds in every state of every run whose choices meet the assumptions, and every step
taken met its obligation.
-/

namespace Geofastmap
namespace Interleave

variable {ι σ ε κ : Type}

inductive Choice (κ ε : Type) where
  | spawn (a : κ)
  | step (i : Nat)
  | fault (i : Nat) (e : ε) (late : Bool)
  | crash (i : Nat)
deriving DecidableEq

structure Config (ι σ ε : Type) where
  st : σ
  pool : List (Prog ι σ ε Unit)
  /-- Labels of the steps taken, the last one first. -/
  trace : List ι

/-- The label of the next step of program `i`. -/
def Config.label (c : Config ι σ ε) (i : Nat) : Option ι :=
  match c.pool[i]? with
  | some (.atom l _ _ _) => some l
  | _ => none

def Config.act (entry : κ → Prog ι σ ε Unit) (c : Config ι σ ε) : Choice κ ε → Config ι σ ε
  | .spawn a => { c with pool := c.pool ++ [entry a] }
  | .step i =>
    match c.pool[i]? with
    | some (.atom l g k _) => ⟨g c.st, c.pool.set i (k c.st), l :: c.trace⟩
    | _ => c
  | .fault i e late =>
    match c.pool[i]? with
    | some (.atom l g _ h) =>
      if late then ⟨g c.st, c.pool.set i (h e), l :: c.trace⟩
      else { c with pool := c.pool.set i (h e) }
    | _ => c
  | .crash i => { c with pool := c.pool.eraseIdx i }

def Config.exec (entry : κ → Prog ι σ ε Unit) (c : Config ι σ ε) (cs : List (Choice κ ε)) :
    Config ι σ ε :=
  cs.foldl (Config.act entry) c

section Runs

variable (A : Assume ι σ ε) (starts : κ → σ → Prop) (entry : κ → Prog ι σ ε Unit)

/-- One choice meets the assumptions. -/
def MeetsOne (c : Config ι σ ε) : Choice κ ε → Prop
  | .spawn a => starts a c.st
  | .step i => ∀ l ∈ c.label i, A.may l c.st
  | .fault i e late => ∀ l ∈ c.label i, A.raises l late e ∧ (late = true → A.may l c.st)
  | .crash _ => True

/-- Every choice of a run meets the assumptions. -/
def Meets : Config ι σ ε → List (Choice κ ε) → Prop
  | _, [] => True
  | c, ch :: cs => MeetsOne A starts c ch ∧ Meets (c.act entry ch) cs

instance decidableMeetsOne [∀ l s, Decidable (A.may l s)] [∀ l b e, Decidable (A.raises l b e)]
    [∀ a s, Decidable (starts a s)] (c : Config ι σ ε) :
    ∀ ch : Choice κ ε, Decidable (MeetsOne A starts c ch)
  | .spawn a => inferInstanceAs (Decidable (starts a c.st))
  | .step i => inferInstanceAs (Decidable (∀ l ∈ c.label i, A.may l c.st))
  | .fault i e late =>
    inferInstanceAs (Decidable (∀ l ∈ c.label i, A.raises l late e ∧ (late = true → A.may l c.st)))
  | .crash _ => isTrue trivial

instance decidableMeets [∀ l s, Decidable (A.may l s)] [∀ l b e, Decidable (A.raises l b e)]
    [∀ a s, Decidable (starts a s)] :
    ∀ (cs : List (Choice κ ε)) (c : Config ι σ ε), Decidable (Meets A starts entry c cs)
  | [], _ => isTrue trivial
  | ch :: cs, c =>
    have := decidableMeets cs (c.act entry ch)
    inferInstanceAs (Decidable (MeetsOne A starts c ch ∧ Meets A starts entry (c.act entry ch) cs))

variable {A starts entry} {K : Guarantee ι σ}

/-- What holds of a configuration between two choices. -/
structure Config.Good (A : Assume ι σ ε) (K : Guarantee ι σ) (c : Config ι σ ε) : Prop where
  inv : K.inv c.st
  pool : ∀ p ∈ c.pool, p.wp A K (fun _ _ => True) c.st
  trace : ∀ l ∈ c.trace, ∃ s, K.inv s ∧ K.must l s

/-- After a move of the state along `rel`, the programs of the pool are as good as before, and
program `i` may be replaced by one that is good in the new state. -/
theorem pool_moved {c : Config ι σ ε} (hc : c.Good A K) {t : σ} (hrel : K.rely c.st t)
    (ht : K.inv t) {i : Nat} {q : Prog ι σ ε Unit} (hq : q.wp A K (fun _ _ => True) t) :
    ∀ p ∈ c.pool.set i q, p.wp A K (fun _ _ => True) t := by
  intro p hp
  rcases List.mem_or_eq_of_mem_set hp with hp | rfl
  · exact p.wp_stable (fun _ _ _ _ _ h => h) hrel ht (hc.pool p hp)
  · exact hq

theorem act_good (hK : ∀ s t, K.rel s t → K.rely s t)
    (hentry : ∀ a s, K.inv s → starts a s → (entry a).wp A K (fun _ _ => True) s)
    {c : Config ι σ ε} (hc : c.Good A K) {ch : Choice κ ε} (hm : MeetsOne A starts c ch) :
    (c.act entry ch).Good A K := by
  cases ch with
  | spawn a =>
    refine ⟨hc.inv, fun p hp => ?_, hc.trace⟩
    rcases List.mem_append.mp hp with hp | hp
    · exact hc.pool p hp
    · rw [List.mem_singleton.mp hp]; exact hentry a c.st hc.inv hm
  | step i =>
    simp only [Config.act, MeetsOne] at hm ⊢
    split
    · rename_i l g k h hi
      have hm := hm l (by simp [Config.label, hi])
      have hw := hc.pool _ (List.mem_of_getElem? hi) c.st (K.rely_refl _) hc.inv
      obtain ⟨h1, h2, h3, h4, _⟩ := hw.2 hm
      refine ⟨h2, pool_moved hc (hK _ _ h3) h2 h4, fun l' hl => ?_⟩
      rcases List.mem_cons.mp hl with rfl | hl
      · exact ⟨c.st, hc.inv, h1⟩
      · exact hc.trace l' hl
    · exact hc
  | fault i e late =>
    simp only [Config.act, MeetsOne] at hm ⊢
    split
    · rename_i l g k h hi
      have hm := hm l (by simp [Config.label, hi])
      have hw := hc.pool _ (List.mem_of_getElem? hi) c.st (K.rely_refl _) hc.inv
      cases late with
      | false => exact ⟨hc.inv, pool_moved hc (K.rely_refl _) hc.inv (hw.1 e hm.1), hc.trace⟩
      | true =>
        obtain ⟨h1, h2, h3, _, h5⟩ := hw.2 (hm.2 rfl)
        refine ⟨h2, pool_moved hc (hK _ _ h3) h2 (h5 e hm.1), fun l' hl => ?_⟩
        rcases List.mem_cons.mp hl with rfl | hl
        · exact ⟨c.st, hc.inv, h1⟩
        · exact hc.trace l' hl
    · exact hc
  | crash i => exact ⟨hc.inv, fun p hp => hc.pool p (List.mem_of_mem_eraseIdx hp), hc.trace⟩

/-- The rule for all runs. -/
theorem exec_good (hK : ∀ s t, K.rel s t → K.rely s t)
    (hentry : ∀ a s, K.inv s → starts a s → (entry a).wp A K (fun _ _ => True) s)
    (cs : List (Choice κ ε)) {c : Config ι σ ε} (hc : c.Good A K)
    (hm : Meets A starts entry c cs) : (c.exec entry cs).Good A K := by
  induction cs generalizing c with
  | nil => exact hc
  | cons ch cs ih => exact ih (act_good hK hentry hc hm.1) hm.2

end Runs

/-! ## Runs of which nothing is assumed -/

/-- Every step may be taken at any time, and may raise anything. -/
def anything : Assume ι σ ε := ⟨fun _ _ => True, fun _ _ _ => True⟩

theorem meets_anything (entry : κ → Prog ι σ ε Unit) (cs : List (Choice κ ε)) :
    ∀ c : Config ι σ ε, Meets anything (fun _ _ => True) entry c cs := by
  induction cs with
  | nil => exact fun _ => trivial
  | cons ch cs ih =>
    intro c
    refine ⟨?_, ih _⟩
    cases ch with
    | spawn a => trivial
    | step i => exact fun _ _ => trivial
    | fault i e late => exact fun _ _ => ⟨trivial, fun _ => trivial⟩
    | crash i => trivial

/-- What every program keeps holds in every state of every run. -/
theorem exec_keeps {K : Guarantee ι σ} (hK : ∀ s t, K.rel s t → K.rely s t)
    {entry : κ → Prog ι σ ε Unit} (hentry : ∀ a, Keeps anything K (entry a)) {s : σ}
    (hs : K.inv s) (cs : List (Choice κ ε)) :
    K.inv ((⟨s, [], []⟩ : Config ι σ ε).exec entry cs).st := by
  have hstart : (⟨s, [], []⟩ : Config ι σ ε).Good anything K :=
    ⟨hs, List.forall_mem_nil _, List.forall_mem_nil _⟩
  have hgood := exec_good hK (fun a t ht _ => hentry a t ht trivial) cs hstart
    (meets_anything entry cs _)
  exact hgood.inv

end Interleave
end Geofastmap
