import Mathlib.Data.List.Basic
import Mathlib.Data.List.Sort

/-!
# Geofastmap.Paging.Keyset

Keyset pagination: a statement returns the first rows after the last row seen, and is run again
until it returns none.

`drain` is the loop, with a bound on the number of statements; `drain_sorted` says that over rows
in strictly increasing order the loop ends and its batches are these rows.
-/

namespace Geofastmap
namespace Paging

variable {α ε : Type}

/-- How a generator ends: it is exhausted, a statement raises, or the bound is reached. -/
inductive Ending (ε : Type) where
  | done
  | raised (e : ε)
  | running
deriving DecidableEq, Repr

/-- The batches of the loop; `fetch k last` is its statement number `k`. -/
def drain (fetch : Nat → Option α → Except ε (List α)) :
    Nat → Nat → Option α → List (List α) × Ending ε
  | 0, _, _ => ([], .running)
  | fuel + 1, k, last =>
    match fetch k last with
    | .error e => ([], .raised e)
    | .ok [] => ([], .done)
    | .ok (x :: xs) =>
      let (rest, ending) := drain fetch fuel (k + 1) (x :: xs).getLast?
      ((x :: xs) :: rest, ending)

variable {lt : α → α → Bool} {s seen todo : List α} {n : Nat}

/-- A list in strictly increasing order is determined by its elements. -/
theorem eq_of_sorted {l l' : List α} (hirr : ∀ a, lt a a = false)
    (htrans : ∀ a b c, lt a b = true → lt b c = true → lt a c = true)
    (hl : l.Pairwise fun a b => lt a b = true) (hl' : l'.Pairwise fun a b => lt a b = true)
    (hperm : l.Perm l') : l = l' := by
  refine List.Perm.eq_of_pairwise ?_ hl hl' hperm
  intro a b _ _ hab hba
  have := htrans a b a hab hba
  simp [hirr] at this

/-- What follows the last row seen. -/
def after (lt : α → α → Bool) (last : Option α) (s : List α) : List α :=
  match last with
  | none => s
  | some c => s.filter (lt c)

theorem after_getLast? (hirr : ∀ a, lt a a = false)
    (htrans : ∀ a b c, lt a b = true → lt b c = true → lt a c = true)
    (hs : (seen ++ todo).Pairwise fun a b => lt a b = true) :
    after lt seen.getLast? (seen ++ todo) = todo := by
  rcases List.eq_nil_or_concat seen with rfl | ⟨init, c, rfl⟩
  · rfl
  · rw [List.concat_eq_append] at hs ⊢
    obtain ⟨h1, -, h3⟩ := List.pairwise_append.mp hs
    have hbefore : (init ++ [c]).filter (lt c) = [] := by
      rw [List.filter_eq_nil_iff]
      intro a ha hca
      rcases List.mem_append.mp ha with ha | ha
      · have := htrans _ _ _ hca ((List.pairwise_append.mp h1).2.2 a ha c (by simp))
        simp [hirr] at this
      · obtain rfl : a = c := by simpa using ha
        simp [hirr] at hca
    have hrest : todo.filter (lt c) = todo := by
      rw [List.filter_eq_self]
      intro b hb
      exact h3 c (by simp) b hb
    rw [List.getLast?_concat]
    simp only [after, List.filter_append, hrest]
    rw [← List.filter_append, hbefore, List.nil_append]

/-- From any point of the loop on, the batches are the rows still to come. -/
theorem drain_todo (hirr : ∀ a, lt a a = false)
    (htrans : ∀ a b c, lt a b = true → lt b c = true → lt a c = true)
    (hs : s.Pairwise fun a b => lt a b = true) (hn : 0 < n)
    (fetch : Nat → Option α → Except ε (List α))
    (hfetch : ∀ k last, (∀ c ∈ last, c ∈ s) → fetch k last = .ok ((after lt last s).take n))
    (fuel k : Nat) (seen todo : List α) (hcut : s = seen ++ todo) (hfuel : todo.length < fuel) :
    ∃ batches, drain fetch fuel k seen.getLast? = (batches, .done) ∧ batches.flatten = todo := by
  induction fuel generalizing k seen todo with
  | zero => omega
  | succ fuel ih =>
    have hlast : ∀ c ∈ seen.getLast?, c ∈ s := by
      intro c hc
      rw [hcut]
      exact List.mem_append_left _ (List.mem_of_getLast? hc)
    have hget : fetch k seen.getLast? = .ok (todo.take n) := by
      rw [hfetch k _ hlast, hcut, after_getLast? hirr htrans (hcut ▸ hs)]
    cases todo with
    | nil => exact ⟨[], by simp [drain, hget], rfl⟩
    | cons x xs =>
      obtain ⟨n, rfl⟩ := Nat.exists_eq_add_of_lt hn
      simp only [Nat.zero_add, List.take_succ_cons] at hget
      have hcut' : s = (seen ++ x :: xs.take n) ++ xs.drop n := by
        rw [hcut, List.append_assoc, List.cons_append, List.take_append_drop]
      have hlen : (xs.drop n).length < fuel := by
        simp only [List.length_cons] at hfuel
        simp only [List.length_drop]
        omega
      obtain ⟨batches, hb, hflat⟩ := ih (k + 1) _ _ hcut' hlen
      rw [List.getLast?_append_of_ne_nil _ (by simp)] at hb
      refine ⟨(x :: xs.take n) :: batches, ?_, ?_⟩
      · simp only [drain, hget, hb]
      · simp [hflat]

/-- Over rows in strictly increasing order the loop ends with every row. -/
theorem drain_sorted (hirr : ∀ a, lt a a = false)
    (htrans : ∀ a b c, lt a b = true → lt b c = true → lt a c = true)
    (hs : s.Pairwise fun a b => lt a b = true) (hn : 0 < n)
    (fetch : Nat → Option α → Except ε (List α))
    (hfetch : ∀ k last, (∀ c ∈ last, c ∈ s) → fetch k last = .ok ((after lt last s).take n))
    {fuel : Nat} (hfuel : s.length < fuel) :
    ∃ batches, drain fetch fuel 0 none = (batches, .done) ∧ batches.flatten = s :=
  drain_todo hirr htrans hs hn fetch hfetch fuel 0 [] s rfl hfuel

end Paging
end Geofastmap
