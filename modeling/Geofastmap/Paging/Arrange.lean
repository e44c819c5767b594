import Mathlib.Data.List.Nodup
import Mathlib.Data.List.Sort
import Mathlib.Data.List.TakeWhile

/-!
# Geofastmap.Paging.Arrange

Windows of a list that is sorted by a preorder. `ORDER BY` leaves open how elements of one rank
are arranged, so a statement that is run once for each window may see another arrangement each
time.

- `window` is `LIMIT ... OFFSET ...`.
- `arrange le rank` is one admitted arrangement; `arrange_eq` says that each of them is reached.
- `windows_perm_iff` is the exact condition under which windows of independent arrangements are a
  partition: no boundary between two windows lies inside a class of equal rank.
-/

namespace Geofastmap
namespace Paging

variable {α : Type} {le : α → α → Bool} {xs l l' : List α} {L m : Nat}

/-- `LIMIT n OFFSET o`. -/
def window (o n : Nat) (l : List α) : List α := (l.drop o).take n

theorem take_add_window (o n : Nat) (l : List α) :
    l.take (o + n) = l.take o ++ window o n l := by
  simp [window, List.take_add]

/-- The first rows of the first rows are the first rows. -/
theorem window_take (o n : Nat) (l : List α) : window o n (l.take (n + o)) = window o n l := by
  simp [window, List.drop_take, List.take_take]

theorem window_sublist (o n : Nat) (l : List α) : (window o n l).Sublist l :=
  (List.take_sublist _ _).trans (List.drop_sublist _ _)

theorem window_of_length_le {o n : Nat} (h : l.length ≤ o) : window o n l = [] := by
  simp [window, List.drop_eq_nil_of_le h]

theorem length_window (o n : Nat) (l : List α) : (window o n l).length = min n (l.length - o) := by
  simp [window]

theorem getElem?_window {o n i : Nat} (h : i < n) : (window o n l)[i]? = l[o + i]? := by
  simp [window, h]

/-! ## Arrangements of one preorder -/

/-- The list is `xs`, sorted by `le`; equal ranks stand in any order. -/
def Arranged (le : α → α → Bool) (xs l : List α) : Prop :=
  l.Perm xs ∧ l.Pairwise fun a b => le a b = true

/-- The elements on both sides of position `m` have different ranks. -/
def SplitAt (le : α → α → Bool) (l : List α) (m : Nat) : Prop :=
  ∀ a b, l[m - 1]? = some a → l[m]? = some b → le b a = false

/-- A property that an element passes on to those before it holds of a first part of the list. -/
theorem filter_eq_take {p : α → Bool} (h : l.Pairwise fun a b => p b = true → p a = true) :
    l.filter p = l.take (l.filter p).length := by
  induction l with
  | nil => rfl
  | cons a l ih =>
    obtain ⟨ha, hl⟩ := List.pairwise_cons.mp h
    by_cases hp : p a = true
    · rw [List.filter_cons_of_pos hp, List.length_cons, List.take_succ_cons, ← ih hl]
    · have hnil : l.filter p = [] := by
        rw [List.filter_eq_nil_iff]
        intro b hb hpb
        exact hp (ha b hb hpb)
      rw [List.filter_cons_of_neg hp, hnil]
      rfl

variable (htrans : ∀ a b c : α, le a b = true → le b c = true → le a c = true)
  (htotal : ∀ a b : α, (le a b || le b a) = true)
include htrans htotal

/-- Where the ranks on both sides differ, the first part is what sorts before its right side. -/
theorem take_eq_filter {b : α} (hs : l.Pairwise fun a b => le a b = true) (hm : 0 < m)
    (hb : l[m]? = some b) (hsplit : SplitAt le l m) :
    l.take m = l.filter fun x => !le b x := by
  obtain ⟨hlt, hget⟩ := List.getElem?_eq_some_iff.mp hb
  have hdrop : l.drop m = b :: l.drop (m + 1) := by rw [List.drop_eq_getElem_cons hlt, hget]
  have hsorted := List.pairwise_iff_getElem.mp hs
  have hbefore : ∀ x ∈ l.take m, le b x = false := by
    intro x hx
    obtain ⟨i, hi, rfl⟩ := List.mem_iff_getElem.mp hx
    simp only [List.length_take] at hi
    rw [List.getElem_take]
    have hlast : le b l[m - 1] = false := hsplit _ b (List.getElem?_eq_getElem _) hb
    by_contra hle
    by_cases he : i = m - 1
    · subst he
      exact hle hlast
    · have hstep := hsorted i (m - 1) (by omega) (by omega) (by omega)
      have := htrans _ _ _ (by simpa using hle) hstep
      simp [hlast] at this
  have hafter : ∀ x ∈ l.drop m, le b x = true := by
    have hd : (b :: l.drop (m + 1)).Pairwise fun a b => le a b = true :=
      hdrop ▸ hs.sublist (List.drop_sublist m l)
    intro x hx
    rw [hdrop] at hx
    rcases List.mem_cons.mp hx with rfl | hx
    · simpa using htotal x x
    · exact (List.pairwise_cons.mp hd).1 x hx
  conv_rhs => rw [← List.take_append_drop m l, List.filter_append]
  rw [List.filter_eq_self.mpr (by simpa using hbefore),
    List.filter_eq_nil_iff.mpr (by simpa using hafter), List.append_nil]

/-- The first part does not depend on the arrangement. -/
theorem take_perm (hl : Arranged le xs l) (hl' : Arranged le xs l') (hm : 0 < m)
    (hlt : m < xs.length) (hsplit : SplitAt le l m) : (l.take m).Perm (l'.take m) := by
  have hml : m < l.length := by rw [hl.1.length_eq]; exact hlt
  obtain ⟨b, hb⟩ : ∃ b, l[m]? = some b := ⟨_, List.getElem?_eq_getElem hml⟩
  have hfilter := take_eq_filter htrans htotal hl.2 hm hb hsplit
  have hperm : (l.filter fun x => !le b x).Perm (l'.filter fun x => !le b x) :=
    (hl.1.trans hl'.1.symm).filter _
  have hprefix : l'.filter (fun x => !le b x) = l'.take (l'.filter fun x => !le b x).length := by
    refine filter_eq_take (hl'.2.imp ?_)
    intro x y hxy hy
    by_contra hx
    have := htrans b x y (by simpa using hx) hxy
    simp [this] at hy
  have hlen : (l'.filter fun x => !le b x).length = m := by
    rw [← hperm.length_eq, ← hfilter, List.length_take, Nat.min_eq_left hml.le]
  rw [hfilter]
  rw [hlen] at hprefix
  rwa [← hprefix]

/-- Windows between boundaries of different ranks do not depend on the arrangement. -/
theorem window_perm (hl : Arranged le xs l) (hl' : Arranged le xs l')
    (hsplit : ∀ k, 0 < k → k * L < xs.length → SplitAt le l (k * L)) (k : Nat) :
    (window (k * L) L l).Perm (window (k * L) L l') := by
  have htake : ∀ k, (l.take (k * L)).Perm (l'.take (k * L)) := by
    intro k
    by_cases hk : 0 < k * L ∧ k * L < xs.length
    · exact take_perm htrans htotal hl hl' hk.1 hk.2
        (hsplit k (Nat.pos_of_mul_pos_right hk.1) hk.2)
    · rcases Nat.eq_zero_or_pos (k * L) with hz | hp
      · simp [hz]
      · have hle : xs.length ≤ k * L := by omega
        rw [List.take_of_length_le (by rw [hl.1.length_eq]; exact hle),
          List.take_of_length_le (by rw [hl'.1.length_eq]; exact hle)]
        exact hl.1.trans hl'.1.symm
  have hnext := htake (k + 1)
  rw [Nat.succ_mul, take_add_window, take_add_window] at hnext
  exact (List.perm_append_left_iff _).mp (hnext.trans ((htake k).symm.append_right _))

/-- Windows of independent arrangements, one after the other. -/
theorem windows_perm (hl : Arranged le xs l) (ls : Nat → List α) (hls : ∀ k, Arranged le xs (ls k))
    (hsplit : ∀ k, 0 < k → k * L < xs.length → SplitAt le l (k * L)) (n : Nat) :
    ((List.range n).flatMap fun k => window (k * L) L (ls k)).Perm (l.take (n * L)) := by
  induction n with
  | zero => simp
  | succ n ih =>
    rw [List.range_succ, List.flatMap_append, Nat.succ_mul, take_add_window]
    simp only [List.flatMap_cons, List.flatMap_nil, List.append_nil]
    exact ih.append (window_perm htrans htotal hl (hls n) hsplit n).symm

omit htrans htotal in
/-- Two neighbours of one rank may change places. -/
theorem arranged_swap {p s : List α} {a b : α} (h : Arranged le xs (p ++ a :: b :: s))
    (hba : le b a = true) : Arranged le xs (p ++ b :: a :: s) := by
  refine ⟨((List.Perm.swap a b s).append_left p).trans h.1, ?_⟩
  have hs := h.2
  simp only [List.pairwise_append, List.pairwise_cons, List.mem_cons, forall_eq_or_imp] at hs ⊢
  grind

omit htrans htotal in
/-- Where a boundary lies inside a rank, the element before it can stand in both windows. -/
theorem windows_repeat {k : Nat} {a b : α} (hl : Arranged le xs l) (hk : 0 < k) (hL : 0 < L)
    (ha : l[k * L - 1]? = some a) (hb : l[k * L]? = some b) (hba : le b a = true) :
    ∃ l', Arranged le xs l' ∧ a ∈ window ((k - 1) * L) L l ∧ a ∈ window (k * L) L l' := by
  have hm : 0 < k * L := Nat.mul_pos hk hL
  obtain ⟨hlt, hgetb⟩ := List.getElem?_eq_some_iff.mp hb
  obtain ⟨hlt', hgeta⟩ := List.getElem?_eq_some_iff.mp ha
  have hcut : l = l.take (k * L - 1) ++ a :: b :: l.drop (k * L + 1) := by
    conv_lhs => rw [← List.take_append_drop (k * L - 1) l, List.drop_eq_getElem_cons hlt', hgeta,
      Nat.sub_add_cancel hm, List.drop_eq_getElem_cons hlt, hgetb]
  have hlen : (l.take (k * L - 1)).length = k * L - 1 := by simp; omega
  refine ⟨_, arranged_swap (hcut ▸ hl) hba, ?_, ?_⟩
  · refine List.mem_of_getElem? (i := L - 1) ?_
    rw [getElem?_window (by omega), ← ha]
    congr 1
    rw [Nat.sub_mul, Nat.one_mul]
    have : L ≤ k * L := Nat.le_mul_of_pos_left L hk
    omega
  · refine List.mem_of_getElem? (i := 0) ?_
    have hone : k * L + 0 - (k * L - 1) = 1 := by omega
    rw [getElem?_window hL, List.getElem?_append_right (by omega), hlen, hone]
    rfl

/-- The exact condition under which the windows of independent arrangements hold every element
once: ranks differ across each boundary. -/
theorem windows_perm_iff (hnd : xs.Nodup) (hL : 0 < L) (hl : Arranged le xs l) :
    (∀ ls : Nat → List α, (∀ k, Arranged le xs (ls k)) → ∀ n, xs.length ≤ n * L →
        ((List.range n).flatMap fun k => window (k * L) L (ls k)).Perm xs) ↔
      ∀ k, 0 < k → k * L < xs.length → SplitAt le l (k * L) := by
  constructor
  · intro h k hk hlt a b ha hb
    by_contra hba
    obtain ⟨l', hl', hin, hin'⟩ := windows_repeat hl hk hL ha hb (by simpa using hba)
    have hkn : k < xs.length := lt_of_le_of_lt (Nat.le_mul_of_pos_right k hL) hlt
    have hall := h (fun j => if j = k then l' else l) (by intro j; split <;> assumption)
      xs.length (Nat.le_mul_of_pos_right _ hL)
    have hdisj := (List.nodup_flatMap.mp (hall.nodup_iff.mpr hnd)).2
    have hpair := List.pairwise_iff_getElem.mp hdisj (k - 1) k (by simp; omega) (by simpa using hkn)
      (by omega)
    rw [Function.onFun_apply, List.getElem_range, List.getElem_range] at hpair
    simp only [if_neg (show k - 1 ≠ k by omega), if_pos] at hpair
    exact hpair hin hin'
  · intro hsplit ls hls n hn
    refine (windows_perm htrans htotal hl ls hls hsplit n).trans ?_
    rw [List.take_of_length_le (by rw [hl.1.length_eq]; exact hn)]
    exact hl.1

/-! ## One arrangement -/

omit htrans htotal in
/-- By `le`, and among equal ranks by `rank`. -/
def ranked (le : α → α → Bool) (rank : α → Nat) (a b : α) : Bool :=
  le a b && (!le b a || decide (rank a ≤ rank b))

omit htrans htotal in
def arrange (le : α → α → Bool) (rank : α → Nat) (xs : List α) : List α :=
  xs.mergeSort (ranked le rank)

omit htrans htotal in
theorem ranked_iff {rank : α → Nat} {a b : α} :
    ranked le rank a b = true ↔ le a b = true ∧ (le b a = true → rank a ≤ rank b) := by
  cases h : le b a <;> simp [ranked, h]

omit htotal in
theorem ranked_trans (rank : α → Nat) (a b c : α) (hab : ranked le rank a b = true)
    (hbc : ranked le rank b c = true) : ranked le rank a c = true := by
  rw [ranked_iff] at hab hbc ⊢
  refine ⟨htrans a b c hab.1 hbc.1, fun hca => ?_⟩
  have h1 := hab.2 (htrans b c a hbc.1 hca)
  have h2 := hbc.2 (htrans c a b hca hab.1)
  omega

omit htrans in
theorem ranked_total (rank : α → Nat) (a b : α) :
    (ranked le rank a b || ranked le rank b a) = true := by
  rw [Bool.or_eq_true, ranked_iff, ranked_iff]
  have h : le a b = true ∨ le b a = true := by simpa using htotal a b
  by_cases hr : rank a ≤ rank b
  · grind
  · have hr' : rank b ≤ rank a := by omega
    grind

theorem arrange_pairwise (rank : α → Nat) (xs : List α) :
    (arrange le rank xs).Pairwise fun a b => ranked le rank a b = true :=
  List.pairwise_mergeSort (ranked_trans htrans rank) (ranked_total htotal rank) xs

theorem arrange_arranged (rank : α → Nat) (xs : List α) : Arranged le xs (arrange le rank xs) :=
  ⟨List.mergeSort_perm _ _,
    (arrange_pairwise htrans htotal rank xs).imp fun h => (ranked_iff.mp h).1⟩

/-- Every arrangement is that of the ranks that grow along it. -/
theorem arrange_eq {rank : α → Nat} (hl : Arranged le xs l)
    (hrank : l.Pairwise fun a b => rank a < rank b) : arrange le rank xs = l := by
  have harr := arrange_pairwise htrans htotal rank xs
  have hown : l.Pairwise fun a b => ranked le rank a b = true :=
    hl.2.imp₂ (fun a b hle hlt => ranked_iff.mpr ⟨hle, fun _ => hlt.le⟩) hrank
  have hperm : (arrange le rank xs).Perm l := (List.mergeSort_perm _ _).trans hl.1.symm
  refine List.Perm.eq_of_pairwise ?_ harr hown hperm
  intro a b ha hb hab hba
  have h1 := (ranked_iff.mp hab).2 (ranked_iff.mp hba).1
  have h2 := (ranked_iff.mp hba).2 (ranked_iff.mp hab).1
  obtain ⟨i, hi, rfl⟩ := List.mem_iff_getElem.mp (hperm.mem_iff.mp ha)
  obtain ⟨j, hj, rfl⟩ := List.mem_iff_getElem.mp hb
  have hlt := List.pairwise_iff_getElem.mp hrank
  rcases Nat.lt_trichotomy i j with h | rfl | h
  · have := hlt i j hi hj h
    omega
  · rfl
  · have := hlt j i hj hi h
    omega

/-! ## No order at all -/

omit htrans htotal

theorem arrange_perm (rank : α → Nat) (xs : List α) : (arrange le rank xs).Perm xs :=
  List.mergeSort_perm _ _

/-- No element is before another. -/
def unordered (_ _ : α) : Bool := true

/-- A statement without an order may leave any one element out of its first rows. -/
theorem exists_rank_notMem_take [DecidableEq α] (hnd : xs.Nodup) (hm : m < xs.length) (x : α) :
    ∃ rank, x ∉ (arrange unordered rank xs).take m := by
  let rank : α → Nat := fun a => if a = x then 1 else 0
  refine ⟨rank, fun hx => ?_⟩
  have hperm : (arrange unordered rank xs).Perm xs := arrange_perm rank xs
  have hndl := hperm.nodup_iff.mpr hnd
  have hpair : (arrange unordered rank xs).Pairwise fun a b => ranked unordered rank a b = true :=
    arrange_pairwise (fun _ _ _ _ _ => rfl) (fun _ _ => rfl) rank xs
  have hsorted := List.pairwise_iff_getElem.mp hpair
  generalize arrange unordered rank xs = l at *
  have hlen : m < l.length := by rw [hperm.length_eq]; exact hm
  obtain ⟨i, hi, he⟩ := List.mem_iff_getElem.mp hx
  rw [List.getElem_take] at he
  have him : i < m := by simp at hi; omega
  have hle := (ranked_iff.mp (hsorted i m (by omega) hlen him)).2 rfl
  have hlast : l[m] = x := by
    by_contra hne
    simp [rank, he, hne] at hle
  exact absurd (hlast.trans he.symm) (List.pairwise_iff_getElem.mp hndl i m (by omega) hlen him).symm

end Paging
end Geofastmap
