import Mathlib.Data.List.Nodup
import Mathlib.Data.List.Perm.Basic

/-!
# Geofastmap.Stac.Keyed

Lists whose elements have keys. `keepFirst` keeps the first element with each key, as a loop with a
set of seen keys does; `setItems` keeps the last one, in the place of the first, as assignments to
a dictionary do.

Both keep one element for each key and nothing else (`Keeps`).
-/

namespace Geofastmap
namespace Keyed

variable {α κ : Type} (key : α → κ)

/-- `ys` has elements of `xs` only, and one with each of their keys. -/
structure Keeps (xs ys : List α) : Prop where
  subset : ∀ y ∈ ys, y ∈ xs
  keys : ∀ x ∈ xs, ∃ y ∈ ys, key y = key x

namespace Keeps

variable {key}

theorem refl (xs : List α) : Keeps key xs xs := ⟨fun _ h => h, fun x h => ⟨x, h, rfl⟩⟩

theorem trans {xs ys zs : List α} (h : Keeps key xs ys) (h' : Keeps key ys zs) :
    Keeps key xs zs := by
  constructor
  · intro z hz
    exact h.subset z (h'.subset z hz)
  · intro x hx
    obtain ⟨y, hy, hyx⟩ := h.keys x hx
    obtain ⟨z, hz, hzy⟩ := h'.keys y hy
    exact ⟨z, hz, hzy.trans hyx⟩

theorem append {xs ys xs' ys' : List α} (h : Keeps key xs ys) (h' : Keeps key xs' ys') :
    Keeps key (xs ++ xs') (ys ++ ys') := by
  constructor
  · intro y hy
    rw [List.mem_append] at hy ⊢
    exact hy.imp (h.subset y) (h'.subset y)
  · intro x hx
    rcases List.mem_append.mp hx with hx | hx
    · obtain ⟨y, hy, hyx⟩ := h.keys x hx
      exact ⟨y, List.mem_append_left _ hy, hyx⟩
    · obtain ⟨y, hy, hyx⟩ := h'.keys x hx
      exact ⟨y, List.mem_append_right _ hy, hyx⟩

theorem flatMap {β : Type} {f g : β → List α} (h : ∀ b, Keeps key (f b) (g b)) (bs : List β) :
    Keeps key (bs.flatMap f) (bs.flatMap g) := by
  induction bs with
  | nil => exact refl []
  | cons b bs ih =>
    rw [List.flatMap_cons, List.flatMap_cons]
    exact (h b).append ih

end Keeps

/-- What an association list made of the elements has for one of them. -/
theorem lookup_map_of_nodup [BEq κ] [LawfulBEq κ] {β : Type} {value : α → β} {xs : List α}
    (h : (xs.map key).Nodup) {x : α} (hx : x ∈ xs) :
    (xs.map fun y => (key y, value y)).lookup (key x) = some (value x) := by
  induction xs with
  | nil => cases hx
  | cons y ys ih =>
    obtain ⟨hfirst, hrest⟩ := List.nodup_cons.mp h
    rw [List.map_cons, List.lookup_cons]
    rcases List.mem_cons.mp hx with rfl | hx
    · simp
    · have hne : (key x == key y) = false := by
        rw [beq_eq_false_iff_ne]
        intro heq
        exact hfirst (heq ▸ List.mem_map_of_mem hx)
      simp [hne, ih hrest hx]

variable [DecidableEq κ]

/-! ## The first with each key -/

def keepFirst : List κ → List α → List α
  | _, [] => []
  | seen, x :: xs =>
    if key x ∈ seen then keepFirst seen xs else x :: keepFirst (key x :: seen) xs

theorem mem_keepFirst {seen : List κ} {xs : List α} {x : α} :
    x ∈ keepFirst key seen xs ↔ key x ∉ seen ∧ xs.find? (fun y => key y = key x) = some x := by
  induction xs generalizing seen with
  | nil => simp [keepFirst]
  | cons y ys ih =>
    rw [keepFirst, List.find?_cons]
    by_cases hyx : key y = key x
    · simp only [hyx, decide_true, Option.some.injEq]
      by_cases hseen : key x ∈ seen
      · rw [if_pos hseen, ih]
        constructor
        · intro h
          exact absurd hseen h.1
        · intro h
          exact absurd hseen h.1
      · rw [if_neg hseen, List.mem_cons, ih]
        constructor
        · rintro (rfl | h)
          · exact ⟨hseen, rfl⟩
          · exact absurd List.mem_cons_self h.1
        · intro h
          exact Or.inl h.2.symm
    · simp only [hyx, decide_false]
      by_cases hseen : key y ∈ seen
      · rw [if_pos hseen, ih]
      · rw [if_neg hseen, List.mem_cons, ih, List.mem_cons, not_or]
        constructor
        · rintro (rfl | h)
          · exact absurd rfl hyx
          · exact ⟨h.1.2, h.2⟩
        · intro h
          exact Or.inr ⟨⟨Ne.symm hyx, h.1⟩, h.2⟩

theorem keepFirst_nodup (seen : List κ) (xs : List α) : ((keepFirst key seen xs).map key).Nodup ∧
    ∀ x ∈ keepFirst key seen xs, key x ∉ seen := by
  refine ⟨?_, fun x hx => ((mem_keepFirst key).mp hx).1⟩
  induction xs generalizing seen with
  | nil => exact List.nodup_nil
  | cons x xs ih =>
    rw [keepFirst]
    split
    · exact ih seen
    · rw [List.map_cons, List.nodup_cons]
      refine ⟨fun hx => ?_, ih _⟩
      obtain ⟨y, hy, hyx⟩ := List.mem_map.mp hx
      exact ((mem_keepFirst key).mp hy).1 (hyx ▸ List.mem_cons_self)

theorem keepFirst_sublist (seen : List κ) (xs : List α) : (keepFirst key seen xs).Sublist xs := by
  induction xs generalizing seen with
  | nil => exact List.Sublist.slnil
  | cons x xs ih =>
    rw [keepFirst]
    split
    · exact (ih seen).cons x
    · exact (ih _).cons_cons x

/-- Elements with different keys are all kept. -/
theorem keepFirst_of_nodup {seen : List κ} {xs : List α} (h : (xs.map key).Nodup)
    (hseen : ∀ x ∈ xs, key x ∉ seen) : keepFirst key seen xs = xs := by
  induction xs generalizing seen with
  | nil => rfl
  | cons x xs ih =>
    obtain ⟨hnew, hrest⟩ := List.nodup_cons.mp h
    rw [keepFirst, if_neg (hseen x List.mem_cons_self), ih hrest]
    intro y hy hyseen
    rcases List.mem_cons.mp hyseen with heq | hyseen
    · exact hnew (heq ▸ List.mem_map_of_mem hy)
    · exact hseen y (List.mem_cons_of_mem x hy) hyseen

theorem keepFirst_keeps (xs : List α) : Keeps key xs (keepFirst key [] xs) := by
  constructor
  · intro y hy
    exact List.mem_of_find?_eq_some ((mem_keepFirst key).mp hy).2
  · intro x hx
    obtain ⟨y, hy⟩ : ∃ y, xs.find? (fun y => key y = key x) = some y := by
      rw [← Option.isSome_iff_exists, List.find?_isSome]
      exact ⟨x, hx, by simp⟩
    have hyx : key y = key x := by simpa using List.find?_some hy
    refine ⟨y, (mem_keepFirst key).mpr ⟨by simp, ?_⟩, hyx⟩
    rw [hyx]
    exact hy

/-! ## Assignments -/

/-- `items[key(x)] = x`. -/
def setItem (items : List α) (x : α) : List α :=
  if key x ∈ items.map key then items.map fun y => if key y = key x then x else y
  else items ++ [x]

def setItems (items xs : List α) : List α := xs.foldl (setItem key) items

theorem setItem_keeps (items : List α) (x : α) : Keeps key (items ++ [x]) (setItem key items x) := by
  unfold setItem
  split
  · rename_i hmem
    obtain ⟨y, hy, hyx⟩ := List.mem_map.mp hmem
    have hx : x ∈ items.map fun y => if key y = key x then x else y :=
      List.mem_map.mpr ⟨y, hy, by rw [if_pos hyx]⟩
    constructor
    · intro z hz
      obtain ⟨y, hy, rfl⟩ := List.mem_map.mp hz
      by_cases hyx : key y = key x
      · simp [hyx]
      · simp [hyx, hy]
    · intro z hz
      by_cases hzx : key z = key x
      · exact ⟨x, hx, hzx.symm⟩
      · have hmem : z ∈ items := by
          rcases List.mem_append.mp hz with h | h
          · exact h
          · exact absurd (congrArg key (List.mem_singleton.mp h)) hzx
        exact ⟨z, List.mem_map.mpr ⟨z, hmem, by rw [if_neg hzx]⟩, rfl⟩
  · exact Keeps.refl _

theorem mem_setItem {items : List α} {x y : α} :
    y ∈ setItem key items x ↔ y = x ∨ (y ∈ items ∧ key y ≠ key x) := by
  unfold setItem
  split
  · rename_i hmem
    obtain ⟨w, hw, hwx⟩ := List.mem_map.mp hmem
    constructor
    · intro hy
      obtain ⟨z, hz, rfl⟩ := List.mem_map.mp hy
      by_cases hzx : key z = key x
      · simp [hzx]
      · simp [hzx, hz]
    · rintro (rfl | ⟨hy, hyx⟩)
      · exact List.mem_map.mpr ⟨w, hw, if_pos hwx⟩
      · exact List.mem_map.mpr ⟨y, hy, if_neg hyx⟩
  · rename_i hnew
    rw [List.mem_append, List.mem_singleton]
    constructor
    · rintro (hy | rfl)
      · exact Or.inr ⟨hy, fun hyx => hnew (hyx ▸ List.mem_map_of_mem hy)⟩
      · exact Or.inl rfl
    · rintro (rfl | ⟨hy, -⟩)
      · exact Or.inr rfl
      · exact Or.inl hy

theorem setItems_keeps (items xs : List α) : Keeps key (items ++ xs) (setItems key items xs) := by
  induction xs generalizing items with
  | nil => simpa [setItems] using Keeps.refl items
  | cons x xs ih =>
    have hstep := (setItem_keeps key items x).append (Keeps.refl xs)
    rw [List.append_assoc, List.singleton_append] at hstep
    exact hstep.trans (ih (setItem key items x))

theorem setItem_nodup {items : List α} (h : (items.map key).Nodup) (x : α) :
    ((setItem key items x).map key).Nodup := by
  unfold setItem
  split
  · have hkeys : (items.map fun y => if key y = key x then x else y).map key = items.map key := by
      rw [List.map_map]
      refine List.map_congr_left fun y _ => ?_
      by_cases hyx : key y = key x
      · simp [hyx]
      · simp [hyx]
    rw [hkeys]
    exact h
  · rename_i hnew
    rw [List.map_append, List.map_singleton, ← List.concat_eq_append]
    exact List.Nodup.concat hnew h

theorem setItems_nodup {items : List α} (h : (items.map key).Nodup) (xs : List α) :
    ((setItems key items xs).map key).Nodup := by
  induction xs generalizing items with
  | nil => exact h
  | cons x xs ih => exact ih (setItem_nodup key h x)

/-- Assignments to different keys. -/
theorem setItems_of_nodup {items xs : List α} (h : ((items ++ xs).map key).Nodup) :
    setItems key items xs = items ++ xs := by
  induction xs generalizing items with
  | nil => simp [setItems]
  | cons x xs ih =>
    have hnew : key x ∉ items.map key := by
      rw [List.map_append, List.map_cons] at h
      intro hmem
      exact (List.nodup_append.mp h).2.2 _ hmem _ List.mem_cons_self rfl
    have hstep : setItem key items x = items ++ [x] := if_neg hnew
    rw [List.append_cons] at h ⊢
    rw [← ih h, ← hstep]
    rfl

/-! ## Names of elements -/

variable {key} {τ : Type} [DecidableEq τ] {name : α → τ} {nameKey : τ → κ}

/-- Every name occurs once among elements with different keys, if and only if no two names have
the same key. -/
theorem names_once_iff {xs ys : List α} {names : List τ} (hkey : ∀ x, key x = nameKey (name x))
    (hnames : ∀ t, t ∈ names ↔ ∃ x ∈ xs, name x = t) (hkeeps : Keeps key xs ys)
    (hnodup : (ys.map key).Nodup) :
    (∀ t ∈ names, (ys.filter fun y => name y = t).length = 1) ↔
      ∀ t ∈ names, ∀ t' ∈ names, nameKey t = nameKey t' → t = t' := by
  have hinj : ∀ y ∈ ys, ∀ y' ∈ ys, key y = key y' → y = y' :=
    fun y hy y' hy' => List.inj_on_of_nodup_map hnodup hy hy'
  constructor
  · intro h t ht t' ht' heq
    obtain ⟨y, hy⟩ := List.exists_mem_of_length_pos (show 0 < (ys.filter fun y => name y = t).length
      by rw [h t ht]; omega)
    obtain ⟨y', hy'⟩ := List.exists_mem_of_length_pos
      (show 0 < (ys.filter fun y => name y = t').length by rw [h t' ht']; omega)
    simp only [List.mem_filter, decide_eq_true_eq] at hy hy'
    have hsame : y = y' := hinj y hy.1 y' hy'.1 (by rw [hkey, hkey, hy.2, hy'.2, heq])
    rw [← hy.2, ← hy'.2, hsame]
  · intro h t ht
    obtain ⟨x, hx, rfl⟩ := (hnames t).mp ht
    obtain ⟨y, hy, hyx⟩ := hkeeps.keys x hx
    have hyname : name y = name x := by
      refine h _ ((hnames _).mpr ⟨y, hkeeps.subset y hy, rfl⟩) _ ht ?_
      rw [← hkey, ← hkey, hyx]
    have hfilter : (ys.filter fun z => name z = name x) = ys.filter fun z => key z = key y := by
      refine List.filter_congr fun z hz => ?_
      rw [decide_eq_decide]
      constructor
      · intro hzx
        rw [hkey, hkey, hzx, hyname]
      · intro hzy
        rw [hinj z hz y hy hzy, hyname]
    have hone : (ys.map key).count (key y) = 1 :=
      List.count_eq_one_of_mem hnodup (List.mem_map_of_mem hy)
    rw [hfilter, ← hone, List.count, List.countP_map, List.countP_eq_length_filter]
    rfl

end Keyed
end Geofastmap
