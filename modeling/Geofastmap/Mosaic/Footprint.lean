import Mathlib.Data.Fintype.Prod
import Mathlib.Data.List.FinRange
import Mathlib.Data.List.ProdSigma
import Geofastmap.Graph.Search

/-!
# Geofastmap.Mosaic.Footprint

The masks of `mosaic_preview_footprint.py`: rows and columns of pixels, of which those with data are
true. Pixels side by side or one above the other are connected.

Both functions search the mask with a stack; `Graph.flood` and `Graph.scan` are these searches.
-/

namespace Geofastmap
namespace Mosaic

variable {h w : Nat}

/-- Row and column. -/
abbrev Pixel (h w : Nat) := Fin h × Fin w

abbrev Mask (h w : Nat) := Pixel h w → Bool

/-- `(i - 1, j), (i + 1, j), (i, j - 1), (i, j + 1)`, as far as they are in the mask. -/
def sides (p : Pixel h w) : List (Pixel h w) :=
  (if 0 < p.1.val then [(⟨p.1.val - 1, by omega⟩, p.2)] else []) ++
  (if hi : p.1.val + 1 < h then [(⟨p.1.val + 1, hi⟩, p.2)] else []) ++
  (if 0 < p.2.val then [(p.1, ⟨p.2.val - 1, by omega⟩)] else []) ++
  if hj : p.2.val + 1 < w then [(p.1, ⟨p.2.val + 1, hj⟩)] else []

/-- The false pixels of the border, in the order in which they are put on the stack. -/
def borderPixels (bg : Mask h w) (hh : 0 < h) (hw : 0 < w) : List (Pixel h w) :=
  ((List.finRange w).flatMap fun j =>
    [(⟨0, hh⟩, j), (⟨h - 1, by omega⟩, j)].filter bg) ++
  (List.finRange h).flatMap fun i =>
    [(i, ⟨0, hw⟩), (i, ⟨w - 1, by omega⟩)].filter bg

/-- `_binary_fill_holes`. -/
def binaryFillHoles (fg : Mask h w) : Mask h w :=
  if hsize : 0 < h ∧ 0 < w then
    let bg : Mask h w := fun p => !fg p
    let visited := Graph.flood bg sides ∅ (borderPixels bg hsize.1 hsize.2).reverse
    let holes : Mask h w := fun p => bg p && !decide (p ∈ visited)
    fun p => if holes p then true else fg p
  else fg

/-- All pixels, row by row. -/
def pixels (h w : Nat) : List (Pixel h w) := List.finRange h ×ˢ List.finRange w

/-- `_largest_connected_component`. -/
def largestConnectedComponent (fg : Mask h w) : Mask h w :=
  if ∃ p, fg p = true then
    match (Graph.scan fg sides (pixels h w)).best with
    | some best => fun p => decide (p ∈ best)
    | none => fg
  else fg

/-! ## Neighbours -/

/-- The pixels have a side in common. -/
def Adjacent (p q : Pixel h w) : Prop :=
  (p.1 = q.1 ∧ (p.2.val + 1 = q.2.val ∨ q.2.val + 1 = p.2.val)) ∨
    (p.2 = q.2 ∧ (p.1.val + 1 = q.1.val ∨ q.1.val + 1 = p.1.val))

theorem Adjacent.symm {p q : Pixel h w} (hadj : Adjacent p q) : Adjacent q p := by
  rcases hadj with ⟨heq, hside⟩ | ⟨heq, hside⟩
  · exact Or.inl ⟨heq.symm, hside.symm⟩
  · exact Or.inr ⟨heq.symm, hside.symm⟩

theorem mem_sides {p q : Pixel h w} : q ∈ sides p ↔ Adjacent p q := by
  obtain ⟨⟨i, hi⟩, ⟨j, hj⟩⟩ := p
  obtain ⟨⟨i', hi'⟩, ⟨j', hj'⟩⟩ := q
  unfold sides Adjacent
  simp only [List.mem_append, List.mem_ite_nil_right, List.mem_dite_nil_right, List.mem_singleton,
    Prod.mk.injEq, Fin.mk.injEq]
  constructor
  · rintro (((⟨h0, rfl, rfl⟩ | ⟨h0, rfl, rfl⟩) | ⟨h0, rfl, rfl⟩) | ⟨h0, rfl, rfl⟩) <;> omega
  · rintro (⟨rfl, hside | hside⟩ | ⟨rfl, hside | hside⟩)
    · exact Or.inr ⟨by omega, rfl, hside.symm⟩
    · exact Or.inl (Or.inr ⟨by omega, rfl, by omega⟩)
    · exact Or.inl (Or.inl (Or.inr ⟨by omega, hside.symm, rfl⟩))
    · exact Or.inl (Or.inl (Or.inl ⟨by omega, by omega, rfl⟩))

theorem sides_symm (p q : Pixel h w) (hq : q ∈ sides p) : p ∈ sides q :=
  mem_sides.mpr (mem_sides.mp hq).symm

theorem mem_pixels (p : Pixel h w) : p ∈ pixels h w :=
  List.mem_product.mpr ⟨List.mem_finRange p.1, List.mem_finRange p.2⟩

/-! ## Holes -/

def OnBorder (p : Pixel h w) : Prop :=
  p.1.val = 0 ∨ p.1.val + 1 = h ∨ p.2.val = 0 ∨ p.2.val + 1 = w

/-- A path of false pixels, from a false pixel. -/
def FalsePath (fg : Mask h w) : Pixel h w → Pixel h w → Prop :=
  Relation.ReflTransGen fun a b => Adjacent a b ∧ fg b = false

theorem mem_borderPixels {bg : Mask h w} {hh : 0 < h} {hw : 0 < w} {p : Pixel h w} :
    p ∈ borderPixels bg hh hw ↔ OnBorder p ∧ bg p = true := by
  obtain ⟨⟨i, hi⟩, ⟨j, hj⟩⟩ := p
  unfold borderPixels OnBorder
  simp only [List.mem_append, List.mem_flatMap, List.mem_finRange, true_and, List.mem_filter,
    List.mem_cons, List.not_mem_nil, or_false, Prod.mk.injEq, Fin.mk.injEq]
  constructor
  · rintro (⟨j', ⟨rfl, rfl⟩ | ⟨rfl, rfl⟩, hbg⟩ | ⟨i', ⟨rfl, rfl⟩ | ⟨rfl, rfl⟩, hbg⟩)
    · exact ⟨Or.inl rfl, hbg⟩
    · exact ⟨Or.inr (Or.inl (by omega)), hbg⟩
    · exact ⟨Or.inr (Or.inr (Or.inl rfl)), hbg⟩
    · exact ⟨Or.inr (Or.inr (Or.inr (by omega))), hbg⟩
  · rintro ⟨hrow | hrow | hcol | hcol, hbg⟩
    · exact Or.inl ⟨⟨j, hj⟩, Or.inl ⟨hrow, rfl⟩, hbg⟩
    · exact Or.inl ⟨⟨j, hj⟩, Or.inr ⟨by omega, rfl⟩, hbg⟩
    · exact Or.inr ⟨⟨i, hi⟩, Or.inl ⟨rfl, hcol⟩, hbg⟩
    · exact Or.inr ⟨⟨i, hi⟩, Or.inr ⟨rfl, by omega⟩, hbg⟩

theorem falsePath_iff {fg : Mask h w} {p q : Pixel h w} :
    FalsePath fg p q ↔ Graph.Reaches (fun p => !fg p) sides p q := by
  have hstep : (fun a b : Pixel h w => Adjacent a b ∧ fg b = false) =
      Graph.Step (fun p => !fg p) sides := by
    funext a b
    rw [Graph.Step, mem_sides, Bool.not_eq_true']
  rw [FalsePath, Graph.Reaches, hstep]

/-- A pixel of the result is one of the mask, or one from which no path of false pixels leads to the
border. -/
theorem fill_holes_exact (fg : Mask h w) (p : Pixel h w) :
    binaryFillHoles fg p = true ↔
      fg p = true ∨ (fg p = false ∧ ¬ ∃ b, OnBorder b ∧ fg b = false ∧ FalsePath fg p b) := by
  have hsize : 0 < h ∧ 0 < w := ⟨by have := p.1.isLt; omega, by have := p.2.isLt; omega⟩
  have hvisited : p ∈ Graph.flood (fun p => !fg p) sides ∅
      (borderPixels (fun p => !fg p) hsize.1 hsize.2).reverse ↔
        ∃ b, OnBorder b ∧ fg b = false ∧ FalsePath fg b p := by
    rw [Graph.mem_flood (by simp [Graph.Closed])]
    simp only [Finset.notMem_empty, false_or, List.mem_reverse, mem_borderPixels,
      Bool.not_eq_true', falsePath_iff]
    constructor
    · rintro ⟨b, ⟨hb, hbg⟩, -, hpath⟩
      exact ⟨b, hb, hbg, hpath⟩
    · rintro ⟨b, hb, hbg, hpath⟩
      exact ⟨b, ⟨hb, hbg⟩, hbg, hpath⟩
  unfold binaryFillHoles
  rw [dif_pos hsize]
  cases hfg : fg p with
  | true => simp [hfg]
  | false =>
    -- a path can be walked in the other direction
    have hturn : ∀ b, fg b = false → (FalsePath fg b p ↔ FalsePath fg p b) := by
      intro b hb
      rw [falsePath_iff, falsePath_iff]
      exact ⟨Graph.Reaches.symm sides_symm (by simp [hb]),
        Graph.Reaches.symm sides_symm (by simp [hfg])⟩
    have hiff : (∃ b, OnBorder b ∧ fg b = false ∧ FalsePath fg b p) ↔
        ∃ b, OnBorder b ∧ fg b = false ∧ FalsePath fg p b :=
      exists_congr fun b => and_congr_right fun _ => and_congr_right fun hb => hturn b hb
    rw [← hiff, ← hvisited]
    simp [hfg]

/-! ## The largest component -/

/-- The result is a component of the mask, and none has more pixels. -/
theorem largest_component_exact {fg : Mask h w} (hsome : ∃ p, fg p = true) :
    ∃ c : Finset (Pixel h w), (∀ p, largestConnectedComponent fg p = true ↔ p ∈ c) ∧
      Graph.IsComponent fg sides c ∧
      ∀ c', Graph.IsComponent fg sides c' → c'.card ≤ c.card := by
  obtain ⟨c, hbest, hcomp, hlargest⟩ := Graph.scan_spec sides_symm mem_pixels hsome
  refine ⟨c, fun p => ?_, hcomp, hlargest⟩
  unfold largestConnectedComponent
  rw [if_pos hsome, hbest]
  exact decide_eq_true_iff

/-- One pixel, and two pixels side by side. -/
def twoComponents : Mask 2 3 := fun p => p == (0, 0) || p == (1, 1) || p == (1, 2)

/-- Of two components the one with more pixels is left. -/
theorem largest_component_pair :
    ∃ c : Finset (Pixel 2 3), (∀ p, largestConnectedComponent twoComponents p = true ↔ p ∈ c) ∧
      Graph.IsComponent twoComponents sides c ∧ (0, 0) ∉ c ∧ {(1, 1), (1, 2)} ⊆ c := by
  obtain ⟨c, hc, hcomp, -⟩ := @largest_component_exact 2 3 twoComponents ⟨(0, 0), rfl⟩
  refine ⟨c, hc, hcomp, ?_, ?_⟩
  · rw [← hc]
    decide +kernel
  · intro p hp
    rw [← hc]
    revert p
    decide +kernel

end Mosaic
end Geofastmap
