import Mathlib.Topology.Instances.Rat
import Mathlib.Topology.Order.DenselyOrdered
import Mathlib.Tactic.Linarith
import Mathlib.Tactic.NormNum
import Mathlib.Analysis.Normed.Field.Lemmas
import Mathlib.Order.CompletePartialOrder
import Geofastmap.Import.Parts

/-!
# Geofastmap.Import.Subdivide

What `subdivide_geometry_by_vertices` makes of a polygon, where geometries are sets of points with
rational coordinates and an intersection is exact or raises.

A cut can leave lines and points besides polygons, and these are kept. Where the intersection with
the second half raises, the whole geometry follows the pieces of the first half. Where neither
happens the pieces are the geometry, cut (`subdivided_iff`).
-/

namespace Geofastmap
namespace Import

open Bulk

section
variable {G K : Type} (S : Shapely G K)

/-- `Polygon` or `MultiPolygon`. -/
def isPolygonal (g : G) : Bool := S.kind g == .polygon || S.kind g == .multiPolygon

/-- The parts that a cell leaves to be cut further. -/
def cellParts (inter : G) : List G := if S.isEmpty inter then [] else cellPieces S inter

/-- The parts of the cells, up to the first one that raises. -/
def partsOfCells (geom : G) : List G → List G
  | [] => []
  | cell :: cells =>
    match S.intersection geom cell with
    | .error _ => []
    | .ok inter => cellParts S inter ++ partsOfCells geom cells

/-- `max_vertices`, or its default. -/
def mostVertices (maxVertices : Nat) : Nat := if maxVertices = 0 then 256 else maxVertices

variable [LE K] [DecidableLE K] [Add K] [Sub K] [Mul K] [OfNat K 0] [OfScientific K]

/-- A call for a part, from a call for the whole. -/
inductive Reaches (maxVertices : Nat) : Nat → G → Nat → G → Prop
  | refl (depth : Nat) (g : G) : Reaches maxVertices depth g depth g
  | part {depth depth' : Nat} {g p q : G}
      (hlarge : mostVertices maxVertices < coordCount S (depth + 1) g)
      (hp : p ∈ partsOfCells S g (halves S g)) (h : Reaches maxVertices depth p depth' q) :
      Reaches maxVertices (depth + 1) g depth' q

/-- The first half leaves a part, and the second one raises. -/
def RaisesLate (g : G) : Prop :=
  ∃ left right inter e, halves S g = [left, right] ∧ S.intersection g left = .ok inter ∧
    cellParts S inter ≠ [] ∧ S.intersection g right = .error e

/-! ## One call -/

/-- What one call returns for a geometry that is not empty. -/
inductive Outcome (maxVertices : Nat) (depth : Nat) (g : G) : List G → Prop
  | small (h : coordCount S depth g ≤ mostVertices maxVertices) : Outcome maxVertices depth g [g]
  | point (h : halves S g = []) : Outcome maxVertices depth g [g]
  | limit (h : depth = 0) : Outcome maxVertices depth g [g]
  | raises (cell : G) (e : Raised) (hcell : cell ∈ halves S g)
      (h : S.intersection g cell = .error e) (hparts : partsOfCells S g (halves S g) = []) :
      Outcome maxVertices depth g [g]
  | nothing (left right l r : G) (hhalves : halves S g = [left, right])
      (hleft : S.intersection g left = .ok l) (hright : S.intersection g right = .ok r)
      (hl : cellParts S l = []) (hr : cellParts S r = []) : Outcome maxVertices depth g [g]
  | late (rest : Nat) (left right l : G) (e : Raised) (hdepth : depth = rest + 1)
      (hlarge : mostVertices maxVertices < coordCount S depth g)
      (hhalves : halves S g = [left, right]) (hleft : S.intersection g left = .ok l)
      (hl : cellParts S l ≠ []) (hright : S.intersection g right = .error e) :
      Outcome maxVertices depth g
        ((cellParts S l).flatMap (subdivideGeometryByVertices S maxVertices rest) ++ [g])
  | cut (rest : Nat) (left right l r : G) (hdepth : depth = rest + 1)
      (hlarge : mostVertices maxVertices < coordCount S depth g)
      (hhalves : halves S g = [left, right]) (hleft : S.intersection g left = .ok l)
      (hright : S.intersection g right = .ok r) (hparts : cellParts S l ++ cellParts S r ≠ []) :
      Outcome maxVertices depth g
        ((cellParts S l ++ cellParts S r).flatMap (subdivideGeometryByVertices S maxVertices rest))

end

section
variable {G K : Type} {S : Shapely G K}

theorem cellParts_nonempty {inter p : G} (h : p ∈ cellParts S inter) : S.isEmpty p = false := by
  unfold cellParts cellPieces at h
  split at h
  · cases h
  · rename_i hinter
    split at h
    · exact mem_nonemptyGeoms h
    · rw [List.mem_singleton.mp h]
      simpa using hinter

/-- The parts that two cells leave are not empty. -/
theorem cutParts_nonempty {l r p : G} (h : p ∈ cellParts S l ++ cellParts S r) :
    S.isEmpty p = false := by
  rcases List.mem_append.mp h with h | h
  · exact cellParts_nonempty h
  · exact cellParts_nonempty h

/-- The first cell that leaves a part, where the limit of the recursion is reached. -/
theorem cutCells_none (geom : G) (cells : List G) :
    cutCells S none geom cells [] = [] ∨ cutCells S none geom cells [] = [geom] := by
  induction cells with
  | nil => exact Or.inl rfl
  | cons cell cells ih =>
    unfold cutCells
    split
    · exact Or.inr rfl
    · split
      · exact ih
      · split
        · exact ih
        · exact Or.inr rfl
        · rename_i hf _
          cases hf

/-- One cell, where calls for the parts return. -/
theorem cutCells_some (f : G → List G) (geom cell : G) (cells out : List G) :
    cutCells S (some f) geom (cell :: cells) out =
      match S.intersection geom cell with
      | .error _ => out ++ [geom]
      | .ok inter => cutCells S (some f) geom cells (out ++ (cellParts S inter).flatMap f) := by
  rw [cutCells]
  cases S.intersection geom cell with
  | error e => rfl
  | ok inter =>
    dsimp only
    unfold cellParts
    split
    · rw [List.flatMap_nil, List.append_nil]
    · cases cellPieces S inter with
      | nil => rw [List.flatMap_nil, List.append_nil]
      | cons p ps => rfl

variable [LE K] [DecidableLE K] [Add K] [Sub K] [Mul K] [OfNat K 0] [OfScientific K]

theorem halves_cases (S : Shapely G K) (g : G) :
    halves S g = [] ∨ ∃ left right, halves S g = [left, right] := by
  unfold halves
  dsimp only
  split
  · exact Or.inl rfl
  · split
    · exact Or.inr ⟨_, _, rfl⟩
    · exact Or.inr ⟨_, _, rfl⟩

theorem flatMap_subdivide_nil {maxVertices depth : Nat} {parts : List G}
    (hparts : ∀ p ∈ parts, S.isEmpty p = false) :
    parts.flatMap (subdivideGeometryByVertices S maxVertices depth) = [] ↔ parts = [] := by
  constructor
  · intro h
    cases parts with
    | nil => rfl
    | cons p ps =>
      have hp := List.flatMap_eq_nil_iff.mp h p List.mem_cons_self
      exact absurd hp (subdivide_nonempty maxVertices depth p (hparts p List.mem_cons_self)).1
  · rintro rfl
    rfl

theorem subdivide_outcome (maxVertices depth : Nat) {g : G} (hg : S.isEmpty g = false) :
    Outcome S maxVertices depth g (subdivideGeometryByVertices S maxVertices depth g) := by
  cases depth with
  | zero =>
    rw [subdivideGeometryByVertices, subdivideWith, if_neg (by simp [hg]), ← mostVertices]
    split
    · exact .limit rfl
    · rcases cutCells_none (S := S) g (halves S g) with h | h <;> rw [h] <;> exact .limit rfl
  | succ depth =>
    rw [subdivideGeometryByVertices, subdivideWith, if_neg (by simp [hg]), ← mostVertices]
    split
    · rename_i hsmall
      exact .small hsmall
    · rename_i hlarge
      have hlarge := Nat.lt_of_not_le hlarge
      rcases halves_cases S g with hnone | ⟨left, right, hhalves⟩
      · rw [hnone]
        exact .point hnone
      · rw [hhalves, cutCells_some]
        cases hleft : S.intersection g left with
        | error e =>
          exact .raises left e (by simp [hhalves]) hleft (by rw [hhalves, partsOfCells, hleft])
        | ok l =>
          dsimp only
          rw [cutCells_some, List.nil_append]
          cases hright : S.intersection g right with
          | error e =>
            dsimp only
            by_cases hl : cellParts S l = []
            · rw [hl]
              refine .raises right e (by simp [hhalves]) hright ?_
              simp only [hhalves, partsOfCells, hleft, hright, hl, List.append_nil]
            · have hlate := Outcome.late depth left right l e rfl hlarge
                hhalves hleft hl hright
              split
              · rename_i hnil
                simp at hnil
              · rename_i hcons
                rw [← hcons]
                exact hlate
          | ok r =>
            dsimp only [cutCells]
            rw [← List.flatMap_append]
            split
            · rename_i hnil
              rw [flatMap_subdivide_nil fun p => cutParts_nonempty, List.append_eq_nil_iff] at hnil
              exact .nothing left right l r hhalves hleft hright hnil.1 hnil.2
            · rename_i hcons
              rw [← hcons]
              refine .cut depth left right l r rfl hlarge hhalves hleft hright fun hnil => ?_
              rw [hnil] at hcons
              cases hcons

end

/-! ## Sets of points -/

section
variable {G : Type}

/-- The interiors of two geometries have no point in common. -/
def Apart (region : G → Set (ℚ × ℚ)) (p q : G) : Prop :=
  Disjoint (interior (region p)) (interior (region q))

/-- What is documented of Shapely, where an intersection that does not raise is exact: polygons have
an interior, lines and points have none, and the parts of a mixed intersection are apart. -/
structure ExactPlane (S : Shapely G ℚ) (region : G → Set (ℚ × ℚ)) : Prop where
  isEmpty : ∀ g, S.isEmpty g = true ↔ region g = ∅
  bounds : ∀ g, region g ⊆ Set.Icc ((S.bounds g).1, (S.bounds g).2.1) (S.bounds g).2.2
  box : ∀ a b c d, a ≤ c → b ≤ d → region (S.box a b c d) = Set.Icc (a, b) (c, d)
  intersection : ∀ g h k, S.intersection g h = .ok k → region k = region g ∩ region h
  parts : ∀ g h k, S.intersection g h = .ok k → S.kind k = .geometryCollection →
    region k = {x | ∃ p ∈ S.geoms k, x ∈ region p} ∧ (S.geoms k).Pairwise (Apart region) ∧
      ∀ p ∈ S.geoms k, S.kind p ≠ .geometryCollection
  polygonal_iff : ∀ g, S.isEmpty g = false → S.kind g ≠ .geometryCollection →
    (isPolygonal S g = true ↔ (interior (region g)).Nonempty)
  polygons : ∀ g, S.kind g = .multiPolygon → ∀ p ∈ S.geoms g, S.kind p = .polygon

/-- The pieces are polygons that are apart and make up the geometry, and a piece with more
coordinates than the limit is a point, or has a half with which the intersection raises, or is at
the limit of the recursion. -/
structure Subdivided (S : Shapely G ℚ) (region : G → Set (ℚ × ℚ)) (maxVertices depth : Nat) (g : G)
    (out : List G) : Prop where
  polygonal : ∀ p ∈ out, isPolygonal S p = true
  apart : out.Pairwise (Apart region)
  union : {x | ∃ p ∈ out, x ∈ region p} = region g
  small : ∀ p ∈ out, coordCount S 1 p ≤ maxVertices ∨ halves S p = [] ∨
    (∃ cell ∈ halves S p, ∃ e, S.intersection p cell = .error e) ∨
    Reaches S maxVertices depth g 0 p

/-- In each call the geometry is polygonal, and where it is cut the second half does not raise after
the first one has left a part. -/
def CutsCleanly (S : Shapely G ℚ) (maxVertices depth : Nat) (g : G) : Prop :=
  ∀ depth' p, Reaches S maxVertices depth g depth' p → isPolygonal S p = true ∧
    (0 < depth' → maxVertices < coordCount S depth' p → ¬ RaisesLate S p)

variable {S : Shapely G ℚ} {region : G → Set (ℚ × ℚ)} (h : ExactPlane S region)

theorem Apart.mono {p q p' q' : G} (h : Apart region p q) (hp : region p' ⊆ region p)
    (hq : region q' ⊆ region q) : Apart region p' q' :=
  Set.disjoint_of_subset (interior_mono hp) (interior_mono hq) h

theorem isPolygonal_ne_collection {g : G} (hg : isPolygonal S g = true) :
    S.kind g ≠ .geometryCollection := by
  intro heq
  simp [isPolygonal, heq] at hg

theorem Icc_apart (a m b : ℚ) :
    Disjoint (interior (Set.Icc a m)) (interior (Set.Icc m b)) := by
  rw [interior_Icc, interior_Icc, Set.disjoint_left]
  rintro x ⟨-, hx⟩ ⟨hx', -⟩
  exact lt_irrefl _ (hx.trans hx')

theorem prod_apart {s s' t t' : Set ℚ}
    (h : Disjoint (interior s) (interior s') ∨ Disjoint (interior t) (interior t')) :
    Disjoint (interior (s ×ˢ t)) (interior (s' ×ˢ t')) := by
  rw [interior_prod_eq, interior_prod_eq]
  exact Set.disjoint_prod.mpr h

include h

/-- The halves of the box of a geometry cover it, and are apart. -/
theorem halves_spec {g left right : G} (hg : S.isEmpty g = false)
    (hhalves : halves S g = [left, right]) :
    region g ⊆ region left ∪ region right ∧ Apart region left right := by
  obtain ⟨⟨x₀, y₀⟩, hx₀⟩ : (region g).Nonempty := by
    rw [Set.nonempty_iff_ne_empty, ne_eq, ← h.isEmpty]
    simp [hg]
  have hbounds := h.bounds g
  have hpoint := hbounds hx₀
  unfold halves at hhalves
  generalize S.bounds g = b at hhalves hbounds hpoint
  obtain ⟨minx, miny, maxx, maxy⟩ := b
  obtain ⟨⟨h1, h2⟩, h3, h4⟩ := hpoint
  dsimp only at hhalves hbounds h1 h2 h3 h4
  have hhalf : (0.5 : ℚ) = 1 / 2 := by norm_num
  rw [hhalf] at hhalves
  split at hhalves
  · cases hhalves
  · split at hhalves
    · cases hhalves
      rw [Apart, h.box _ _ _ _ (by linarith) (by linarith),
        h.box _ _ _ _ (by linarith) (by linarith)]
      simp only [← Set.Icc_prod_Icc] at hbounds ⊢
      have hcover := Set.Icc_union_Icc_eq_Icc (a := minx) (b := minx + (maxx - minx) * (1 / 2))
        (c := maxx) (by linarith) (by linarith)
      rw [← hcover, Set.union_prod] at hbounds
      exact ⟨hbounds, prod_apart (.inl (Icc_apart _ _ _))⟩
    · cases hhalves
      rw [Apart, h.box _ _ _ _ (by linarith) (by linarith),
        h.box _ _ _ _ (by linarith) (by linarith)]
      simp only [← Set.Icc_prod_Icc] at hbounds ⊢
      have hcover := Set.Icc_union_Icc_eq_Icc (a := miny) (b := miny + (maxy - miny) * (1 / 2))
        (c := maxy) (by linarith) (by linarith)
      rw [← hcover, Set.prod_union] at hbounds
      exact ⟨hbounds, prod_apart (.inr (Icc_apart _ _ _))⟩

/-- The parts that a cell leaves are what the geometry has in it. -/
theorem cellParts_spec {g cell inter : G} (hinter : S.intersection g cell = .ok inter) :
    {x | ∃ p ∈ cellParts S inter, x ∈ region p} = region g ∩ region cell ∧
      (cellParts S inter).Pairwise (Apart region) ∧
      ∀ p ∈ cellParts S inter, S.kind p ≠ .geometryCollection := by
  rw [← h.intersection g cell inter hinter]
  unfold cellParts
  split
  · rename_i hempty
    simp [(h.isEmpty inter).mp hempty]
  · unfold cellPieces
    split
    · rename_i hkind
      obtain ⟨hunion, hapart, hkinds⟩ := h.parts g cell inter hinter hkind
      refine ⟨?_, hapart.filter _, fun p hp => hkinds p (List.mem_filter.mp hp).1⟩
      -- empty parts have no points
      rw [hunion]
      ext x
      constructor
      · rintro ⟨p, hp, hx⟩
        exact ⟨p, (List.mem_filter.mp hp).1, hx⟩
      · rintro ⟨p, hp, hx⟩
        refine ⟨p, List.mem_filter.mpr ⟨hp, ?_⟩, hx⟩
        by_contra hempty
        rw [Bool.not_eq_true, Bool.not_eq_false', h.isEmpty] at hempty
        rw [hempty] at hx
        exact hx
    · rename_i hkind
      simpa using hkind

/-- The parts that both halves leave cover the geometry. -/
theorem halves_union {g left right l r : G} (hg : S.isEmpty g = false)
    (hhalves : halves S g = [left, right]) (hleft : S.intersection g left = .ok l)
    (hright : S.intersection g right = .ok r) :
    {x | ∃ p ∈ cellParts S l ++ cellParts S r, x ∈ region p} = region g := by
  have hsplit : {x | ∃ p ∈ cellParts S l ++ cellParts S r, x ∈ region p} =
      {x | ∃ p ∈ cellParts S l, x ∈ region p} ∪ {x | ∃ p ∈ cellParts S r, x ∈ region p} := by
    ext x
    simp only [List.mem_append, or_and_right, exists_or, Set.mem_ofPred_eq, Set.mem_union]
  rw [hsplit, (cellParts_spec h hleft).1, (cellParts_spec h hright).1,
    ← Set.inter_union_distrib_left]
  exact Set.inter_eq_left.mpr (halves_spec h hg hhalves).1

theorem cellParts_subset {g cell inter p : G} (hinter : S.intersection g cell = .ok inter)
    (hp : p ∈ cellParts S inter) : region p ⊆ region g ∩ region cell := by
  rw [← (cellParts_spec h hinter).1]
  exact fun x hx => ⟨p, hp, hx⟩

/-- A piece is a part of the geometry. -/
theorem subdivide_subset (maxVertices depth : Nat) {g : G} (hg : S.isEmpty g = false) :
    ∀ p ∈ subdivideGeometryByVertices S maxVertices depth g, region p ⊆ region g := by
  induction depth generalizing g with
  | zero =>
    have hout := subdivide_outcome (S := S) maxVertices 0 hg
    generalize subdivideGeometryByVertices S maxVertices 0 g = out at hout
    have hone : ∀ p ∈ [g], region p ⊆ region g := fun p hp => List.mem_singleton.mp hp ▸ subset_rfl
    cases hout with
    | late rest _ _ _ _ hdepth => cases hdepth
    | cut rest _ _ _ _ hdepth => cases hdepth
    | _ => exact hone
  | succ depth ih =>
    have hout := subdivide_outcome (S := S) maxVertices (depth + 1) hg
    generalize subdivideGeometryByVertices S maxVertices (depth + 1) g = out at hout
    have hone : ∀ p ∈ [g], region p ⊆ region g := fun p hp => List.mem_singleton.mp hp ▸ subset_rfl
    have hparts : ∀ {cell inter p q : G}, S.intersection g cell = .ok inter →
        p ∈ cellParts S inter → q ∈ subdivideGeometryByVertices S maxVertices depth p →
        region q ⊆ region g := by
      intro cell inter p q hinter hp hq
      exact (ih (cellParts_nonempty hp) q hq).trans
        ((cellParts_subset h hinter hp).trans Set.inter_subset_left)
    cases hout with
    | late rest left right l e hdepth hlarge hhalves hleft hl hright =>
      cases hdepth
      intro q hq
      rcases List.mem_append.mp hq with hq | hq
      · obtain ⟨p, hp, hq⟩ := List.mem_flatMap.mp hq
        exact hparts hleft hp hq
      · exact hone q hq
    | cut rest left right l r hdepth hlarge hhalves hleft hright hne =>
      cases hdepth
      intro q hq
      obtain ⟨p, hp, hq⟩ := List.mem_flatMap.mp hq
      rcases List.mem_append.mp hp with hp | hp
      · exact hparts hleft hp hq
      · exact hparts hright hp hq
    | _ => exact hone

/-- The pieces make up the geometry, whatever raises on the way. -/
theorem subdivide_union (maxVertices depth : Nat) {g : G} (hg : S.isEmpty g = false) :
    {x | ∃ p ∈ subdivideGeometryByVertices S maxVertices depth g, x ∈ region p} = region g := by
  refine Set.Subset.antisymm ?_ ?_
  · rintro x ⟨p, hp, hx⟩
    exact subdivide_subset h maxVertices depth hg p hp hx
  · induction depth generalizing g with
    | zero =>
      have hout := subdivide_outcome (S := S) maxVertices 0 hg
      generalize subdivideGeometryByVertices S maxVertices 0 g = out at hout
      cases hout with
      | late rest _ _ _ _ hdepth => cases hdepth
      | cut rest _ _ _ _ hdepth => cases hdepth
      | _ => exact fun x hx => ⟨g, List.mem_singleton.mpr rfl, hx⟩
    | succ depth ih =>
      have hout := subdivide_outcome (S := S) maxVertices (depth + 1) hg
      generalize subdivideGeometryByVertices S maxVertices (depth + 1) g = out at hout
      cases hout with
      | late rest left right l e hdepth hlarge hhalves hleft hl hright =>
        exact fun x hx => ⟨g, List.mem_append_right _ (List.mem_singleton.mpr rfl), hx⟩
      | cut rest left right l r hdepth hlarge hhalves hleft hright hne =>
        cases hdepth
        intro x hx
        rw [← halves_union h hg hhalves hleft hright] at hx
        obtain ⟨p, hp, hx⟩ := hx
        obtain ⟨q, hq, hx⟩ := ih (cutParts_nonempty hp) hx
        exact ⟨q, List.mem_flatMap.mpr ⟨p, hp, hq⟩, hx⟩
      | _ => exact fun x hx => ⟨g, List.mem_singleton.mpr rfl, hx⟩

/-- The number of coordinates of a polygon does not depend on the recursion. -/
theorem coordCount_polygonal (depth : Nat) {g : G} (hg : isPolygonal S g = true) :
    coordCount S (depth + 1) g = coordCount S 1 g := by
  have hpolygon : ∀ (d d' : Nat) {p : G}, S.kind p = .polygon →
      coordCount S d p = coordCount S d' p := by
    intro d d' p hp
    rw [coordCount.eq_def, coordCount.eq_def S d']
    dsimp only
    rw [hp]
  simp only [isPolygonal, Bool.or_eq_true, beq_iff_eq] at hg
  rcases hg with hkind | hkind
  · exact hpolygon _ _ hkind
  · have hsum : (S.geoms g).map (coordCount S depth) = (S.geoms g).map (coordCount S 0) :=
      List.map_congr_left fun p hp => hpolygon _ _ (h.polygons g hkind p hp)
    rw [coordCount.eq_def, coordCount.eq_def S 1]
    dsimp only
    rw [hkind]
    dsimp only
    rw [hsum]

/-! ## From clean cuts to pieces -/

section Pieces

variable {maxVertices : Nat} (hmax : 1 ≤ maxVertices)

omit h in
theorem CutsCleanly.part {depth : Nat} {g p : G} (hclean : CutsCleanly S maxVertices (depth + 1) g)
    (hlarge : mostVertices maxVertices < coordCount S (depth + 1) g)
    (hp : p ∈ partsOfCells S g (halves S g)) : CutsCleanly S maxVertices depth p :=
  fun depth' q hq => hclean depth' q (.part hlarge hp hq)

omit h in
/-- A geometry that is not cut. -/
theorem subdivided_whole {depth : Nat} {g : G} (hg : isPolygonal S g = true)
    (hsmall : coordCount S 1 g ≤ maxVertices ∨ halves S g = [] ∨
      (∃ cell ∈ halves S g, ∃ e, S.intersection g cell = .error e) ∨
      Reaches S maxVertices depth g 0 g) : Subdivided S region maxVertices depth g [g] where
  polygonal p hp := List.mem_singleton.mp hp ▸ hg
  apart := List.pairwise_singleton _ _
  union := by simp
  small p hp := List.mem_singleton.mp hp ▸ hsmall

omit h in
/-- The parts of both cells. -/
theorem mem_partsOfCells {g left right l r p : G} (hhalves : halves S g = [left, right])
    (hleft : S.intersection g left = .ok l) (hright : S.intersection g right = .ok r) :
    p ∈ partsOfCells S g (halves S g) ↔ p ∈ cellParts S l ++ cellParts S r := by
  simp only [hhalves, partsOfCells, hleft, hright, List.append_nil]

/-- The points of the pieces are those of the parts. -/
theorem pieces_union {depth : Nat} {parts : List G} (hne : ∀ p ∈ parts, S.isEmpty p = false)
    (hparts : ∀ p ∈ parts, Subdivided S region maxVertices depth p
      (subdivideGeometryByVertices S maxVertices depth p)) :
    {x | ∃ q ∈ parts.flatMap (subdivideGeometryByVertices S maxVertices depth), x ∈ region q} =
      {x | ∃ p ∈ parts, x ∈ region p} := by
  ext x
  constructor
  · rintro ⟨q, hq, hx⟩
    obtain ⟨p, hp, hq⟩ := List.mem_flatMap.mp hq
    exact ⟨p, hp, subdivide_subset h maxVertices depth (hne p hp) q hq hx⟩
  · rintro ⟨p, hp, hx⟩
    rw [← (hparts p hp).union] at hx
    obtain ⟨q, hq, hx⟩ := hx
    exact ⟨q, List.mem_flatMap.mpr ⟨p, hp, hq⟩, hx⟩

/-- The pieces of the parts are the pieces of the whole. -/
theorem subdivided_cut {depth : Nat} {g left right l r : G} (hg : S.isEmpty g = false)
    (hlarge : mostVertices maxVertices < coordCount S (depth + 1) g)
    (hhalves : halves S g = [left, right]) (hleft : S.intersection g left = .ok l)
    (hright : S.intersection g right = .ok r)
    (hparts : ∀ p ∈ cellParts S l ++ cellParts S r, Subdivided S region maxVertices depth p
      (subdivideGeometryByVertices S maxVertices depth p)) :
    Subdivided S region maxVertices (depth + 1) g
      ((cellParts S l ++ cellParts S r).flatMap
        (subdivideGeometryByVertices S maxVertices depth)) := by
  have hapart := (halves_spec h hg hhalves).2
  have hlapart := (cellParts_spec h hleft).2.1
  have hrapart := (cellParts_spec h hright).2.1
  have hbetween : (cellParts S l ++ cellParts S r).Pairwise (Apart region) := by
    rw [List.pairwise_append]
    refine ⟨hlapart, hrapart, fun p hp q hq => ?_⟩
    exact hapart.mono ((cellParts_subset h hleft hp).trans Set.inter_subset_right)
      ((cellParts_subset h hright hq).trans Set.inter_subset_right)
  have hne : ∀ p ∈ cellParts S l ++ cellParts S r, S.isEmpty p = false :=
    fun p hp => cutParts_nonempty hp
  constructor
  · intro q hq
    obtain ⟨p, hp, hq⟩ := List.mem_flatMap.mp hq
    exact (hparts p hp).polygonal q hq
  · rw [List.pairwise_flatMap]
    refine ⟨fun p hp => (hparts p hp).apart, hbetween.imp_of_mem fun {p q} hp hq hpq => ?_⟩
    intro x hx y hy
    exact hpq.mono (subdivide_subset h maxVertices depth (hne p hp) x hx)
      (subdivide_subset h maxVertices depth (hne q hq) y hy)
  · rw [pieces_union h hne hparts]
    exact halves_union h hg hhalves hleft hright
  · intro q hq
    obtain ⟨p, hp, hq⟩ := List.mem_flatMap.mp hq
    rcases (hparts p hp).small q hq with hsmall | hpoint | hraises | hlimit
    · exact Or.inl hsmall
    · exact Or.inr (Or.inl hpoint)
    · exact Or.inr (Or.inr (Or.inl hraises))
    · exact Or.inr (Or.inr (Or.inr
        (.part hlarge ((mem_partsOfCells hhalves hleft hright).mpr hp) hlimit)))

include hmax in
theorem subdivided_of_cutsCleanly (depth : Nat) {g : G} (hg : S.isEmpty g = false)
    (hclean : CutsCleanly S maxVertices depth g) :
    Subdivided S region maxVertices depth g
      (subdivideGeometryByVertices S maxVertices depth g) := by
  have hmost : mostVertices maxVertices = maxVertices := if_neg (by omega)
  induction depth generalizing g with
  | zero =>
    obtain ⟨hpolygonal, -⟩ := hclean 0 g (.refl 0 g)
    have hout := subdivide_outcome (S := S) maxVertices 0 hg
    generalize subdivideGeometryByVertices S maxVertices 0 g = out at hout
    have hlimit : Subdivided S region maxVertices 0 g [g] :=
      subdivided_whole hpolygonal (Or.inr (Or.inr (Or.inr (.refl 0 g))))
    cases hout with
    | late rest _ _ _ _ hdepth => cases hdepth
    | cut rest _ _ _ _ hdepth => cases hdepth
    | _ => exact hlimit
  | succ depth ih =>
    obtain ⟨hpolygonal, hlate⟩ := hclean (depth + 1) g (.refl (depth + 1) g)
    have hout := subdivide_outcome (S := S) maxVertices (depth + 1) hg
    generalize subdivideGeometryByVertices S maxVertices (depth + 1) g = out at hout
    cases hout with
    | small hsmall =>
      rw [hmost, coordCount_polygonal h depth hpolygonal] at hsmall
      exact subdivided_whole hpolygonal (Or.inl hsmall)
    | point hpoint => exact subdivided_whole hpolygonal (Or.inr (Or.inl hpoint))
    | limit hdepth => cases hdepth
    | raises cell e hcell hraises _ =>
      exact subdivided_whole hpolygonal (Or.inr (Or.inr (Or.inl ⟨cell, hcell, e, hraises⟩)))
    | nothing left right l r hhalves hleft hright hl hr =>
      -- the halves cover the geometry, so one of them leaves a part
      exfalso
      have hempty : region g = ∅ := by
        rw [← halves_union h hg hhalves hleft hright, hl, hr]
        simp
      rw [(h.isEmpty g).mpr hempty] at hg
      cases hg
    | late rest left right l e hdepth hlarge hhalves hleft hl hright =>
      rw [hmost] at hlarge
      exact absurd ⟨left, right, l, e, hhalves, hleft, hl, hright⟩
        (hlate (Nat.succ_pos depth) hlarge)
    | cut rest left right l r hdepth hlarge hhalves hleft hright hne =>
      cases hdepth
      refine subdivided_cut h hg hlarge hhalves hleft hright fun p hp => ?_
      exact ih (cutParts_nonempty hp)
        (hclean.part hlarge ((mem_partsOfCells hhalves hleft hright).mpr hp))

/-! ## From pieces to clean cuts -/

omit h in
/-- The part of a cut that a cell leaves is one that a call is made for. -/
theorem mem_partsOfCells_left {g left l p : G} {rest : List G} (hhalves : halves S g = left :: rest)
    (hleft : S.intersection g left = .ok l) (hp : p ∈ cellParts S l) :
    p ∈ partsOfCells S g (halves S g) := by
  simp only [hhalves, partsOfCells, hleft]
  exact List.mem_append_left _ hp

/-- A polygonal piece of a part makes the part polygonal. -/
theorem polygonal_of_piece {p q : G} (hp : S.isEmpty p = false)
    (hkind : S.kind p ≠ .geometryCollection) (hq : S.isEmpty q = false)
    (hpolygonal : isPolygonal S q = true) (hsub : region q ⊆ region p) :
    isPolygonal S p = true := by
  rw [h.polygonal_iff p hp hkind]
  exact ((h.polygonal_iff q hq (isPolygonal_ne_collection hpolygonal)).mp hpolygonal).mono
    (interior_mono hsub)

/-- A polygonal piece of a geometry is not apart from it. -/
theorem not_apart_of_piece {g q : G} (hq : S.isEmpty q = false)
    (hpolygonal : isPolygonal S q = true) (hsub : region q ⊆ region g) : ¬ Apart region q g := by
  intro hapart
  obtain ⟨x, hx⟩ := (h.polygonal_iff q hq (isPolygonal_ne_collection hpolygonal)).mp hpolygonal
  exact Set.disjoint_left.mp hapart hx (interior_mono hsub hx)

/-- The last piece is the whole geometry, and a piece of the first half is not apart from it. -/
theorem not_apart_late {maxVertices rest : Nat} {g cell l : G}
    (hinter : S.intersection g cell = .ok l) (hl : cellParts S l ≠ [])
    (hpolygonal : ∀ p ∈ (cellParts S l).flatMap (subdivideGeometryByVertices S maxVertices rest) ++
      [g], isPolygonal S p = true) :
    ¬ ((cellParts S l).flatMap (subdivideGeometryByVertices S maxVertices rest) ++
      [g]).Pairwise (Apart region) := by
  intro hapart
  obtain ⟨p, hp⟩ := List.exists_mem_of_ne_nil _ hl
  have hpempty := cellParts_nonempty hp
  obtain ⟨hne, hnonempty⟩ := subdivide_nonempty (S := S) maxVertices rest p hpempty
  obtain ⟨q, hq⟩ := List.exists_mem_of_ne_nil _ hne
  have hmem := List.mem_flatMap.mpr ⟨p, hp, hq⟩
  have hsub : region q ⊆ region g := (subdivide_subset h maxVertices rest hpempty q hq).trans
    ((cellParts_subset h hinter hp).trans Set.inter_subset_left)
  refine not_apart_of_piece h (hnonempty q hq) (hpolygonal q (List.mem_append_left _ hmem)) hsub ?_
  exact (List.pairwise_append.mp hapart).2.2 q hmem g (List.mem_singleton.mpr rfl)

include hmax in
theorem cutsCleanly_of_pieces (depth : Nat) {g : G} (hg : S.isEmpty g = false)
    (hpolygonal : isPolygonal S g = true)
    (hpieces : ∀ p ∈ subdivideGeometryByVertices S maxVertices depth g, isPolygonal S p = true)
    (hapart : (subdivideGeometryByVertices S maxVertices depth g).Pairwise (Apart region)) :
    CutsCleanly S maxVertices depth g := by
  have hmost : mostVertices maxVertices = maxVertices := if_neg (by omega)
  induction depth generalizing g with
  | zero =>
    intro depth' q hreach
    cases hreach with
    | refl => exact ⟨hpolygonal, fun hpos => absurd hpos (lt_irrefl 0)⟩
  | succ depth ih =>
    have hout := subdivide_outcome (S := S) maxVertices (depth + 1) hg
    generalize subdivideGeometryByVertices S maxVertices (depth + 1) g = out at hout hpieces hapart
    intro depth' q hreach
    cases hreach with
    | refl =>
      refine ⟨hpolygonal, fun _ hlarge ⟨left, right, l, e, hhalves, hleft, hl, hright⟩ => ?_⟩
      cases hout with
      | small hsmall =>
        rw [hmost] at hsmall
        omega
      | point hpoint =>
        rw [hpoint] at hhalves
        cases hhalves
      | limit hdepth => cases hdepth
      | raises cell e hcell _ hparts =>
        obtain ⟨p, hp⟩ := List.exists_mem_of_ne_nil _ hl
        have hmem := mem_partsOfCells_left hhalves hleft hp
        rw [hparts] at hmem
        cases hmem
      | nothing left' right' l' r' hhalves' hleft' hright' hl' hr' =>
        rw [hhalves'] at hhalves
        cases hhalves
        rw [hleft'] at hleft
        cases hleft
        exact hl hl'
      | late rest left' right' l' e' hdepth _ _ hleft' hl' _ =>
        exact not_apart_late h hleft' hl' hpieces hapart
      | cut rest left' right' l' r' hdepth _ hhalves' _ hright' _ =>
        rw [hhalves'] at hhalves
        cases hhalves
        rw [hright'] at hright
        cases hright
    | part hlarge hp hreach =>
      rename_i p
      cases hout with
      | small hsmall => omega
      | point hpoint =>
        rw [hpoint] at hp
        cases hp
      | limit hdepth => cases hdepth
      | raises cell e hcell _ hparts =>
        rw [hparts] at hp
        cases hp
      | nothing left right l r hhalves hleft hright hl hr =>
        rw [mem_partsOfCells hhalves hleft hright, hl, hr] at hp
        cases hp
      | late rest left right l e hdepth _ hhalves hleft hl hright =>
        exact absurd hapart (not_apart_late h hleft hl hpieces)
      | cut rest left right l r hdepth _ hhalves hleft hright _ =>
        cases hdepth
        rw [mem_partsOfCells hhalves hleft hright] at hp
        have hpempty : S.isEmpty p = false := cutParts_nonempty hp
        have hkind : S.kind p ≠ .geometryCollection := by
          rcases List.mem_append.mp hp with hp | hp
          · exact (cellParts_spec h hleft).2.2 p hp
          · exact (cellParts_spec h hright).2.2 p hp
        have hof : ∀ q ∈ subdivideGeometryByVertices S maxVertices depth p,
            isPolygonal S q = true := fun q hq => hpieces q (List.mem_flatMap.mpr ⟨p, hp, hq⟩)
        obtain ⟨hne, hnonempty⟩ := subdivide_nonempty (S := S) maxVertices depth p hpempty
        obtain ⟨first, hfirst⟩ := List.exists_mem_of_ne_nil _ hne
        have hppolygonal := polygonal_of_piece h hpempty hkind (hnonempty first hfirst)
          (hof first hfirst) (subdivide_subset h maxVertices depth hpempty first hfirst)
        exact ih hpempty hppolygonal hof ((List.pairwise_flatMap.mp hapart).1 p hp) depth' q hreach

include hmax in
theorem subdivided_iff (depth : Nat) {g : G} (hg : isPolygonal S g = true) :
    Subdivided S region maxVertices depth g (subdivideGeometryByVertices S maxVertices depth g) ↔
      CutsCleanly S maxVertices depth g := by
  cases hempty : S.isEmpty g with
  | false =>
    constructor
    · intro hsub
      exact cutsCleanly_of_pieces h hmax depth hempty hg hsub.polygonal hsub.apart
    · intro hclean
      exact subdivided_of_cutsCleanly h hmax depth hempty hclean
  | true =>
    -- an empty polygon has no pieces and is not cut
    have hnone : subdivideGeometryByVertices S maxVertices depth g = [] := by
      cases depth <;> rw [subdivideGeometryByVertices, subdivideWith, if_pos hempty]
    have hcount : ∀ d, coordCount S d g = 0 := fun d => by
      rw [coordCount.eq_def]
      exact if_pos hempty
    rw [hnone]
    constructor
    · intro _ depth' q hreach
      cases hreach with
      | refl => exact ⟨hg, fun _ hlarge => absurd hlarge (by simp [hcount])⟩
      | part hlarge => exact absurd hlarge (by simp [hcount])
    · intro _
      constructor
      · simp
      · exact List.Pairwise.nil
      · simp [(h.isEmpty g).mp hempty]
      · simp

end Pieces

end

/-! ## Rectangles -/

/-- A rectangle, a line or a point, with further coordinates on the ring; with corners the other way
round it is empty. -/
structure Rect where
  lo : ℚ × ℚ
  hi : ℚ × ℚ
  further : Nat
deriving DecidableEq

def Rect.region (r : Rect) : Set (ℚ × ℚ) := Set.Icc r.lo r.hi

/-- The intersection raises with some cells. -/
def rectangles (raises : Rect → Bool) : Shapely Rect ℚ where
  shape _ := .error ("TypeError".toList, [])
  kind r :=
    if r.lo.1 < r.hi.1 ∧ r.lo.2 < r.hi.2 then .polygon
    else if r.lo = r.hi then .point
    else .lineString
  isEmpty r := !decide (r.lo ≤ r.hi)
  isValid _ := true
  makeValid r := .ok (some r)
  geoms _ := []
  coords r := if r.lo = r.hi then 1 else 2
  exterior r := 5 + r.further
  interiors _ := []
  bounds r := (r.lo.1, r.lo.2, r.hi.1, r.hi.2)
  box minx miny maxx maxy := ⟨(minx, miny), (maxx, maxy), 0⟩
  intersection r cell :=
    if raises cell then .error ("GEOSException".toList, "TopologyException".toList)
    else .ok ⟨r.lo ⊔ cell.lo, r.hi ⊓ cell.hi, 0⟩
  wkbLength _ := 93
  wkt r := if r.lo ≤ r.hi then "POLYGON".toList else "POLYGON EMPTY".toList
  wkt_nonempty r hr := by
    have hle : r.lo ≤ r.hi := by simpa using hr
    rw [if_pos hle]
    decide

theorem rectangles_kind (raises : Rect → Bool) (r : Rect) :
    (rectangles raises).kind r ≠ .geometryCollection ∧
      (rectangles raises).kind r ≠ .multiPolygon := by
  dsimp only [rectangles]
  split
  · simp
  · split <;> simp

theorem rectangles_exact (raises : Rect → Bool) : ExactPlane (rectangles raises) Rect.region where
  isEmpty r := by
    rw [Rect.region, Set.Icc_eq_empty_iff]
    simp only [rectangles, Bool.not_eq_true', decide_eq_false_iff_not]
  bounds r := subset_rfl
  box _ _ _ _ _ _ := rfl
  intersection r cell k hk := by
    dsimp only [rectangles] at hk
    split at hk
    · cases hk
    · cases hk
      exact Set.Icc_inter_Icc.symm
  parts r cell k _ hkind := absurd hkind (rectangles_kind raises k).1
  polygonal_iff r hr hkind := by
    have hinterior : (interior r.region).Nonempty ↔ r.lo.1 < r.hi.1 ∧ r.lo.2 < r.hi.2 := by
      rw [Rect.region, ← Set.Icc_prod_Icc, interior_prod_eq, interior_Icc, interior_Icc,
        Set.prod_nonempty_iff, Set.nonempty_Ioo, Set.nonempty_Ioo]
    rw [hinterior]
    dsimp only [isPolygonal, rectangles]
    split
    · rename_i hlt
      simp [hlt]
    · rename_i hlt
      split <;> simp [hlt]
  polygons r hkind := absurd hkind (rectangles_kind raises r).2

/-- The unit square, with a coordinate more on its ring. -/
def sixCoords : Rect := ⟨(0, 0), (1, 1), 1⟩

def leftHalf : Rect := ⟨(0, 0), (1 / 2, 1), 0⟩
def rightHalf : Rect := ⟨(1 / 2, 0), (1, 1), 0⟩

theorem halves_sixCoords (raises : Rect → Bool) :
    halves (rectangles raises) sixCoords = [leftHalf, rightHalf] := by
  norm_num [halves, rectangles, sixCoords, leftHalf, rightHalf]

theorem intersection_sixCoords {raises : Rect → Bool} {cell : Rect} (hraises : raises cell = false)
    (hcell : cell ∈ [leftHalf, rightHalf]) :
    (rectangles raises).intersection sixCoords cell = .ok cell := by
  have hinter : (⟨sixCoords.lo ⊔ cell.lo, sixCoords.hi ⊓ cell.hi, 0⟩ : Rect) = cell := by
    simp only [List.mem_cons, List.not_mem_nil, or_false] at hcell
    rcases hcell with rfl | rfl <;> decide +kernel
  dsimp only [rectangles]
  rw [hraises, hinter, if_neg (by simp)]

/-- Where the intersection with the right half raises, the left half and the square are returned. -/
theorem half_kept : ¬ ∀ (G : Type) (S : Shapely G ℚ) (region : G → Set (ℚ × ℚ)),
    ExactPlane S region → ∀ maxVertices depth g, 1 ≤ maxVertices → isPolygonal S g = true →
      Subdivided S region maxVertices depth g
        (subdivideGeometryByVertices S maxVertices depth g) := by
  intro hall
  have hexact := rectangles_exact (· == rightHalf)
  have hsub := hall Rect _ Rect.region hexact 5 1000 sixCoords (by decide) (by decide +kernel)
  have hclean := cutsCleanly_of_pieces hexact (by decide) 1000 (by decide +kernel)
    (by decide +kernel) hsub.polygonal hsub.apart
  refine (hclean 1000 sixCoords (.refl _ _)).2 (by decide) (by decide +kernel) ?_
  exact ⟨leftHalf, rightHalf, leftHalf, _, halves_sixCoords _,
    intersection_sixCoords (by decide +kernel) (by simp), by decide +kernel, if_pos (by simp)⟩

/-- Without an exception the square is its two halves. -/
theorem sixCoords_halved : Subdivided (rectangles fun _ => false) Rect.region 5 1000 sixCoords
    (subdivideGeometryByVertices (rectangles fun _ => false) 5 1000 sixCoords) := by
  refine (subdivided_iff (rectangles_exact _) (by decide) 1000 (by decide +kernel)).mpr ?_
  have hinter : ∀ cell ∈ [leftHalf, rightHalf],
      (rectangles fun _ => false).intersection sixCoords cell = .ok cell :=
    fun cell hcell => intersection_sixCoords rfl hcell
  have hleft := hinter leftHalf (by simp)
  have hright := hinter rightHalf (by simp)
  intro depth' q hreach
  cases hreach with
  | refl =>
    refine ⟨by decide +kernel, fun _ _ ⟨left, right, inter, e, hhalves, _, _, hraises⟩ => ?_⟩
    rw [halves_sixCoords] at hhalves
    cases hhalves
    rw [hright] at hraises
    cases hraises
  | part hlarge hp hreach =>
    -- a half has five coordinates, and is not cut
    have hparts : cellParts (rectangles fun _ => false) leftHalf ++
        cellParts (rectangles fun _ => false) rightHalf = [leftHalf, rightHalf] := by decide +kernel
    rw [mem_partsOfCells (halves_sixCoords _) hleft hright, hparts] at hp
    have hhalf : ∀ p ∈ [leftHalf, rightHalf], isPolygonal (rectangles fun _ => false) p = true ∧
        coordCount (rectangles fun _ => false) 999 p = 5 := by decide +kernel
    cases hreach with
    | refl =>
      refine ⟨(hhalf _ hp).1, fun _ hlarge => ?_⟩
      rw [(hhalf _ hp).2] at hlarge
      exact absurd hlarge (lt_irrefl 5)
    | part hlarge =>
      rw [(hhalf _ hp).2] at hlarge
      exact absurd hlarge (lt_irrefl 5)

end Import
end Geofastmap
