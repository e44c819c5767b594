import Mathlib.Algebra.Order.Field.Basic
import Mathlib.Tactic.Linarith
import Mathlib.Tactic.NormNum
import Geofastmap.Mosaic.Waves

/-!
# Geofastmap.Mosaic.Grid

The grid of the first search: `split_initial_search_bboxes`. Coordinates are rational numbers.

The boxes of the grid are rounded to six digits, and a box that is empty then is dropped. Where the
search box itself is not empty after rounding, what is left is the rounded search box, cut along the
grid. A box that is thinner than that is lost (`split_covers_iff`).
-/

namespace Geofastmap
namespace Mosaic

/-! ## Cuts of a range -/

/-- A sequence that goes up somewhere passes each value between its ends while it goes up. -/
theorem exists_step {α : Type*} [LinearOrder α] (f : Nat → α) {x : α} {n : Nat} (hlo : f 0 ≤ x)
    (hhi : x ≤ f n) (hlt : f 0 < f n) : ∃ i < n, f i < f (i + 1) ∧ f i ≤ x ∧ x ≤ f (i + 1) := by
  induction n with
  | zero => exact absurd hlt (lt_irrefl _)
  | succ n ih =>
    by_cases hx : x ≤ f n
    · by_cases hup : f 0 < f n
      · obtain ⟨i, hi, hstep⟩ := ih hx hup
        exact ⟨i, by omega, hstep⟩
      · -- the sequence is at `x` and has not gone up
        have hn : f n ≤ f 0 := not_lt.mp hup
        exact ⟨n, by omega, lt_of_le_of_lt hn hlt, hn.trans hlo, hhi⟩
    · have hn : f n < x := not_le.mp hx
      exact ⟨n, by omega, lt_of_lt_of_le hn hhi, le_of_lt hn, hhi⟩

/-- Two steps of a monotone sequence have no value in common. -/
theorem step_unique {α : Type*} [LinearOrder α] {f : Nat → α} (hf : Monotone f) {i j : Nat} {x : α}
    (hi : f i < x ∧ x < f (i + 1)) (hj : f j < x ∧ x < f (j + 1)) : i = j := by
  by_contra hne
  rcases Nat.lt_or_gt_of_ne hne with hlt | hlt
  · exact absurd (hf hlt) (not_le.mpr (hj.1.trans hi.2))
  · exact absurd (hf hlt) (not_le.mpr (hi.1.trans hj.2))

/-- `lo + i * ((hi - lo) / n)`. -/
def line (lo hi : Rat) (n i : Nat) : Rat := lo + i * ((hi - lo) / n)

section
variable {lo hi : Rat} {n : Nat}

theorem line_zero : line lo hi n 0 = lo := by simp [line]

theorem line_self (hn : 0 < n) : line lo hi n n = hi := by
  have hn : (n : Rat) ≠ 0 := by exact_mod_cast hn.ne'
  rw [line, mul_div_cancel₀ _ hn]
  ring

theorem line_succ (i : Nat) : line lo hi n (i + 1) = line lo hi n i + (hi - lo) / n := by
  simp only [line, Nat.cast_add, Nat.cast_one]
  ring

theorem line_mono (h : lo ≤ hi) : Monotone (line lo hi n) := by
  refine monotone_nat_of_le_succ fun i => ?_
  rw [line_succ]
  have : 0 ≤ (hi - lo) / n := div_nonneg (by linarith) (by positivity)
  linarith

end

/-! ## Rounding -/

/-- The distance of a rounded number from the number. -/
def half (digits : Nat) : Rat := 1 / 2 / 10 ^ digits

theorem roundTo_spec (digits : Nat) (x : Rat) :
    ∃ n : Int, roundTo digits x = n / 10 ^ digits ∧ |(n : Rat) - x * 10 ^ digits| ≤ 1 / 2 := by
  have hfloor := Rat.floor_le (x * 10 ^ digits)
  have hceil := Rat.lt_floor_add_one (x * 10 ^ digits)
  push_cast at hceil
  refine ⟨_, rfl, ?_⟩
  rw [abs_le]
  split
  · rename_i hup
    push_cast
    rcases hup with hup | ⟨hup, -⟩ <;> constructor <;> linarith
  · rename_i hdown
    obtain ⟨hle, -⟩ := not_or.mp hdown
    constructor <;> linarith

theorem roundTo_near (digits : Nat) (x : Rat) : |roundTo digits x - x| ≤ half digits := by
  obtain ⟨n, hround, hnear⟩ := roundTo_spec digits x
  have hpos : (0 : Rat) < 10 ^ digits := by positivity
  have hscale : roundTo digits x - x = (n - x * 10 ^ digits) / 10 ^ digits := by
    rw [hround, sub_div, mul_div_cancel_right₀ _ hpos.ne']
  rw [hscale, abs_div, abs_of_pos hpos, half]
  gcongr

theorem roundTo_mono (digits : Nat) : Monotone (roundTo digits) := by
  intro x y hxy
  obtain ⟨m, hm, hmx⟩ := roundTo_spec digits x
  obtain ⟨n, hn, hny⟩ := roundTo_spec digits y
  have hpos : (0 : Rat) < 10 ^ digits := by positivity
  rcases hxy.eq_or_lt with rfl | hlt
  · exact le_refl _
  · have hscaled := mul_lt_mul_of_pos_right hlt hpos
    rw [abs_le] at hmx hny
    -- the two integers are less than one apart in the wrong direction
    have hint : m ≤ n := by
      have : (m : Rat) < ((n + 1 : Int) : Rat) := by
        push_cast
        linarith
      have := Int.cast_lt.mp this
      omega
    rw [hm, hn]
    gcongr

/-- Rounded numbers that differ differ by one in the last digit at least. -/
theorem roundTo_gap {digits : Nat} {x y : Rat} (h : roundTo digits x < roundTo digits y) :
    roundTo digits x + 1 / 10 ^ digits ≤ roundTo digits y := by
  obtain ⟨m, hm, -⟩ := roundTo_spec digits x
  obtain ⟨n, hn, -⟩ := roundTo_spec digits y
  have hpos : (0 : Rat) < 10 ^ digits := by positivity
  rw [hm, hn] at h ⊢
  have hint : (m : Rat) < n := (div_lt_div_iff_of_pos_right hpos).mp h
  have hint : m + 1 ≤ n := by exact_mod_cast hint
  have hint : (m : Rat) + 1 ≤ n := by exact_mod_cast hint
  rw [← add_div]
  gcongr

theorem roundTo_lt_iff {x y : Rat} : roundTo 6 x < roundTo 6 y - nano ↔ roundTo 6 x < roundTo 6 y := by
  have hnano : 0 < nano ∧ nano < 1 / 10 ^ 6 := by norm_num [nano]
  constructor
  · intro h
    linarith [hnano.1]
  · intro h
    linarith [roundTo_gap h, hnano.2]

/-! ## Boxes as sets of points -/

namespace Bbox

instance : Membership (Rat × Rat) Bbox where
  mem bb p := bb.minx ≤ p.1 ∧ p.1 ≤ bb.maxx ∧ bb.miny ≤ p.2 ∧ p.2 ≤ bb.maxy

theorem mem_def {bb : Bbox} {p : Rat × Rat} :
    p ∈ bb ↔ bb.minx ≤ p.1 ∧ p.1 ≤ bb.maxx ∧ bb.miny ≤ p.2 ∧ p.2 ≤ bb.maxy := Iff.rfl

def Interior (bb : Bbox) (p : Rat × Rat) : Prop :=
  bb.minx < p.1 ∧ p.1 < bb.maxx ∧ bb.miny < p.2 ∧ p.2 < bb.maxy

def Boundary (bb : Bbox) (p : Rat × Rat) : Prop := p ∈ bb ∧ ¬ bb.Interior p

/-- No point is inside both. -/
def Apart (s t : Bbox) : Prop := ∀ p, ¬ (s.Interior p ∧ t.Interior p)

/-- Both coordinates are at most `e` from those of a point of the boundary. -/
def Near (e : Rat) (bb : Bbox) (p : Rat × Rat) : Prop :=
  ∃ q, bb.Boundary q ∧ |p.1 - q.1| ≤ e ∧ |p.2 - q.2| ≤ e

/-- The boundary is met on the way along one axis, at most `e` from the point. -/
def Beside (e : Rat) (bb : Bbox) (p : Rat × Rat) : Prop :=
  ∃ q, bb.Boundary q ∧ ((|p.1 - q.1| ≤ e ∧ p.2 = q.2) ∨ (p.1 = q.1 ∧ |p.2 - q.2| ≤ e))

end Bbox

/-- A point of a box that is not in another one, whose sides are not much further inside. -/
theorem Bbox.beside_of_outside {s t : Bbox} {e : Rat} (hminx : t.minx - e ≤ s.minx)
    (hmaxx : s.maxx ≤ t.maxx + e) (hminy : t.miny - e ≤ s.miny) (hmaxy : s.maxy ≤ t.maxy + e)
    {p : Rat × Rat} (hp : p ∈ s) (hout : p ∉ t) : s.Beside e p := by
  obtain ⟨h1, h2, h3, h4⟩ := hp
  by_cases hleft : p.1 < t.minx
  · refine ⟨(s.minx, p.2), ⟨⟨le_refl _, h1.trans h2, h3, h4⟩, fun h => lt_irrefl _ h.1⟩, Or.inl ?_⟩
    exact ⟨by rw [abs_le]; constructor <;> linarith, rfl⟩
  by_cases hright : t.maxx < p.1
  · refine ⟨(s.maxx, p.2), ⟨⟨h1.trans h2, le_refl _, h3, h4⟩, fun h => lt_irrefl _ h.2.1⟩,
      Or.inl ?_⟩
    exact ⟨by rw [abs_le]; constructor <;> linarith, rfl⟩
  by_cases hbelow : p.2 < t.miny
  · refine ⟨(p.1, s.miny), ⟨⟨h1, h2, le_refl _, h3.trans h4⟩, fun h => lt_irrefl _ h.2.2.1⟩,
      Or.inr ?_⟩
    exact ⟨rfl, by rw [abs_le]; constructor <;> linarith⟩
  by_cases habove : t.maxy < p.2
  · refine ⟨(p.1, s.maxy), ⟨⟨h1, h2, h3.trans h4, le_refl _⟩, fun h => lt_irrefl _ h.2.2.2⟩,
      Or.inr ?_⟩
    exact ⟨rfl, by rw [abs_le]; constructor <;> linarith⟩
  · exact absurd ⟨not_lt.mp hleft, not_lt.mp hright, not_lt.mp hbelow, not_lt.mp habove⟩ hout

/-- The point of a range that is nearest to a number. -/
def clamp (lo hi x : Rat) : Rat := max lo (min x hi)

theorem clamp_cases {lo hi : Rat} (hle : lo ≤ hi) (x : Rat) :
    (x < lo ∧ clamp lo hi x = lo) ∨ (hi < x ∧ clamp lo hi x = hi) ∨
      (lo ≤ x ∧ x ≤ hi ∧ clamp lo hi x = x) := by
  unfold clamp
  by_cases hlo : x < lo
  · exact Or.inl ⟨hlo, max_eq_left ((min_le_left x hi).trans (le_of_lt hlo))⟩
  · by_cases hhi : hi < x
    · exact Or.inr (Or.inl ⟨hhi, by rw [min_eq_right (le_of_lt hhi), max_eq_right hle]⟩)
    · have hlo := not_lt.mp hlo
      have hhi := not_lt.mp hhi
      exact Or.inr (Or.inr ⟨hlo, hhi, by rw [min_eq_left hhi, max_eq_right hlo]⟩)

theorem clamp_near {lo hi lo' hi' x e : Rat} (hle : lo ≤ hi) (hlo : |lo' - lo| ≤ e)
    (hhi : |hi' - hi| ≤ e) (hx : lo' ≤ x) (hx' : x ≤ hi') : |x - clamp lo hi x| ≤ e := by
  have hpos : 0 ≤ e := (abs_nonneg _).trans hlo
  rw [abs_le] at hlo hhi ⊢
  rcases clamp_cases hle x with ⟨h, hclamp⟩ | ⟨h, hclamp⟩ | ⟨h, h', hclamp⟩ <;>
    rw [hclamp] <;> constructor <;> linarith

theorem clamp_mem {lo hi : Rat} (hle : lo ≤ hi) (x : Rat) :
    lo ≤ clamp lo hi x ∧ clamp lo hi x ≤ hi := by
  rcases clamp_cases hle x with ⟨-, hclamp⟩ | ⟨-, hclamp⟩ | ⟨h, h', hclamp⟩ <;> rw [hclamp]
  · exact ⟨le_refl _, hle⟩
  · exact ⟨hle, le_refl _⟩
  · exact ⟨h, h'⟩

/-- A number between the ends of a range is not clamped to them. -/
theorem clamp_inside {lo hi x : Rat} (hle : lo ≤ hi) (hlo : lo < clamp lo hi x)
    (hhi : clamp lo hi x < hi) : lo ≤ x ∧ x ≤ hi := by
  rcases clamp_cases hle x with ⟨-, hclamp⟩ | ⟨-, hclamp⟩ | ⟨h, h', -⟩
  · exact absurd (hclamp ▸ hlo) (lt_irrefl _)
  · exact absurd (hclamp ▸ hhi) (lt_irrefl _)
  · exact ⟨h, h'⟩

/-! ## The grid -/

/-- `gx` of a width, `gy` of a height. -/
def gridSize (s : Settings) (side : Rat) : Nat :=
  if s.initialSplitGrid > 1 then min 10 s.initialSplitGrid.toNat
  else min 10 (max 2 (side / s.splitThreshold).ceil.toNat)

def gridX (s : Settings) (bb : Bbox) : Nat := gridSize s (bb.maxx - bb.minx)

def gridY (s : Settings) (bb : Bbox) : Nat := gridSize s (bb.maxy - bb.miny)

/-- A box of the grid. -/
def cell (s : Settings) (bb : Bbox) (iy ix : Nat) : Bbox where
  minx := line bb.minx bb.maxx (gridX s bb) ix
  miny := line bb.miny bb.maxy (gridY s bb) iy
  maxx := line bb.minx bb.maxx (gridX s bb) (ix + 1)
  maxy := line bb.miny bb.maxy (gridY s bb) (iy + 1)

def gridCells (s : Settings) (bb : Bbox) : List Bbox :=
  (List.range (gridY s bb)).flatMap fun iy => (List.range (gridX s bb)).map (cell s bb iy)

/-- A box that one search takes. -/
def Single (s : Settings) (bb : Bbox) : Prop :=
  bb.maxx - bb.minx ≤ s.splitThreshold ∧ bb.maxy - bb.miny ≤ s.splitThreshold

instance (s : Settings) (bb : Bbox) : Decidable (Single s bb) :=
  inferInstanceAs (Decidable (_ ∧ _))

/-- The cells of a search box, before they are rounded. -/
def searchCells (s : Settings) (bb : Bbox) : List Bbox :=
  if Single s bb then [bb] else gridCells s bb

theorem gridSize_bounds (s : Settings) (side : Rat) : 1 < gridSize s side ∧ gridSize s side ≤ 10 := by
  unfold gridSize
  split <;> omega

theorem gridX_pos {s : Settings} {bb : Bbox} : 0 < gridX s bb :=
  Nat.zero_lt_of_lt (gridSize_bounds s _).1

theorem gridY_pos {s : Settings} {bb : Bbox} : 0 < gridY s bb :=
  Nat.zero_lt_of_lt (gridSize_bounds s _).1

/-- The box has room for the search: one search takes it, or its cells are wide enough and it is not
empty after rounding. -/
def Searchable (s : Settings) (bb : Bbox) : Prop :=
  Single s bb ∨
    (nano < (bb.maxx - bb.minx) / gridX s bb ∧ nano < (bb.maxy - bb.miny) / gridY s bb ∧
      roundTo 6 bb.minx < roundTo 6 bb.maxx ∧ roundTo 6 bb.miny < roundTo 6 bb.maxy)

instance (s : Settings) (bb : Bbox) : Decidable (Searchable s bb) :=
  inferInstanceAs (Decidable (_ ∨ _))

/-- The boxes that are searched cover the search box, up to the rounding of their sides. -/
structure CoversSearch (s : Settings) (bb : Bbox) (out : List Bbox) : Prop where
  nonempty : out ≠ []
  atMost : out.length ≤ 100
  apart : out.Pairwise Bbox.Apart
  missing : ∀ p ∈ bb, (∀ c ∈ out, p ∉ c) → ∃ c ∈ searchCells s bb, c.Beside (half 6) p
  extra : ∀ c ∈ out, ∀ p ∈ c, p ∉ bb →
    c.Beside (half 6) p ∧ ∃ c' ∈ searchCells s bb, c'.Near (half 6) p

/-! ## What is kept of the grid -/

theorem mem_dedupeFrom {bboxes out : List Bbox} {c : Bbox} :
    c ∈ dedupeFrom bboxes out ↔ c ∈ out ∨ (c.minx < c.maxx - nano ∧ c.miny < c.maxy - nano ∧
      ∃ bb ∈ bboxes, bb.round 6 = c) := by
  induction bboxes generalizing out with
  | nil => simp [dedupeFrom]
  | cons bb bboxes ih =>
    simp only [dedupeFrom, List.exists_mem_cons_iff]
    -- a box that is dropped is there already, or is too thin
    have hdropped (hdrop : bb.round 6 = c → c.minx < c.maxx - nano → c.miny < c.maxy - nano →
        c ∈ out) :
        c ∈ dedupeFrom bboxes out ↔ c ∈ out ∨ (c.minx < c.maxx - nano ∧ c.miny < c.maxy - nano ∧
          (bb.round 6 = c ∨ ∃ bb ∈ bboxes, bb.round 6 = c)) := by
      rw [ih]
      constructor
      · rintro (h | ⟨hx, hy, hrest⟩)
        · exact Or.inl h
        · exact Or.inr ⟨hx, hy, Or.inr hrest⟩
      · rintro (h | ⟨hx, hy, heq | hrest⟩)
        · exact Or.inl h
        · exact Or.inl (hdrop heq hx hy)
        · exact Or.inr ⟨hx, hy, hrest⟩
    split
    · rename_i hseen
      exact hdropped fun heq _ _ => heq ▸ hseen
    · split
      · rename_i hthin
        refine hdropped fun heq hx hy => absurd hthin ?_
        rw [heq, not_or, not_le, not_le]
        exact ⟨hx, hy⟩
      · rename_i hsolid
        obtain ⟨hx, hy⟩ := not_or.mp hsolid
        rw [ih, List.mem_append, List.mem_singleton]
        constructor
        · rintro ((h | rfl) | ⟨hx, hy, hrest⟩)
          · exact Or.inl h
          · exact Or.inr ⟨not_le.mp hx, not_le.mp hy, Or.inl rfl⟩
          · exact Or.inr ⟨hx, hy, Or.inr hrest⟩
        · rintro (h | ⟨hx, hy, rfl | hrest⟩)
          · exact Or.inl (Or.inl h)
          · exact Or.inl (Or.inr rfl)
          · exact Or.inr ⟨hx, hy, hrest⟩

theorem dedupeFrom_length (bboxes out : List Bbox) :
    (dedupeFrom bboxes out).length ≤ out.length + bboxes.length := by
  induction bboxes generalizing out with
  | nil => simp [dedupeFrom]
  | cons bb bboxes ih =>
    simp only [dedupeFrom, List.length_cons]
    split
    · exact (ih out).trans (by omega)
    · split
      · exact (ih out).trans (by omega)
      · exact (ih _).trans (by simp only [List.length_append, List.length_singleton]; omega)

section
variable {s : Settings} {bb : Bbox}

theorem split_single (hx : bb.minx < bb.maxx - nano) (hy : bb.miny < bb.maxy - nano)
    (h : Single s bb) : splitInitialSearchBboxes s bb = [bb] := by
  unfold splitInitialSearchBboxes
  rw [if_neg (by simp only [not_or, ge_iff_le, not_le]; exact ⟨hx, hy⟩)]
  exact if_pos h

theorem split_grid (hx : bb.minx < bb.maxx - nano) (hy : bb.miny < bb.maxy - nano)
    (h : ¬ Single s bb) :
    splitInitialSearchBboxes s bb = dedupeBboxes ((gridCells s bb).filter
      fun t => t.minx < t.maxx - nano ∧ t.miny < t.maxy - nano) := by
  -- the last line of an axis is the side of the box itself
  have hside : ∀ (lo hi : Rat) (n i : Nat), 0 < n →
      (if i + 1 = n then hi else lo + (i + 1) * ((hi - lo) / n)) = line lo hi n (i + 1) := by
    intro lo hi n i hn
    split
    · rename_i hlast
      rw [hlast, line_self hn]
    · rw [line, Nat.cast_add, Nat.cast_one]
  unfold splitInitialSearchBboxes
  rw [if_neg (by simp only [not_or, ge_iff_le, not_le]; exact ⟨hx, hy⟩)]
  refine (if_neg h).trans ?_
  show dedupeBboxes (List.filter _ _) = dedupeBboxes (List.filter _ _)
  congr 2
  refine List.flatMap_congr fun iy _ => List.map_congr_left fun ix _ => ?_
  exact Bbox.mk.injEq .. |>.mpr ⟨rfl, rfl, hside _ _ _ _ gridX_pos, hside _ _ _ _ gridY_pos⟩

/-- The rounded lines of the grid. -/
def cutX (s : Settings) (bb : Bbox) (i : Nat) : Rat :=
  roundTo 6 (line bb.minx bb.maxx (gridX s bb) i)

def cutY (s : Settings) (bb : Bbox) (i : Nat) : Rat :=
  roundTo 6 (line bb.miny bb.maxy (gridY s bb) i)

/-- The cells are wide enough to be kept before rounding. -/
def WideCells (s : Settings) (bb : Bbox) : Prop :=
  nano < (bb.maxx - bb.minx) / gridX s bb ∧ nano < (bb.maxy - bb.miny) / gridY s bb

theorem cell_wide_iff (iy ix : Nat) :
    ((cell s bb iy ix).minx < (cell s bb iy ix).maxx - nano ∧
      (cell s bb iy ix).miny < (cell s bb iy ix).maxy - nano) ↔ WideCells s bb := by
  have hstep : ∀ (lo hi : Rat) (n i : Nat),
      line lo hi n i < line lo hi n (i + 1) - nano ↔ nano < (hi - lo) / n := by
    intro lo hi n i
    rw [line_succ]
    constructor <;> intro h <;> linarith
  exact and_congr (hstep _ _ _ _) (hstep _ _ _ _)

theorem mem_gridCells {c : Bbox} :
    c ∈ gridCells s bb ↔ ∃ iy < gridY s bb, ∃ ix < gridX s bb, cell s bb iy ix = c := by
  simp only [gridCells, List.mem_flatMap, List.mem_map, List.mem_range]

/-- A box that is returned lies between rounded lines. -/
theorem mem_split_grid (hx : bb.minx < bb.maxx - nano) (hy : bb.miny < bb.maxy - nano)
    (h : ¬ Single s bb) {c : Bbox} :
    c ∈ splitInitialSearchBboxes s bb ↔ WideCells s bb ∧
      ∃ iy < gridY s bb, ∃ ix < gridX s bb,
        cutX s bb ix < cutX s bb (ix + 1) ∧ cutY s bb iy < cutY s bb (iy + 1) ∧
          (cell s bb iy ix).round 6 = c := by
  rw [split_grid hx hy h, dedupeBboxes, mem_dedupeFrom]
  constructor
  · rintro (hnil | ⟨hcx, hcy, t, ht, rfl⟩)
    · cases hnil
    · obtain ⟨hcell, hwide⟩ := List.mem_filter.mp ht
      obtain ⟨iy, hiy, ix, hix, rfl⟩ := mem_gridCells.mp hcell
      exact ⟨(cell_wide_iff iy ix).mp (of_decide_eq_true hwide), iy, hiy, ix, hix,
        roundTo_lt_iff.mp hcx, roundTo_lt_iff.mp hcy, rfl⟩
  · rintro ⟨hwide, iy, hiy, ix, hix, hcx, hcy, rfl⟩
    refine Or.inr ⟨roundTo_lt_iff.mpr hcx, roundTo_lt_iff.mpr hcy, cell s bb iy ix, ?_, rfl⟩
    exact List.mem_filter.mpr ⟨mem_gridCells.mpr ⟨iy, hiy, ix, hix, rfl⟩,
      decide_eq_true ((cell_wide_iff iy ix).mpr hwide)⟩

theorem split_length (hx : bb.minx < bb.maxx - nano) (hy : bb.miny < bb.maxy - nano)
    (h : ¬ Single s bb) : (splitInitialSearchBboxes s bb).length ≤ 100 := by
  have hcells : (gridCells s bb).length = gridY s bb * gridX s bb := by
    simp [gridCells, List.length_flatMap]
  have hgx : gridX s bb ≤ 10 := (gridSize_bounds s _).2
  have hgy : gridY s bb ≤ 10 := (gridSize_bounds s _).2
  rw [split_grid hx hy h, dedupeBboxes]
  calc (dedupeFrom _ []).length ≤ ((gridCells s bb).filter _).length := by
        simpa using dedupeFrom_length _ []
    _ ≤ (gridCells s bb).length := List.length_filter_le _ _
    _ = gridY s bb * gridX s bb := hcells
    _ ≤ 10 * 10 := Nat.mul_le_mul hgy hgx

/-! ## The search box is covered -/

theorem cutX_mono (hle : bb.minx ≤ bb.maxx) : Monotone (cutX s bb) :=
  (roundTo_mono 6).comp (line_mono hle)

theorem cutY_mono (hle : bb.miny ≤ bb.maxy) : Monotone (cutY s bb) :=
  (roundTo_mono 6).comp (line_mono hle)

theorem cutX_zero : cutX s bb 0 = (bb.round 6).minx := by rw [cutX, line_zero, Bbox.round]

theorem cutX_last : cutX s bb (gridX s bb) = (bb.round 6).maxx := by
  rw [cutX, line_self gridX_pos, Bbox.round]

theorem cutY_zero : cutY s bb 0 = (bb.round 6).miny := by rw [cutY, line_zero, Bbox.round]

theorem cutY_last : cutY s bb (gridY s bb) = (bb.round 6).maxy := by
  rw [cutY, line_self gridY_pos, Bbox.round]

/-- A point of the boundary of the box is one of the boundary of a cell. -/
theorem exists_cell_boundary (hx : bb.minx < bb.maxx) (hy : bb.miny < bb.maxy) {q : Rat × Rat}
    (h : bb.Boundary q) : ∃ c ∈ gridCells s bb, c.Boundary q := by
  obtain ⟨⟨h1, h2, h3, h4⟩, hout⟩ := h
  have hmx : Monotone (line bb.minx bb.maxx (gridX s bb)) := line_mono (le_of_lt hx)
  have hmy : Monotone (line bb.miny bb.maxy (gridY s bb)) := line_mono (le_of_lt hy)
  have hzx : line bb.minx bb.maxx (gridX s bb) 0 = bb.minx := line_zero
  have hzy : line bb.miny bb.maxy (gridY s bb) 0 = bb.miny := line_zero
  have hlx : line bb.minx bb.maxx (gridX s bb) (gridX s bb) = bb.maxx := line_self gridX_pos
  have hly : line bb.miny bb.maxy (gridY s bb) (gridY s bb) = bb.maxy := line_self gridY_pos
  obtain ⟨ix, hix, -, hxlo, hxhi⟩ := exists_step _ (hzx.trans_le h1) (h2.trans hlx.ge)
    (by rw [hzx, hlx]; exact hx)
  obtain ⟨iy, hiy, -, hylo, hyhi⟩ := exists_step _ (hzy.trans_le h3) (h4.trans hly.ge)
    (by rw [hzy, hly]; exact hy)
  refine ⟨cell s bb iy ix, mem_gridCells.mpr ⟨iy, hiy, ix, hix, rfl⟩, ⟨hxlo, hxhi, hylo, hyhi⟩, ?_⟩
  rintro ⟨i1, i2, i3, i4⟩
  refine hout ⟨?_, ?_, ?_, ?_⟩
  · exact (hzx.ge.trans (hmx (Nat.zero_le ix))).trans_lt i1
  · exact i2.trans_le ((hmx hix).trans hlx.le)
  · exact (hzy.ge.trans (hmy (Nat.zero_le iy))).trans_lt i3
  · exact i4.trans_le ((hmy hiy).trans hly.le)

section
variable (hx : bb.minx < bb.maxx - nano) (hy : bb.miny < bb.maxy - nano) (h : ¬ Single s bb)
include hx hy h

theorem split_grid_apart : (splitInitialSearchBboxes s bb).Pairwise Bbox.Apart := by
  have hnano : (0 : Rat) < nano := by norm_num [nano]
  have hmx : Monotone (cutX s bb) := cutX_mono (by linarith)
  have hmy : Monotone (cutY s bb) := cutY_mono (by linarith)
  have hnodup : (splitInitialSearchBboxes s bb).Nodup := by
    rw [split_grid hx hy h]
    exact dedupeBboxes_nodup _
  refine List.Nodup.pairwise_of_forall_ne hnodup fun c hc c' hc' hne p hp => hne ?_
  obtain ⟨-, iy, -, ix, -, -, -, rfl⟩ := (mem_split_grid hx hy h).mp hc
  obtain ⟨-, iy', -, ix', -, -, -, rfl⟩ := (mem_split_grid hx hy h).mp hc'
  obtain ⟨⟨h1, h2, h3, h4⟩, h1', h2', h3', h4'⟩ := hp
  rw [step_unique hmx ⟨h1, h2⟩ ⟨h1', h2'⟩, step_unique hmy ⟨h3, h4⟩ ⟨h3', h4'⟩]

/-- The union of the boxes that are returned is the rounded search box. -/
theorem mem_union_iff (hwide : WideCells s bb) (hrx : (bb.round 6).minx < (bb.round 6).maxx)
    (hry : (bb.round 6).miny < (bb.round 6).maxy) (p : Rat × Rat) :
    (∃ c ∈ splitInitialSearchBboxes s bb, p ∈ c) ↔ p ∈ bb.round 6 := by
  have hnano : (0 : Rat) < nano := by norm_num [nano]
  have hmx : Monotone (cutX s bb) := cutX_mono (by linarith)
  have hmy : Monotone (cutY s bb) := cutY_mono (by linarith)
  rw [Bbox.mem_def, ← cutX_zero (s := s), ← cutX_last (s := s), ← cutY_zero (s := s),
    ← cutY_last (s := s)]
  constructor
  · rintro ⟨c, hc, hp⟩
    obtain ⟨-, iy, hiy, ix, hix, -, -, rfl⟩ := (mem_split_grid hx hy h).mp hc
    obtain ⟨h1, h2, h3, h4⟩ := hp
    exact ⟨(hmx (Nat.zero_le ix)).trans h1, h2.trans (hmx hix), (hmy (Nat.zero_le iy)).trans h3,
      h4.trans (hmy hiy)⟩
  · rintro ⟨h1, h2, h3, h4⟩
    obtain ⟨ix, hix, hcx, hxlo, hxhi⟩ := exists_step _ h1 h2 (by rwa [cutX_zero, cutX_last])
    obtain ⟨iy, hiy, hcy, hylo, hyhi⟩ := exists_step _ h3 h4 (by rwa [cutY_zero, cutY_last])
    exact ⟨_, (mem_split_grid hx hy h).mpr ⟨hwide, iy, hiy, ix, hix, hcx, hcy, rfl⟩,
      hxlo, hxhi, hylo, hyhi⟩

theorem covers_of_wide (hwide : WideCells s bb) (hrx : (bb.round 6).minx < (bb.round 6).maxx)
    (hry : (bb.round 6).miny < (bb.round 6).maxy) :
    CoversSearch s bb (splitInitialSearchBboxes s bb) := by
  have hnano : (0 : Rat) < nano := by norm_num [nano]
  have hle : bb.minx < bb.maxx := by linarith
  have hle' : bb.miny < bb.maxy := by linarith
  have hunion := mem_union_iff hx hy h hwide hrx hry
  have hcells : searchCells s bb = gridCells s bb := if_neg h
  have h1 := roundTo_near 6 bb.minx
  have h2 := roundTo_near 6 bb.maxx
  have h3 := roundTo_near 6 bb.miny
  have h4 := roundTo_near 6 bb.maxy
  constructor
  · obtain ⟨c, hc, -⟩ := (hunion ((bb.round 6).minx, (bb.round 6).miny)).mpr
      ⟨le_refl _, le_of_lt hrx, le_refl _, le_of_lt hry⟩
    exact List.ne_nil_of_mem hc
  · exact split_length hx hy h
  · exact split_grid_apart hx hy h
  · -- a point that is lost is beside the search box, so beside one of its cells
    intro p hp hlost
    have hout : p ∉ bb.round 6 := fun hin => by
      obtain ⟨c, hc, hpc⟩ := (hunion p).mpr hin
      exact hlost c hc hpc
    rw [abs_le] at h1 h2 h3 h4
    obtain ⟨q, hq, hnear⟩ := Bbox.beside_of_outside (e := half 6)
      (by simp only [Bbox.round]; linarith)
      (by simp only [Bbox.round]; linarith) (by simp only [Bbox.round]; linarith)
      (by simp only [Bbox.round]; linarith) hp hout
    obtain ⟨c, hc, hqc⟩ := exists_cell_boundary hle hle' hq
    exact ⟨c, hcells ▸ hc, q, hqc, hnear⟩
  · intro c hc p hp hout
    have hin := (hunion p).mp ⟨c, hc, hp⟩
    refine ⟨?_, ?_⟩
    · have hsub := fun q hq => (hunion q).mp ⟨c, hc, hq⟩
      have hlow := hsub (c.minx, c.miny) ⟨le_refl _, hp.1.trans hp.2.1, le_refl _,
        hp.2.2.1.trans hp.2.2.2⟩
      have hhigh := hsub (c.maxx, c.maxy) ⟨hp.1.trans hp.2.1, le_refl _,
        hp.2.2.1.trans hp.2.2.2, le_refl _⟩
      rw [Bbox.mem_def] at hlow hhigh
      simp only [Bbox.round] at hlow hhigh
      rw [abs_le] at h1 h2 h3 h4
      exact Bbox.beside_of_outside (by linarith) (by linarith) (by linarith) (by linarith) hp hout
    · -- the point of the search box that is nearest to it is on the boundary
      have hboundary : bb.Boundary (clamp bb.minx bb.maxx p.1, clamp bb.miny bb.maxy p.2) := by
        have hcx := clamp_mem (le_of_lt hle) p.1
        have hcy := clamp_mem (le_of_lt hle') p.2
        refine ⟨⟨hcx.1, hcx.2, hcy.1, hcy.2⟩, fun hint => hout ?_⟩
        obtain ⟨i1, i2, i3, i4⟩ := hint
        have hpx := clamp_inside (le_of_lt hle) i1 i2
        have hpy := clamp_inside (le_of_lt hle') i3 i4
        exact ⟨hpx.1, hpx.2, hpy.1, hpy.2⟩
      obtain ⟨c', hc', hqc⟩ := exists_cell_boundary hle hle' hboundary
      exact ⟨c', hcells ▸ hc', _, hqc, clamp_near (le_of_lt hle) h1 h2 hin.1 hin.2.1,
        clamp_near (le_of_lt hle') h3 h4 hin.2.2.1 hin.2.2.2⟩

theorem wide_of_nonempty (hne : splitInitialSearchBboxes s bb ≠ []) :
    WideCells s bb ∧ (bb.round 6).minx < (bb.round 6).maxx ∧
      (bb.round 6).miny < (bb.round 6).maxy := by
  have hnano : (0 : Rat) < nano := by norm_num [nano]
  have hmx : Monotone (cutX s bb) := cutX_mono (by linarith)
  have hmy : Monotone (cutY s bb) := cutY_mono (by linarith)
  obtain ⟨c, hc⟩ := List.exists_mem_of_ne_nil _ hne
  obtain ⟨hwide, iy, hiy, ix, hix, hcx, hcy, -⟩ := (mem_split_grid hx hy h).mp hc
  refine ⟨hwide, ?_, ?_⟩
  · rw [← cutX_zero (s := s), ← cutX_last (s := s)]
    exact (hmx (Nat.zero_le ix)).trans_lt (hcx.trans_le (hmx hix))
  · rw [← cutY_zero (s := s), ← cutY_last (s := s)]
    exact (hmy (Nat.zero_le iy)).trans_lt (hcy.trans_le (hmy hiy))

end

theorem covers_single : CoversSearch s bb [bb] where
  nonempty := by simp
  atMost := by simp
  apart := List.pairwise_singleton _ _
  missing p hp hlost := absurd hp (hlost bb (List.mem_singleton_self bb))
  extra c hc p hp hout := absurd (List.mem_singleton.mp hc ▸ hp) hout

/-- For every box that is not empty. -/
theorem split_covers_iff (s : Settings) {bb : Bbox} (hx : bb.minx < bb.maxx - nano)
    (hy : bb.miny < bb.maxy - nano) :
    CoversSearch s bb (splitInitialSearchBboxes s bb) ↔ Searchable s bb := by
  by_cases h : Single s bb
  · rw [split_single hx hy h]
    exact ⟨fun _ => Or.inl h, fun _ => covers_single⟩
  · constructor
    · intro hcovers
      obtain ⟨hwide, hrx, hry⟩ := wide_of_nonempty hx hy h hcovers.nonempty
      exact Or.inr ⟨hwide.1, hwide.2, hrx, hry⟩
    · rintro (hsingle | ⟨hwx, hwy, hrx, hry⟩)
      · exact absurd hsingle h
      · exact covers_of_wide hx hy h ⟨hwx, hwy⟩ hrx hry

end

/-! ## Two boxes -/

/-- The default settings. -/
def splitDefaults : Settings where
  bboxParallelism := 4
  bboxDatetimeParallelism := 8
  maxBboxTasksPerRound := 64
  maxSplitDepth := 2
  minBboxDegrees := 1 / 2
  largeBboxLimit := 250
  initialSplitThresholdDegrees := 6
  initialSplitGrid := 0

/-- A box of 60 by 50 degrees. -/
theorem split_covers_continent : CoversSearch splitDefaults ⟨-70, -30, -10, 20⟩
    (splitInitialSearchBboxes splitDefaults ⟨-70, -30, -10, 20⟩) :=
  (split_covers_iff splitDefaults (by decide +kernel) (by decide +kernel)).mpr (by decide +kernel)

/-- A strip that is less than half a millionth of a degree wide is not searched. -/
theorem strip_lost : ¬ ∀ (s : Settings) (bb : Bbox), bb.minx < bb.maxx - nano →
    bb.miny < bb.maxy - nano → CoversSearch s bb (splitInitialSearchBboxes s bb) := by
  intro h
  have hcovers := h splitDefaults ⟨0, 0, 1 / 2500000, 10⟩ (by decide +kernel) (by decide +kernel)
  rw [split_covers_iff splitDefaults (by decide +kernel) (by decide +kernel)] at hcovers
  exact absurd hcovers (by decide +kernel)

end Mosaic
end Geofastmap
