import Mathlib.Data.Rat.Floor
import Geofastmap.Sql.Text

/-!
# Geofastmap.Mosaic.Seeds

The boxes in which a mosaic is searched, and the search of the local planner. Coordinates are
rational numbers, and `round` rounds half to even.

The local planner spends a budget box by box, so of an area with more seeds than its budget it
searches a first part (`fetchBboxesAdaptive_prefix`).
-/

namespace Geofastmap
namespace Mosaic

structure Bbox where
  minx : Rat
  miny : Rat
  maxx : Rat
  maxy : Rat
deriving DecidableEq, Repr

/-- The settings of the mosaic planners. -/
structure Settings where
  bboxParallelism : Int
  bboxDatetimeParallelism : Int
  maxBboxTasksPerRound : Int
  maxSplitDepth : Int
  minBboxDegrees : Rat
  largeBboxLimit : Int
  initialSplitThresholdDegrees : Rat
  initialSplitGrid : Int

namespace Settings

variable (s : Settings)

/-- `max(1, int(setting or 1))`. -/
def bboxBudget : Nat := (max 1 s.maxBboxTasksPerRound).toNat

def shardWave : Nat := (max 1 s.bboxDatetimeParallelism).toNat

def parallelism : Nat := (max 1 s.bboxParallelism).toNat

def splitDepth : Nat := (max 0 s.maxSplitDepth).toNat

def minBboxDeg : Rat := max (1 / 20) (if s.minBboxDegrees = 0 then 1 / 2 else s.minBboxDegrees)

def splitThreshold : Rat :=
  max (1 / 10) (if s.initialSplitThresholdDegrees = 0 then 6 else s.initialSplitThresholdDegrees)

theorem bboxBudget_pos : 0 < s.bboxBudget := by
  unfold bboxBudget
  omega

theorem shardWave_pos : 0 < s.shardWave := by
  unfold shardWave
  omega

end Settings

/-! ## Boxes -/

/-- `round(x, digits)`. -/
def roundTo (digits : Nat) (x : Rat) : Rat :=
  let y := x * 10 ^ digits
  let n := y.floor
  let up := y - n > 1 / 2 ∨ (y - n = 1 / 2 ∧ n % 2 = 1)
  ((if up then n + 1 else n : Int) : Rat) / 10 ^ digits

namespace Bbox

def Within (b r : Bbox) : Prop :=
  r.minx ≤ b.minx ∧ b.maxx ≤ r.maxx ∧ r.miny ≤ b.miny ∧ b.maxy ≤ r.maxy

theorem Within.refl (b : Bbox) : b.Within b := ⟨le_rfl, le_rfl, le_rfl, le_rfl⟩

theorem Within.trans {b c d : Bbox} (h : b.Within c) (h' : c.Within d) : b.Within d :=
  ⟨h'.1.trans h.1, h.2.1.trans h'.2.1, h'.2.2.1.trans h.2.2.1, h.2.2.2.trans h'.2.2.2⟩

end Bbox

def Bbox.round (digits : Nat) (bb : Bbox) : Bbox :=
  ⟨roundTo digits bb.minx, roundTo digits bb.miny, roundTo digits bb.maxx, roundTo digits bb.maxy⟩

/-- `_bbox_size_degrees`. -/
def bboxSizeDegrees (bb : Bbox) : Rat × Rat := (max 0 (bb.maxx - bb.minx), max 0 (bb.maxy - bb.miny))

def nano : Rat := 1 / 1000000000

/-- `_dedupe_bboxes`, with the boxes kept so far. -/
def dedupeFrom : List Bbox → List Bbox → List Bbox
  | [], out => out
  | bb :: bboxes, out =>
    let key := bb.round 6
    if key ∈ out then dedupeFrom bboxes out
    else if key.minx ≥ key.maxx - nano ∨ key.miny ≥ key.maxy - nano then dedupeFrom bboxes out
    else dedupeFrom bboxes (out ++ [key])

def dedupeBboxes (bboxes : List Bbox) : List Bbox := dedupeFrom bboxes []

/-- `_subdivide_bbox_2x2`. -/
def subdivideBbox2x2 (bb : Bbox) : List Bbox :=
  if bb.minx ≥ bb.maxx - nano / 1000 ∨ bb.miny ≥ bb.maxy - nano / 1000 then []
  else
    let mx := (bb.minx + bb.maxx) / 2
    let my := (bb.miny + bb.maxy) / 2
    dedupeBboxes [⟨bb.minx, bb.miny, mx, my⟩, ⟨mx, bb.miny, bb.maxx, my⟩,
      ⟨bb.minx, my, mx, bb.maxy⟩, ⟨mx, my, bb.maxx, bb.maxy⟩]

/-- `split_initial_search_bboxes`. -/
def splitInitialSearchBboxes (s : Settings) (bb : Bbox) : List Bbox :=
  if bb.minx ≥ bb.maxx - nano ∨ bb.miny ≥ bb.maxy - nano then []
  else
    let w := bb.maxx - bb.minx
    let h := bb.maxy - bb.miny
    let thr := s.splitThreshold
    if w ≤ thr ∧ h ≤ thr then [bb]
    else
      let gx := if s.initialSplitGrid > 1 then min 10 s.initialSplitGrid.toNat
        else min 10 (max 2 (w / thr).ceil.toNat)
      let gy := if s.initialSplitGrid > 1 then min 10 s.initialSplitGrid.toNat
        else min 10 (max 2 (h / thr).ceil.toNat)
      let dx := w / gx
      let dy := h / gy
      let tile (iy ix : Nat) : Bbox :=
        { minx := bb.minx + ix * dx
          miny := bb.miny + iy * dy
          maxx := if ix + 1 = gx then bb.maxx else bb.minx + (ix + 1) * dx
          maxy := if iy + 1 = gy then bb.maxy else bb.miny + (iy + 1) * dy }
      dedupeBboxes (((List.range gy).flatMap fun iy => (List.range gx).map (tile iy)).filter
        fun t => t.minx < t.maxx - nano ∧ t.miny < t.maxy - nano)

/-! ## The local planner -/

/-- What a search returns: whether a catalog failed, and the number of features. -/
structure Outcome where
  hadErrors : Bool
  features : Nat

/-- A box is split after errors, or when a large box has almost no features. -/
def shouldSplit (s : Settings) (bb : Bbox) (o : Outcome) : Bool :=
  let (w, h) := bboxSizeDegrees bb
  o.hadErrors || decide (max w h ≥ max 2 (s.minBboxDeg * 2) ∧ o.features < 10)

/-- The children that one search adds to the queue. -/
def childrenOf (s : Settings) (maxDepth : Nat) (bb : Bbox) (depth : Nat) (o : Outcome) :
    List (Bbox × Nat) :=
  let (w, h) := bboxSizeDegrees bb
  if shouldSplit s bb o = false ∨ depth ≥ maxDepth ∨ (w ≤ s.minBboxDeg ∧ h ≤ s.minBboxDeg) then []
  else (subdivideBbox2x2 bb).map (·, depth + 1)

/-- The children that the searches of a wave add, in order. `fetch left` are the outcomes of the
search for which that much of the budget is left. -/
def waveChildren (s : Settings) (fetch : Nat → Bbox → Outcome) (maxDepth : Nat) :
    Nat → List (Bbox × Nat) → List (Bbox × Nat)
  | _, [] => []
  | left, (bb, depth) :: wave =>
    childrenOf s maxDepth bb depth (fetch left bb) ++ waveChildren s fetch maxDepth (left - 1) wave

/-- The size of the next wave. -/
def waveSize (s : Settings) (budget : Nat) (queue : List (Bbox × Nat)) : Nat :=
  min queue.length (min (max 1 (s.parallelism * 2)) budget)

/-- The queue after a wave. -/
def nextQueue (s : Settings) (fetch : Nat → Bbox → Outcome) (maxDepth budget : Nat)
    (queue : List (Bbox × Nat)) : List (Bbox × Nat) :=
  let waveN := waveSize s budget queue
  let rest := queue.drop waveN
  -- each child is inserted before the queue
  if budget - waveN = 0 then rest
  else (waveChildren s fetch maxDepth budget (queue.take waveN)).reverse ++ rest

/-- The loop of `_fetch_bboxes_adaptive`: the boxes it searches, in order. -/
def fetchFrom (s : Settings) (fetch : Nat → Bbox → Outcome) (maxDepth : Nat) :
    Nat → List (Bbox × Nat) → List Bbox
  | _, [] => []
  | 0, _ => []
  | budget + 1, entry :: queue =>
    let waveN := waveSize s (budget + 1) (entry :: queue)
    ((entry :: queue).take waveN).map Prod.fst ++ fetchFrom s fetch maxDepth (budget + 1 - waveN)
      (nextQueue s fetch maxDepth (budget + 1) (entry :: queue))
termination_by budget => budget
decreasing_by
  simp only [Nat.lt_succ_iff, waveSize, List.length_cons]
  omega

/-- `_fetch_bboxes_adaptive`. -/
def fetchBboxesAdaptive (s : Settings) (fetch : Nat → Bbox → Outcome) (allowSplitting : Bool)
    (seedBboxes : List Bbox) : List Bbox :=
  fetchFrom s fetch (if allowSplitting then s.splitDepth else 0) s.bboxBudget
    ((dedupeBboxes seedBboxes).map (·, 0))

/-- The first wave is searched, however large the area is. -/
theorem fetchBboxesAdaptive_prefix (s : Settings) (fetch : Nat → Bbox → Outcome)
    (allowSplitting : Bool) (seedBboxes : List Bbox) :
    (dedupeBboxes seedBboxes).take (min (max 1 (s.parallelism * 2)) s.bboxBudget) <+:
      fetchBboxesAdaptive s fetch allowSplitting seedBboxes := by
  unfold fetchBboxesAdaptive
  have hpos := s.bboxBudget_pos
  generalize s.bboxBudget = budget at hpos
  generalize (if allowSplitting = true then s.splitDepth else 0) = maxDepth
  rcases hq : dedupeBboxes seedBboxes with _ | ⟨bb, queue⟩
  · simp
  · obtain ⟨budget, rfl⟩ : ∃ n, budget = n + 1 := ⟨budget - 1, by omega⟩
    have hseeds : ((bb, 0) :: queue.map (·, 0)).map Prod.fst = bb :: queue := by
      simp [Function.comp_def]
    rw [List.map_cons, fetchFrom, List.map_take, hseeds, waveSize, List.length_cons,
      List.length_map, List.take_eq_take_min, List.length_cons, Nat.min_comm _ (queue.length + 1)]
    exact List.prefix_append _ _

end Mosaic
end Geofastmap
