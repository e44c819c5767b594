import Mathlib.Data.List.Pairwise
import Geofastmap.Mosaic.Grid

/-!
# Geofastmap.Mosaic.Starved

When the local planner searches each seed (`starves_no_seed_iff`): exactly if the children of the
boxes that failed leave room for the seeds that wait. A child is a part of its seed, so no child
stands in for a seed that finds no room, unless that seed lies within another one; the seeds of the
planner do not.
-/

namespace Geofastmap
namespace Mosaic

variable (s : Settings) (fetch : Nat → Bbox → Outcome)

/-! ## Boxes within boxes -/

theorem roundTo_idem (digits : Nat) (x : Rat) :
    roundTo digits (roundTo digits x) = roundTo digits x := by
  have hnear := roundTo_near digits (roundTo digits x)
  rw [abs_le, half, div_div] at hnear
  have hpos : (0 : Rat) < 1 / 10 ^ digits := by positivity
  have hhalf : (1 : Rat) / (2 * 10 ^ digits) = (1 / 10 ^ digits) / 2 := by
    rw [div_div, mul_comm]
  rw [hhalf] at hnear
  rcases lt_trichotomy (roundTo digits (roundTo digits x)) (roundTo digits x) with hlt | heq | hlt
  · linarith [roundTo_gap hlt]
  · exact heq
  · linarith [roundTo_gap hlt]

theorem Bbox.round_idem (digits : Nat) (bb : Bbox) :
    (bb.round digits).round digits = bb.round digits := by
  simp only [Bbox.round, roundTo_idem]

/-- A box that `_dedupe_bboxes` gives. -/
structure Rounded (bb : Bbox) : Prop where
  round : bb.round 6 = bb
  wide : bb.minx < bb.maxx
  high : bb.miny < bb.maxy

theorem rounded_of_mem {bboxes : List Bbox} {bb : Bbox} (h : bb ∈ dedupeBboxes bboxes) :
    Rounded bb := by
  have hnano : (0 : Rat) < nano := by norm_num [nano]
  rcases mem_dedupeFrom.mp h with hnil | ⟨hx, hy, c, -, rfl⟩
  · cases hnil
  · exact ⟨Bbox.round_idem 6 c, by linarith, by linarith⟩

instance : Std.Symm Bbox.Apart := ⟨fun _ _ h p hp => h p ⟨hp.2, hp.1⟩⟩

/-- A part of a box, but not all of it. -/
def Bbox.PartOf (b a : Bbox) : Prop := b.Within a ∧ ¬ a.Within b

theorem Bbox.PartOf.within_trans {b a r : Bbox} (h : b.PartOf a) (hr : a.Within r) : b.PartOf r :=
  ⟨h.1.trans hr, fun hback => h.2 (hr.trans hback)⟩

theorem minBboxDeg_le : 1 / 20 ≤ s.minBboxDeg := le_max_left _ _

/-- The middle of a range, rounded, lies in it, and inside if the range is long enough. -/
theorem round_middle {lo hi : Rat} (hlo : roundTo 6 lo = lo) (hhi : roundTo 6 hi = hi)
    (hle : lo < hi) :
    lo ≤ roundTo 6 ((lo + hi) / 2) ∧ roundTo 6 ((lo + hi) / 2) ≤ hi ∧
      (s.minBboxDeg < hi - lo → lo < roundTo 6 ((lo + hi) / 2) ∧ roundTo 6 ((lo + hi) / 2) < hi) := by
  have hmono := roundTo_mono 6
  have hlow : roundTo 6 lo ≤ roundTo 6 ((lo + hi) / 2) := hmono (by linarith)
  have hhigh : roundTo 6 ((lo + hi) / 2) ≤ roundTo 6 hi := hmono (by linarith)
  rw [hlo] at hlow
  rw [hhi] at hhigh
  refine ⟨hlow, hhigh, fun hsize => ?_⟩
  have hnear := roundTo_near 6 ((lo + hi) / 2)
  have hmin := minBboxDeg_le s
  have hhalf : half 6 < 1 / 40 := by norm_num [half]
  rw [abs_le] at hnear
  constructor <;> linarith

/-- The children of a box that is wide or high enough to be split are parts of it. -/
theorem partOf_of_subdivide {bb child : Bbox} (hbb : Rounded bb)
    (hsize : s.minBboxDeg < bb.maxx - bb.minx ∨ s.minBboxDeg < bb.maxy - bb.miny)
    (h : child ∈ subdivideBbox2x2 bb) : child.PartOf bb := by
  obtain ⟨hround, hwide, hhigh⟩ := hbb
  obtain ⟨hminx, hminy, hmaxx, hmaxy⟩ : roundTo 6 bb.minx = bb.minx ∧ roundTo 6 bb.miny = bb.miny ∧
      roundTo 6 bb.maxx = bb.maxx ∧ roundTo 6 bb.maxy = bb.maxy :=
    ⟨congrArg Bbox.minx hround, congrArg Bbox.miny hround, congrArg Bbox.maxx hround,
      congrArg Bbox.maxy hround⟩
  obtain ⟨hx, hx', hxin⟩ := round_middle s hminx hmaxx hwide
  obtain ⟨hy, hy', hyin⟩ := round_middle s hminy hmaxy hhigh
  -- a quarter reaches the middle in each direction, where the box goes on
  have hquarter : ∀ c : Bbox, c.Within bb →
      (s.minBboxDeg < bb.maxx - bb.minx → bb.minx < c.minx ∨ c.maxx < bb.maxx) →
      (s.minBboxDeg < bb.maxy - bb.miny → bb.miny < c.miny ∨ c.maxy < bb.maxy) → c.PartOf bb := by
    intro c hc hcx hcy
    refine ⟨hc, fun ⟨h1, h2, h3, h4⟩ => ?_⟩
    rcases hsize with hsize | hsize
    · rcases hcx hsize with hlt | hlt <;> linarith
    · rcases hcy hsize with hlt | hlt <;> linarith
  unfold subdivideBbox2x2 at h
  split at h
  · cases h
  · rcases mem_dedupeFrom.mp h with hnil | ⟨-, -, c, hc, rfl⟩
    · cases hnil
    · simp only [List.mem_cons, List.not_mem_nil, or_false] at hc
      rcases hc with rfl | rfl | rfl | rfl
      all_goals
        refine hquarter _ ?_ (fun hw => ?_) fun hh => ?_
        all_goals simp only [Bbox.Within, Bbox.round, hminx, hminy, hmaxx, hmaxy]
      · exact ⟨le_rfl, hx', le_rfl, hy'⟩
      · exact Or.inr (hxin hw).2
      · exact Or.inr (hyin hh).2
      · exact ⟨hx, le_rfl, le_rfl, hy'⟩
      · exact Or.inl (hxin hw).1
      · exact Or.inr (hyin hh).2
      · exact ⟨le_rfl, hx', hy, le_rfl⟩
      · exact Or.inr (hxin hw).2
      · exact Or.inl (hyin hh).1
      · exact ⟨hx, le_rfl, hy, le_rfl⟩
      · exact Or.inl (hxin hw).1
      · exact Or.inl (hyin hh).1

/-- The children of a search are parts of its box. -/
theorem childrenOf_partOf {maxDepth depth : Nat} {bb : Bbox} {o : Outcome} {e : Bbox × Nat}
    (hbb : Rounded bb) (h : e ∈ childrenOf s maxDepth bb depth o) :
    Rounded e.1 ∧ e.2 ≤ maxDepth ∧ e.1.PartOf bb := by
  unfold childrenOf at h
  simp only at h
  split at h
  · cases h
  · rename_i hsplit
    obtain ⟨child, hchild, rfl⟩ := List.mem_map.mp h
    obtain ⟨-, hdepth, hsize⟩ : _ ∧ depth < maxDepth ∧ _ := by
      simpa only [not_or, not_le, ge_iff_le, bboxSizeDegrees] using hsplit
    have hmin := minBboxDeg_le s
    have hlarge : s.minBboxDeg < bb.maxx - bb.minx ∨ s.minBboxDeg < bb.maxy - bb.miny := by
      by_contra hsmall
      obtain ⟨hx, hy⟩ := not_or.mp hsmall
      exact hsize ⟨max_le (by linarith) (not_lt.mp hx), max_le (by linarith) (not_lt.mp hy)⟩
    refine ⟨?_, hdepth, partOf_of_subdivide s hbb hlarge hchild⟩
    unfold subdivideBbox2x2 at hchild
    split at hchild
    · cases hchild
    · exact rounded_of_mem hchild

/-! ## A run -/

variable {seeds : List Bbox}

/-- The entries of a queue lie within seeds, and the children are parts of them. -/
def Descends (seeds : List Bbox) (maxDepth : Nat) (queue : List (Bbox × Nat)) : Prop :=
  ∀ e ∈ queue, Rounded e.1 ∧ e.2 ≤ maxDepth ∧
    ∃ a ∈ seeds, e.1.Within a ∧ (e.2 ≠ 0 → e.1.PartOf a)

theorem waveChildren_descends {maxDepth left : Nat} {wave : List (Bbox × Nat)}
    (h : Descends seeds maxDepth wave) : Descends seeds maxDepth (waveChildren s fetch maxDepth left wave) := by
  induction wave generalizing left with
  | nil => exact fun e he => absurd he List.not_mem_nil
  | cons w wave ih =>
    obtain ⟨hw, hwave⟩ := List.forall_mem_cons.mp h
    intro e he
    rw [waveChildren, List.mem_append] at he
    rcases he with he | he
    · obtain ⟨hrounded, -, a, ha, hwithin, -⟩ := hw
      obtain ⟨hchild, hdepth, hpart⟩ := childrenOf_partOf s hrounded he
      have hparta := hpart.within_trans hwithin
      exact ⟨hchild, hdepth, a, ha, hparta.1, fun _ => hparta⟩
    · exact ih hwave e he

theorem Descends.next {budget maxDepth : Nat} {queue : List (Bbox × Nat)}
    (h : Descends seeds maxDepth queue) : Descends seeds maxDepth (nextQueue s fetch maxDepth budget queue) := by
  unfold nextQueue
  simp only
  have hrest : Descends seeds maxDepth (queue.drop (waveSize s budget queue)) :=
    fun e he => h e (List.mem_of_mem_drop he)
  split
  · exact hrest
  · intro e he
    rcases List.mem_append.mp he with he | he
    · exact waveChildren_descends s fetch (fun e' he' => h e' (List.mem_of_mem_take he')) e
        (List.mem_reverse.mp he)
    · exact hrest e he

theorem visits_descends {maxDepth budget : Nat} {queue : List (Bbox × Nat)}
    (h : Descends seeds maxDepth queue) : Descends seeds maxDepth (visits s fetch maxDepth budget queue) := by
  fun_induction waves s fetch maxDepth budget queue with
  | case1 => simp [visits, waves, Descends]
  | case2 => simp [visits, waves, Descends]
  | case3 budget entry queue ih =>
    intro e he
    rw [visits, waves, List.flatMap_cons] at he
    rcases List.mem_append.mp he with he | he
    · exact h e (List.mem_of_mem_take he)
    · exact ih (h.next s fetch) e he

/-! ## The seeds -/

/-- No box lies within another one. -/
def NoneWithin (bboxes : List Bbox) : Prop := ∀ a ∈ bboxes, ∀ b ∈ bboxes, b.Within a → b = a

/-- The seeds of the first round, the only one that splits. -/
theorem noneWithin_split (bb : Bbox) :
    NoneWithin (dedupeBboxes (splitInitialSearchBboxes s bb)) := by
  by_cases hempty : bb.minx ≥ bb.maxx - nano ∨ bb.miny ≥ bb.maxy - nano
  · intro a ha
    rw [splitInitialSearchBboxes, if_pos hempty] at ha
    cases ha
  · obtain ⟨hx, hy⟩ := not_or.mp hempty
    rw [not_le] at hx hy
    by_cases hsingle : Single s bb
    · rw [split_single hx hy hsingle]
      have honly : ∀ c ∈ dedupeBboxes [bb], c = bb.round 6 := by
        intro c hc
        rcases mem_dedupeFrom.mp hc with hnil | ⟨-, -, c', hc', rfl⟩
        · cases hnil
        · rw [List.mem_singleton.mp hc']
      exact fun a ha b hb _ => (honly b hb).trans (honly a ha).symm
    · -- the boxes of the grid are rounded, and no point is inside two of them
      have hgrid : ∀ c ∈ dedupeBboxes (splitInitialSearchBboxes s bb),
          c ∈ splitInitialSearchBboxes s bb := by
        intro c hc
        rcases mem_dedupeFrom.mp hc with hnil | ⟨-, -, c', hc', rfl⟩
        · cases hnil
        · have hc'' := hc'
          rw [split_grid hx hy hsingle] at hc''
          rwa [(rounded_of_mem hc'').round]
      intro a ha b hb hwithin
      by_contra hne
      have hapart : a.Apart b :=
        (split_grid_apart hx hy hsingle).forall (hgrid a ha) (hgrid b hb) (Ne.symm hne)
      obtain ⟨-, hwide, hhigh⟩ := rounded_of_mem hb
      obtain ⟨h1, h2, h3, h4⟩ := hwithin
      refine hapart ((b.minx + b.maxx) / 2, (b.miny + b.maxy) / 2) ⟨?_, ?_⟩
      · exact ⟨by linarith, by linarith, by linarith, by linarith⟩
      · exact ⟨by linarith, by linarith, by linarith, by linarith⟩

/-- No child is one of the seeds. -/
theorem children_not_seeds {allowSplitting : Bool} {seedBboxes : List Bbox}
    (hseeds : allowSplitting = true → NoneWithin (dedupeBboxes seedBboxes)) :
    ∀ bb ∈ childrenSearched s fetch allowSplitting seedBboxes, bb ∉ dedupeBboxes seedBboxes := by
  have hstart : Descends (dedupeBboxes seedBboxes) (depthLimit s allowSplitting)
      (seedQueue seedBboxes) := by
    intro e he
    obtain ⟨bb, hbb, rfl⟩ := List.mem_map.mp he
    exact ⟨rounded_of_mem hbb, Nat.zero_le _, bb, hbb, Bbox.Within.refl bb, fun h => absurd rfl h⟩
  intro bb hchild hbb
  obtain ⟨e, he, rfl⟩ := List.mem_map.mp hchild
  obtain ⟨he, hdepth⟩ := List.mem_filter.mp he
  rw [decide_eq_true_eq] at hdepth
  obtain ⟨-, hle, a, ha, hwithin, hpart⟩ := visits_descends s fetch hstart e he
  cases allowSplitting with
  | false => exact hdepth (Nat.le_zero.mp hle)
  | true =>
    have heq : e.1 = a := hseeds rfl a ha e.1 hbb hwithin
    exact (hpart hdepth).2 (heq ▸ Bbox.Within.refl e.1)

/-- Without splitting for each list of seeds, and with it for each list of which none lies within
another, such as the planner has, the condition is exact. -/
theorem starves_no_seed_iff (allowSplitting : Bool) (seedBboxes : List Bbox) :
    (fetchBboxesAdaptive s fetch allowSplitting seedBboxes).length ≤ s.bboxBudget ∧
    (Fits s fetch (depthLimit s allowSplitting) s.bboxBudget (seedQueue seedBboxes) →
      ∀ bb ∈ dedupeBboxes seedBboxes, bb ∈ fetchBboxesAdaptive s fetch allowSplitting seedBboxes) ∧
    ((allowSplitting = true → NoneWithin (dedupeBboxes seedBboxes)) →
      (∀ bb ∈ dedupeBboxes seedBboxes,
        bb ∈ fetchBboxesAdaptive s fetch allowSplitting seedBboxes) →
      Fits s fetch (depthLimit s allowSplitting) s.bboxBudget (seedQueue seedBboxes)) ∧
    ∀ searchBbox, NoneWithin (dedupeBboxes (splitInitialSearchBboxes s searchBbox)) := by
  have hsplit := visited_starved s fetch allowSplitting seedBboxes
  rw [fits_iff s fetch _ s.bboxBudget_pos (seedQueue_stacked seedBboxes)]
  refine ⟨?_, ?_, ?_, noneWithin_split s⟩
  · unfold fetchBboxesAdaptive
    rw [fetchFrom_eq, List.length_map]
    exact visits_length s fetch _ _ _
  · intro hfits bb hbb
    rw [mem_fetchBboxesAdaptive]
    rw [← hsplit, List.mem_append] at hbb
    rcases hbb with hseed | hstarved
    · exact Or.inl hseed
    · simp [starved, hfits] at hstarved
  · intro hseeds hall
    have hnodup := dedupeBboxes_nodup seedBboxes
    rw [← hsplit, List.nodup_append] at hnodup
    by_contra hleft
    obtain ⟨e, he⟩ := List.exists_mem_of_ne_nil _ hleft
    have hstarved : e.1 ∈ starved s fetch allowSplitting seedBboxes := List.mem_map_of_mem he
    have hseed : e.1 ∈ dedupeBboxes seedBboxes := by
      rw [← hsplit]
      exact List.mem_append_right _ hstarved
    rcases (mem_fetchBboxesAdaptive s fetch allowSplitting seedBboxes e.1).mp (hall e.1 hseed) with
      hvisited | hchild
    · exact hnodup.2.2 e.1 hvisited e.1 hstarved rfl
    · exact children_not_seeds s fetch hseeds e.1 hchild hseed

/-- Four seeds of four by four degrees, a budget of four, and catalogs that fail. -/
def fourSeeds : List Bbox := [⟨0, 0, 4, 4⟩, ⟨4, 0, 8, 4⟩, ⟨0, 4, 4, 8⟩, ⟨4, 4, 8, 8⟩]

def smallBudget : Settings where
  bboxParallelism := 1
  bboxDatetimeParallelism := 1
  maxBboxTasksPerRound := 4
  maxSplitDepth := 2
  minBboxDegrees := 1 / 2
  largeBboxLimit := 250
  initialSplitThresholdDegrees := 6
  initialSplitGrid := 0

theorem fourSeeds_starved : ¬ ∀ (s : Settings) (fetch : Nat → Bbox → Outcome)
    (seedBboxes : List Bbox), (dedupeBboxes seedBboxes).length ≤ s.bboxBudget →
      ∀ bb ∈ dedupeBboxes seedBboxes, bb ∈ fetchBboxesAdaptive s fetch true seedBboxes := by
  intro h
  have hsearched := h smallBudget (fun _ _ => ⟨true, 0⟩) fourSeeds (by decide +kernel)
    ⟨4, 4, 8, 8⟩ (by decide +kernel)
  revert hsearched
  decide +kernel

end Mosaic
end Geofastmap
