import Mathlib.Data.List.Nodup
import Geofastmap.Mosaic.Seeds

/-!
# Geofastmap.Mosaic.Waves

Which seeds the local planner searches. Children of boxes that failed are put in front of the seeds
that wait, and both spend one budget.

Each seed finds room exactly if no wave that leaves seeds waiting makes the queue longer than the
budget that is left (`fits_iff`).
-/

namespace Geofastmap
namespace Mosaic

variable (s : Settings) (fetch : Nat → Bbox → Outcome) (maxDepth : Nat)

/-- The entries of a queue that are seeds. -/
def seedsOf (queue : List (Bbox × Nat)) : List (Bbox × Nat) := queue.filter fun e => e.2 = 0

def rest (budget : Nat) (queue : List (Bbox × Nat)) : List (Bbox × Nat) :=
  queue.drop (waveSize s budget queue)

/-- The budget and the queue at the start of each wave. -/
def waves : Nat → List (Bbox × Nat) → List (Nat × List (Bbox × Nat))
  | _, [] => []
  | 0, _ => []
  | budget + 1, entry :: queue =>
    (budget + 1, entry :: queue) :: waves (budget + 1 - waveSize s (budget + 1) (entry :: queue))
      (nextQueue s fetch maxDepth (budget + 1) (entry :: queue))
termination_by budget => budget
decreasing_by
  simp only [Nat.lt_succ_iff, waveSize, List.length_cons]
  omega

/-- The queue at the end. -/
def leftOver : Nat → List (Bbox × Nat) → List (Bbox × Nat)
  | _, [] => []
  | 0, queue => queue
  | budget + 1, entry :: queue =>
    leftOver (budget + 1 - waveSize s (budget + 1) (entry :: queue))
      (nextQueue s fetch maxDepth (budget + 1) (entry :: queue))
termination_by budget => budget
decreasing_by
  simp only [Nat.lt_succ_iff, waveSize, List.length_cons]
  omega

/-- The entries that are searched. -/
def visits (budget : Nat) (queue : List (Bbox × Nat)) : List (Bbox × Nat) :=
  (waves s fetch maxDepth budget queue).flatMap fun w => w.2.take (waveSize s w.1 w.2)

/-- A wave that leaves seeds waiting does not make the queue longer than the budget left. -/
def Fits (budget : Nat) (queue : List (Bbox × Nat)) : Prop :=
  ∀ w ∈ waves s fetch maxDepth budget queue, seedsOf (rest s w.1 w.2) ≠ [] →
    (nextQueue s fetch maxDepth w.1 w.2).length ≤ w.1 - waveSize s w.1 w.2

theorem fetchFrom_eq (budget : Nat) (queue : List (Bbox × Nat)) :
    fetchFrom s fetch maxDepth budget queue = (visits s fetch maxDepth budget queue).map Prod.fst := by
  fun_induction waves s fetch maxDepth budget queue with
  | case1 => simp [fetchFrom, visits, waves]
  | case2 => simp [fetchFrom, visits, waves]
  | case3 budget entry queue ih =>
    rw [fetchFrom, ih]
    unfold visits
    conv_rhs => rw [waves]
    rw [List.flatMap_cons, List.map_append]

/-! ## One wave -/

theorem waveSize_le (budget : Nat) (queue : List (Bbox × Nat)) :
    waveSize s budget queue ≤ budget ∧ waveSize s budget queue ≤ queue.length := by
  unfold waveSize
  omega

theorem childrenOf_depth {bb : Bbox} {depth : Nat} {o : Outcome} {e : Bbox × Nat}
    (h : e ∈ childrenOf s maxDepth bb depth o) : 0 < e.2 := by
  unfold childrenOf at h
  simp only at h
  split at h
  · cases h
  · obtain ⟨bb', -, rfl⟩ := List.mem_map.mp h
    exact Nat.succ_pos depth

theorem waveChildren_depth {left : Nat} {wave : List (Bbox × Nat)} {e : Bbox × Nat}
    (h : e ∈ waveChildren s fetch maxDepth left wave) : 0 < e.2 := by
  induction wave generalizing left with
  | nil => cases h
  | cons w wave ih =>
    rw [waveChildren, List.mem_append] at h
    rcases h with h | h
    · exact childrenOf_depth s maxDepth h
    · exact ih h

/-- A wave adds no seeds. -/
theorem seedsOf_nextQueue (budget : Nat) (queue : List (Bbox × Nat)) :
    seedsOf (nextQueue s fetch maxDepth budget queue) = seedsOf (rest s budget queue) := by
  unfold nextQueue rest
  simp only
  split
  · rfl
  · have hnone : seedsOf (waveChildren s fetch maxDepth budget
        (queue.take (waveSize s budget queue))).reverse = [] := by
      rw [seedsOf, List.filter_eq_nil_iff]
      intro e he
      have hpos := waveChildren_depth s fetch maxDepth (List.mem_reverse.mp he)
      simp only [decide_eq_true_eq]
      omega
    unfold seedsOf at hnone ⊢
    rw [List.filter_append, hnone, List.nil_append]

theorem nextQueue_length (budget : Nat) (queue : List (Bbox × Nat)) :
    queue.length - waveSize s budget queue ≤ (nextQueue s fetch maxDepth budget queue).length := by
  unfold nextQueue
  simp only
  split
  · rw [List.length_drop]
  · rw [List.length_append, List.length_drop]
    omega

/-- Behind a seed there are only seeds. -/
def Stacked (queue : List (Bbox × Nat)) : Prop := queue.Pairwise fun e e' => e.2 = 0 → e'.2 = 0

theorem Stacked.next {queue : List (Bbox × Nat)} (h : Stacked queue) (budget : Nat) :
    Stacked (nextQueue s fetch maxDepth budget queue) := by
  unfold nextQueue
  simp only
  split
  · exact h.drop
  · unfold Stacked
    rw [List.pairwise_append]
    refine ⟨?_, h.drop, ?_⟩
    · rw [List.pairwise_iff_forall_sublist]
      intro e e' hsub hzero
      have he : e ∈ (waveChildren s fetch maxDepth budget
          (queue.take (waveSize s budget queue))).reverse := hsub.subset (by simp)
      have hpos := waveChildren_depth s fetch maxDepth (List.mem_reverse.mp he)
      omega
    · intro e he e' _ hzero
      have hpos := waveChildren_depth s fetch maxDepth (List.mem_reverse.mp he)
      omega

/-- A queue that is longer than the wave keeps its last seed. -/
theorem Stacked.rest {queue : List (Bbox × Nat)} (h : Stacked queue) {budget : Nat}
    (hseeds : seedsOf queue ≠ []) (hlong : budget < queue.length) :
    seedsOf (rest s budget queue) ≠ [] := by
  have hsize := waveSize_le s budget queue
  unfold Mosaic.rest
  generalize waveSize s budget queue = n at hsize
  intro hnone
  have hsplit := List.take_append_drop n queue
  unfold Stacked at h
  rw [← hsplit, List.pairwise_append] at h
  obtain ⟨e, he⟩ := List.exists_mem_of_ne_nil _ hseeds
  rw [seedsOf, List.mem_filter] at he
  simp only [decide_eq_true_eq] at he
  rw [seedsOf, List.filter_eq_nil_iff] at hnone
  have hmem := he.1
  rw [← hsplit, List.mem_append] at hmem
  obtain ⟨e', he'⟩ : ∃ e', e' ∈ queue.drop n := by
    refine List.exists_mem_of_length_pos ?_
    rw [List.length_drop]
    omega
  rcases hmem with hmem | hmem
  · exact hnone e' he' (by simpa using h.2.2 e hmem e' he' he.2)
  · exact hnone e hmem (by simpa using he.2)

/-! ## A run -/

theorem waves_cons {budget : Nat} {queue : List (Bbox × Nat)} (hb : 0 < budget)
    (hq : queue ≠ []) :
    waves s fetch maxDepth budget queue =
      (budget, queue) :: waves s fetch maxDepth (budget - waveSize s budget queue)
        (nextQueue s fetch maxDepth budget queue) := by
  obtain ⟨budget, rfl⟩ : ∃ n, budget = n + 1 := ⟨budget - 1, by omega⟩
  cases queue with
  | nil => exact absurd rfl hq
  | cons entry queue => rw [waves]

/-- Seeds are searched, or left over. -/
theorem seedsOf_visits (budget : Nat) (queue : List (Bbox × Nat)) :
    seedsOf (visits s fetch maxDepth budget queue) ++ seedsOf (leftOver s fetch maxDepth budget queue) =
      seedsOf queue := by
  fun_induction leftOver s fetch maxDepth budget queue with
  | case1 => simp [visits, waves, seedsOf]
  | case2 => simp [visits, waves, seedsOf]
  | case3 budget entry queue ih =>
    rw [seedsOf_nextQueue] at ih
    unfold visits at ih ⊢
    rw [waves, List.flatMap_cons]
    unfold seedsOf at ih ⊢
    rw [List.filter_append, List.append_assoc, ih, ← List.filter_append, rest,
      List.take_append_drop]

theorem visits_length (budget : Nat) (queue : List (Bbox × Nat)) :
    (visits s fetch maxDepth budget queue).length ≤ budget := by
  fun_induction waves s fetch maxDepth budget queue with
  | case1 => simp [visits, waves]
  | case2 => simp [visits, waves]
  | case3 budget entry queue ih =>
    have hsize := waveSize_le s (budget + 1) (entry :: queue)
    unfold visits at ih ⊢
    rw [waves, List.flatMap_cons]
    simp only [List.length_append, List.length_take]
    omega

/-- More entries than budget leave a seed over. -/
theorem leftOver_of_crowded {budget : Nat} {queue : List (Bbox × Nat)} (hq : Stacked queue)
    (hseeds : seedsOf queue ≠ []) (hlong : budget < queue.length) :
    seedsOf (leftOver s fetch maxDepth budget queue) ≠ [] := by
  fun_induction leftOver s fetch maxDepth budget queue with
  | case1 => exact absurd rfl hseeds
  | case2 => exact hseeds
  | case3 budget entry queue ih =>
    have hsize := waveSize_le s (budget + 1) (entry :: queue)
    have hnext := nextQueue_length s fetch maxDepth (budget + 1) (entry :: queue)
    refine ih (hq.next s fetch maxDepth _) ?_ (by omega)
    rw [seedsOf_nextQueue]
    exact hq.rest s hseeds hlong

theorem fits_cons {budget : Nat} {queue : List (Bbox × Nat)} (hb : 0 < budget) (hq : queue ≠ []) :
    Fits s fetch maxDepth budget queue ↔
      (seedsOf (rest s budget queue) ≠ [] →
        (nextQueue s fetch maxDepth budget queue).length ≤ budget - waveSize s budget queue) ∧
      Fits s fetch maxDepth (budget - waveSize s budget queue)
        (nextQueue s fetch maxDepth budget queue) := by
  unfold Fits
  rw [waves_cons s fetch maxDepth hb hq]
  simp only [List.forall_mem_cons]

theorem fits_of_no_seeds {budget : Nat} {queue : List (Bbox × Nat)} (h : seedsOf queue = []) :
    Fits s fetch maxDepth budget queue := by
  fun_induction leftOver s fetch maxDepth budget queue with
  | case1 => simp [Fits, waves]
  | case2 => simp [Fits, waves]
  | case3 budget entry queue ih =>
    have hrest : seedsOf (rest s (budget + 1) (entry :: queue)) = [] := by
      rw [seedsOf, List.filter_eq_nil_iff] at h ⊢
      intro e he
      exact h e (List.mem_of_mem_drop he)
    rw [fits_cons s fetch maxDepth (Nat.succ_pos budget) (List.cons_ne_nil entry queue)]
    constructor
    · intro hseeds
      exact absurd hrest hseeds
    · exact ih (by rw [seedsOf_nextQueue, hrest])

theorem fits_iff {budget : Nat} {queue : List (Bbox × Nat)} (hb : 0 < budget)
    (hq : Stacked queue) :
    Fits s fetch maxDepth budget queue ↔ seedsOf (leftOver s fetch maxDepth budget queue) = [] := by
  fun_induction leftOver s fetch maxDepth budget queue with
  | case1 => simp [Fits, waves, seedsOf]
  | case2 => cases hb
  | case3 budget entry queue ih =>
    have hnext := hq.next s fetch maxDepth (budget + 1)
    have hseeds := seedsOf_nextQueue s fetch maxDepth (budget + 1) (entry :: queue)
    have hsplit := seedsOf_visits s fetch maxDepth
      (budget + 1 - waveSize s (budget + 1) (entry :: queue))
      (nextQueue s fetch maxDepth (budget + 1) (entry :: queue))
    rw [fits_cons s fetch maxDepth hb (List.cons_ne_nil entry queue)]
    by_cases hrest : seedsOf (rest s (budget + 1) (entry :: queue)) = []
    · rw [hseeds, hrest, List.append_eq_nil_iff] at hsplit
      have hfits : Fits s fetch maxDepth (budget + 1 - waveSize s (budget + 1) (entry :: queue))
          (nextQueue s fetch maxDepth (budget + 1) (entry :: queue)) :=
        fits_of_no_seeds s fetch maxDepth (hseeds.trans hrest)
      simp [hrest, hsplit.2, hfits]
    · by_cases hlen : (nextQueue s fetch maxDepth (budget + 1) (entry :: queue)).length ≤
          budget + 1 - waveSize s (budget + 1) (entry :: queue)
      · have hpos : 0 < (nextQueue s fetch maxDepth (budget + 1) (entry :: queue)).length := by
          rw [List.length_pos_iff]
          intro hnil
          rw [hnil] at hseeds
          exact hrest hseeds.symm
        rw [← ih (by omega) hnext]
        exact ⟨fun h => h.2, fun h => ⟨fun _ => hlen, h⟩⟩
      · have hover := leftOver_of_crowded s fetch maxDepth hnext (by rw [hseeds]; exact hrest)
          (not_le.mp hlen)
        constructor
        · intro h
          exact absurd (h.1 hrest) hlen
        · intro h
          exact absurd h hover

/-! ## The search -/

/-- The queue of a search when it starts. -/
def seedQueue (seedBboxes : List Bbox) : List (Bbox × Nat) :=
  (dedupeBboxes seedBboxes).map (·, 0)

def depthLimit (allowSplitting : Bool) : Nat := if allowSplitting then s.splitDepth else 0

/-- The seeds for which the budget is not enough. -/
def starved (allowSplitting : Bool) (seedBboxes : List Bbox) : List Bbox :=
  (seedsOf (leftOver s fetch (depthLimit s allowSplitting) s.bboxBudget
    (seedQueue seedBboxes))).map Prod.fst

/-- The children that are searched. -/
def childrenSearched (allowSplitting : Bool) (seedBboxes : List Bbox) : List Bbox :=
  ((visits s fetch (depthLimit s allowSplitting) s.bboxBudget (seedQueue seedBboxes)).filter
    fun e => e.2 ≠ 0).map Prod.fst

theorem dedupeFrom_nodup {bboxes out : List Bbox} (h : out.Nodup) :
    (dedupeFrom bboxes out).Nodup := by
  induction bboxes generalizing out with
  | nil => exact h
  | cons bb bboxes ih =>
    simp only [dedupeFrom]
    split
    · exact ih h
    · split
      · exact ih h
      · rename_i hnew _
        rw [← List.concat_eq_append]
        exact ih (List.Nodup.concat hnew h)

theorem dedupeBboxes_nodup (bboxes : List Bbox) : (dedupeBboxes bboxes).Nodup :=
  dedupeFrom_nodup List.nodup_nil

theorem seedsOf_seedQueue (seedBboxes : List Bbox) :
    seedsOf (seedQueue seedBboxes) = seedQueue seedBboxes := by
  simp [seedsOf, seedQueue]

theorem seedQueue_stacked (seedBboxes : List Bbox) : Stacked (seedQueue seedBboxes) := by
  unfold Stacked seedQueue
  rw [List.pairwise_map]
  exact List.pairwise_of_forall fun _ _ _ => rfl

/-- Each seed is searched or starved. -/
theorem visited_starved (allowSplitting : Bool) (seedBboxes : List Bbox) :
    (seedsOf (visits s fetch (depthLimit s allowSplitting) s.bboxBudget
        (seedQueue seedBboxes))).map Prod.fst ++ starved s fetch allowSplitting seedBboxes =
      dedupeBboxes seedBboxes := by
  rw [starved, ← List.map_append, seedsOf_visits, seedsOf_seedQueue, seedQueue]
  simp [Function.comp_def]

theorem mem_fetchBboxesAdaptive (allowSplitting : Bool) (seedBboxes : List Bbox) (bb : Bbox) :
    bb ∈ fetchBboxesAdaptive s fetch allowSplitting seedBboxes ↔
      bb ∈ (seedsOf (visits s fetch (depthLimit s allowSplitting) s.bboxBudget
        (seedQueue seedBboxes))).map Prod.fst ∨
      bb ∈ childrenSearched s fetch allowSplitting seedBboxes := by
  unfold fetchBboxesAdaptive childrenSearched
  rw [fetchFrom_eq, ← List.mem_append, ← List.map_append]
  have hperm := List.filter_append_perm (fun e : Bbox × Nat => decide (e.2 = 0))
    (visits s fetch (depthLimit s allowSplitting) s.bboxBudget (seedQueue seedBboxes))
  simp only [← decide_not] at hperm
  exact (hperm.map Prod.fst).mem_iff.symm

end Mosaic
end Geofastmap
