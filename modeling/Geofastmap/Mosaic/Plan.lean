import Geofastmap.Mosaic.Seeds
import Geofastmap.Mosaic.Strips

/-!
# Geofastmap.Mosaic.Plan

The plan of a mosaic with and without the mode of one pass (`plan_mosaic_from_features`).

The candidates are sorted before one is selected, and no two have the same key, so a plan does not
depend on the order of the features (`plan_perm`).
-/

namespace Geofastmap
namespace Mosaic

open Calendar Import Stac

variable {G : Type} (sh : PassShapely G)

/-! ## The window of seven days -/

/-- `_filter_candidates_to_date_window`. -/
def filterCandidatesToDateWindow (cands : List (Candidate G)) (start stop : Date) :
    List (Candidate G) :=
  cands.filter fun c => (dayOf sh c).any fun d => start ≤ d && d ≤ stop

/-- The window with the lowest key so far. -/
structure BestWindow where
  key : Rat × Rat
  start : Date
  stop : Date

/-- One anchor. Without a result the window leaves the calendar, which raises. -/
def considerWindow (dated : List (Candidate G)) (best : Option BestWindow) (anchor : Date) :
    Option (Option BestWindow) := do
  let start ← anchor.minusDays 3
  let stop ← anchor.plusDays 3
  let inWin := filterCandidatesToDateWindow sh dated start stop
  let key := (meanCloudCandidates inWin, -(inWin.length : Rat))
  return if inWin.isEmpty then best
    else match best with
      | none => some ⟨key, start, stop⟩
      | some b => if pairLt key b.key then some ⟨key, start, stop⟩ else some b

/-- `sorted({c.dt.date() for c in dated})`. -/
def anchorDates (cands : List (Candidate G)) : List Date :=
  (cands.filterMap (dayOf sh)).dedup.insertionSort (· ≤ ·)

/-- `_pick_best_seven_day_window_from_candidates`. -/
def pickBestSevenDayWindow (cands : List (Candidate G)) : Option (Option BestWindow) :=
  (anchorDates sh cands).foldlM (considerWindow sh (cands.filter fun c => c.dt.isSome)) none

/-- `same_seven_day_window`. -/
structure SevenDayWindow where
  start : Text
  stop : Text
  locked : Bool
  meanCloudInWindow : Option Rat
  candidatesInWindow : Option Nat
deriving DecidableEq, Repr

/-! ## The plan -/

structure PassPlan extends PlanResult where
  useSamePassDateStrips : Bool
  sameSevenDayWindow : Option SevenDayWindow

/-- The candidates that are left in the mode of one pass, and their window. -/
def passWindow (locked : Option (Date × Date)) (cands : List (Candidate G)) :
    Option (List (Candidate G) × Option SevenDayWindow) :=
  match locked with
  | some (ds, de) => some (filterCandidatesToDateWindow sh cands ds de,
      some ⟨ds.isoformat, de.isoformat, true, none, none⟩)
  | none => (pickBestSevenDayWindow sh cands).map fun
    | none => (cands, none)
    | some win =>
      let inWin := filterCandidatesToDateWindow sh cands win.start win.stop
      (inWin, some ⟨win.start.isoformat, win.stop.isoformat, false,
        some (roundTo 4 (meanCloudCandidates inWin)), some inWin.length⟩)

/-- The candidates that meet the AOI. -/
def meeting (aoi : G) (features : List Item) : List (Candidate G) :=
  (features.filterMap (candidate sh.toReadings)).filter fun c => sh.intersects c.geom aoi == some true

/-- The plan for some candidates. -/
def planOf (minMarginal : Rat) (numStrips : Int) (aoi : G) (samePass : Bool) (mode : SortMode)
    (page : Page) (pool : List (Candidate G)) (window : Option SevenDayWindow) : PassPlan :=
  let (selected, remaining, uncovered) :=
    if samePass then samePassDateStripsSelect sh minMarginal numStrips aoi pool mode
    else greedyCoverAoi sh.toShapely minMarginal aoi pool mode
  let rows := selected.map fun sel =>
    (sel.key, (plannedAlts sh.toShapely pool selected sel).map (swapAltDict sh.toShapely))
  { selected := selected.map (selectedRow sh.toShapely)
    swapOptions := swapOptions page rows
    swapOptionsTotal := swapOptionsTotal page rows
    uncoveredFraction := some uncovered
    remainingUncovered := remaining.map sh.mapping
    candidatesMatched := pool.length
    useSamePassDateStrips := samePass
    sameSevenDayWindow := window }

/-- `plan_mosaic_from_features`. -/
def planMosaic (minMarginal : Rat) (numStrips : Int) (aoi : G) (features : List Item)
    (mode : SortMode) (samePass : Bool) (locked : Option (Date × Date)) (page : Page) :
    Option PassPlan := do
  let cands := meeting sh aoi features
  let (pool, window) ← if samePass then passWindow sh locked cands else some (cands, none)
  return planOf sh minMarginal numStrips aoi samePass mode page (sortCandidates mode pool) window

/-! ## The order of the features -/

section Order

variable {sh} {mode : SortMode} {cands cands' : List (Candidate G)}

theorem sortKey_snd (mode : SortMode) (c : Candidate G) : (sortKey mode c).2 = c.key := by
  cases mode <;> rfl

theorem tupleLe_antisymm {x y : Rat × Text} (h : tupleLe x y = true) (h' : tupleLe y x = true) :
    x = y := by
  simp only [tupleLe, decide_eq_true_eq] at h h'
  rcases h with hlt | ⟨heq, hle⟩
  · rcases h' with hlt' | ⟨heq', -⟩
    · exact absurd hlt' (not_lt.mpr (le_of_lt hlt))
    · exact absurd hlt (heq' ▸ lt_irrefl _)
  · rcases h' with hlt' | ⟨-, hle'⟩
    · exact absurd hlt' (heq ▸ lt_irrefl _)
    · exact Prod.ext heq (le_antisymm hle hle')

theorem tupleLe_total (x y : Rat × Text) : tupleLe x y = true ∨ tupleLe y x = true := by
  simp only [tupleLe, decide_eq_true_eq]
  rcases lt_trichotomy x.1 y.1 with hlt | heq | hlt
  · exact Or.inl (Or.inl hlt)
  · rcases le_total x.2 y.2 with hle | hle
    · exact Or.inl (Or.inr ⟨heq, hle⟩)
    · exact Or.inr (Or.inr ⟨heq.symm, hle⟩)
  · exact Or.inr (Or.inl hlt)

theorem tupleLe_trans {x y z : Rat × Text} (h : tupleLe x y = true) (h' : tupleLe y z = true) :
    tupleLe x z = true := by
  simp only [tupleLe, decide_eq_true_eq] at h h' ⊢
  rcases h with hlt | ⟨heq, hle⟩
  · rcases h' with hlt' | ⟨heq', -⟩
    · exact Or.inl (hlt.trans hlt')
    · exact Or.inl (heq' ▸ hlt)
  · rcases h' with hlt' | ⟨heq', hle'⟩
    · exact Or.inl (heq ▸ hlt')
    · exact Or.inr ⟨heq.trans heq', hle.trans hle'⟩

/-- Sorting forgets the order of candidates with different keys. -/
theorem sortCandidates_perm (h : cands.Perm cands') (hkeys : (cands.map Candidate.key).Nodup) :
    sortCandidates mode cands = sortCandidates mode cands' := by
  let le (c d : Candidate G) : Prop := tupleLe (sortKey mode c) (sortKey mode d) = true
  have : Std.Total le := ⟨fun c d => tupleLe_total _ _⟩
  have : IsTrans (Candidate G) le := ⟨fun _ _ _ h h' => tupleLe_trans h h'⟩
  have hsorted : ∀ l : List (Candidate G), (sortCandidates mode l).Pairwise le :=
    fun l => List.pairwise_insertionSort le l
  have hperm : (sortCandidates mode cands).Perm (sortCandidates mode cands') :=
    (List.perm_insertionSort _ _).trans (h.trans (List.perm_insertionSort _ _).symm)
  refine List.Perm.eq_of_pairwise ?_ (hsorted cands) (hsorted cands') hperm
  intro c d hc hd hcd hdc
  -- two candidates at the same place have the same key
  have hkey : c.key = d.key := by
    have heq := tupleLe_antisymm hcd hdc
    rw [← sortKey_snd mode c, ← sortKey_snd mode d, heq]
  exact List.inj_on_of_nodup_map hkeys (mem_sortCandidates.mp hc)
    (h.mem_iff.mpr (mem_sortCandidates.mp hd)) hkey

theorem meanCloud_perm (h : cands.Perm cands') :
    meanCloudCandidates cands = meanCloudCandidates cands' := by
  have hclouds := h.filterMap Candidate.cloud
  simp only [meanCloudCandidates, hclouds.sum_eq, hclouds.length_eq,
    List.isEmpty_iff_length_eq_zero]

theorem filterWindow_perm (sh : PassShapely G) (h : cands.Perm cands') (start stop : Date) :
    (filterCandidatesToDateWindow sh cands start stop).Perm
      (filterCandidatesToDateWindow sh cands' start stop) := h.filter _

theorem considerWindow_perm (h : cands.Perm cands') (best : Option BestWindow) (anchor : Date) :
    considerWindow sh cands best anchor = considerWindow sh cands' best anchor := by
  unfold considerWindow
  cases hstart : anchor.minusDays 3 with
  | none => rfl
  | some start =>
    cases hstop : anchor.plusDays 3 with
    | none => rfl
    | some stop =>
      have hwin := filterWindow_perm sh h start stop
      simp only [Option.bind_eq_bind, Option.bind_some, meanCloud_perm hwin, hwin.length_eq,
        List.isEmpty_iff_length_eq_zero]

theorem anchorDates_perm (h : cands.Perm cands') :
    anchorDates sh cands = anchorDates sh cands' := by
  have hdays := (h.filterMap (dayOf sh)).dedup
  refine List.Perm.eq_of_pairwise' (List.pairwise_insertionSort (· ≤ ·) _)
    (List.pairwise_insertionSort (· ≤ ·) _) ?_
  exact (List.perm_insertionSort _ _).trans (hdays.trans (List.perm_insertionSort _ _).symm)

theorem pickWindow_perm (h : cands.Perm cands') :
    pickBestSevenDayWindow sh cands = pickBestSevenDayWindow sh cands' := by
  have hstep : considerWindow sh (cands.filter fun c => c.dt.isSome) =
      considerWindow sh (cands'.filter fun c => c.dt.isSome) := by
    funext best anchor
    exact considerWindow_perm (h.filter _) best anchor
  unfold pickBestSevenDayWindow
  rw [anchorDates_perm h, hstep]

/-- The window is the same, and the candidates of the window are the same ones. -/
theorem passWindow_perm (sh : PassShapely G) (h : cands.Perm cands')
    (locked : Option (Date × Date)) :
    (passWindow sh locked cands = none ∧ passWindow sh locked cands' = none) ∨
      ∃ pool pool' window, passWindow sh locked cands = some (pool, window) ∧
        passWindow sh locked cands' = some (pool', window) ∧ pool.Perm pool' ∧
          pool.Sublist cands := by
  cases locked with
  | some w =>
    exact Or.inr ⟨_, _, _, rfl, rfl, filterWindow_perm sh h w.1 w.2, List.filter_sublist⟩
  | none =>
    unfold passWindow
    dsimp only
    rw [← pickWindow_perm h]
    cases pickBestSevenDayWindow sh cands with
    | none => exact Or.inl ⟨rfl, rfl⟩
    | some best =>
      right
      cases best with
      | none => exact ⟨_, _, _, rfl, rfl, h, List.Sublist.refl _⟩
      | some win =>
        have hwin := filterWindow_perm sh h win.start win.stop
        refine ⟨_, _, _, rfl, ?_, hwin, List.filter_sublist⟩
        simp only [Option.map_some, meanCloud_perm hwin, hwin.length_eq]

theorem candidates_keys (r : Readings G) (features : List Item) :
    ((features.filterMap (candidate r)).map Candidate.key).Sublist (features.map dedupeKey) := by
  induction features with
  | nil => exact List.Sublist.slnil
  | cons f features ih =>
    cases hf : candidate r f with
    | none =>
      rw [List.filterMap_cons_none hf, List.map_cons]
      exact ih.cons _
    | some c =>
      rw [List.filterMap_cons_some hf, List.map_cons, List.map_cons, (candidate_spec hf).2]
      exact ih.cons_cons _

theorem meeting_keys (sh : PassShapely G) {features : List Item}
    (hkeys : (features.map dedupeKey).Nodup) (aoi : G) :
    ((meeting sh aoi features).map Candidate.key).Nodup :=
  ((List.filter_sublist.map _).trans (candidates_keys _ features)).nodup hkeys

/-- For each order of features with different keys. -/
theorem plan_perm (minMarginal : Rat) (numStrips : Int) (aoi : G) {features features' : List Item}
    (h : features.Perm features') (hkeys : (features.map dedupeKey).Nodup) (mode : SortMode)
    (samePass : Bool) (locked : Option (Date × Date)) (page : Page) :
    planMosaic sh minMarginal numStrips aoi features mode samePass locked page =
      planMosaic sh minMarginal numStrips aoi features' mode samePass locked page := by
  have hmeet : (meeting sh aoi features).Perm (meeting sh aoi features') :=
    (h.filterMap _).filter _
  have hnodup := meeting_keys sh hkeys aoi
  unfold planMosaic
  cases samePass with
  | false =>
    simp only [Bool.false_eq_true, if_false, Option.bind_eq_bind, Option.bind_some]
    rw [sortCandidates_perm hmeet hnodup]
  | true =>
    simp only [if_true, Option.bind_eq_bind]
    rcases passWindow_perm sh hmeet locked with
      ⟨hnone, hnone'⟩ | ⟨pool, pool', window, hsome, hsome', hperm, hsub⟩
    · rw [hnone, hnone']
    · rw [hsome, hsome', Option.bind_some, Option.bind_some,
        sortCandidates_perm hperm ((hsub.map _).nodup hnodup)]

end Order

/-- Two scenes in either order. -/
theorem plan_perm_swap :
    planMosaic squarePass (1 / 200) 8 true twoCatalogs .lowestCloud true none firstPage =
      planMosaic squarePass (1 / 200) 8 true twoCatalogs.reverse .lowestCloud true none firstPage :=
  plan_perm (1 / 200) 8 true (List.Perm.swap _ _ _) (by decide) .lowestCloud true none firstPage

end Mosaic
end Geofastmap
