import Mathlib.Tactic.Linarith
import Geofastmap.Mosaic.Strips

/-!
# Geofastmap.Mosaic.Leftover

What a selection leaves of an area, in both modes: at most the target, or its size is the limit, or
each candidate has a gain that is below the marginal gain, up to the tolerance with which gains are
compared (`Leftover`).

So a selection from candidates that include another selection does not leave much more than that
one (`leftover_bound`).
-/

namespace Geofastmap
namespace Mosaic

open MeasureTheory

/-- Two gains that are this near are not told apart by `_greedy_pick_better`. -/
def tolerance : Rat := 1 / 1000000000000

theorem tolerance_pos : 0 < tolerance := by norm_num [tolerance]

theorem greedyPickBetter_near (g1 r1 : Rat) (t1 : Rat × Text) (g2 r2 : Rat) (t2 : Rat × Text) :
    if greedyPickBetter g1 r1 t1 g2 r2 t2 then g2 ≤ g1 + tolerance else g1 ≤ g2 + tolerance := by
  have hpos := tolerance_pos
  unfold greedyPickBetter
  rw [← tolerance]
  by_cases h1 : g1 > g2 + tolerance
  · rw [if_pos h1, if_pos rfl]
    linarith
  · rw [if_neg h1]
    by_cases h2 : g2 > g1 + tolerance
    · rw [if_pos h2, if_neg (by simp)]
      linarith
    · rw [if_neg h2]
      generalize (if r1 > r2 + 1 / 1000000000000000 then true
        else if r2 > r1 + 1 / 1000000000000000 then false else tupleLt t1 t2) = better
      cases better
      · exact not_lt.mp h1
      · exact not_lt.mp h2

variable {G : Type} {P : Type} {region : G → Set P} {m : AddContent ℚ≥0 (Set.range region)}

/-- The gain of the best candidate so far. -/
def gainOf (pick : Option (Pick G)) : Rat := (pick.map Pick.gain).getD 0

/-! ## The best gain -/

section Best

variable {sh : Shapely G} (h : Exact sh region m) {mode : SortMode} {cands : List (Candidate G)}
include h

/-- The gain of the best candidate goes down by the tolerance at most, and is not below that of the
candidate by more. -/
theorem consider_gainOf (mode : SortMode) (remaining : G) {pick : Option (Pick G)}
    (hpick : 0 ≤ gainOf pick) (c : Candidate G) :
    0 ≤ gainOf (consider sh mode remaining pick c) ∧
      gainOf pick ≤ gainOf (consider sh mode remaining pick c) + tolerance ∧
      m (region remaining ∩ region c.geom) ≤
        gainOf (consider sh mode remaining pick c) + tolerance := by
  have hpos := tolerance_pos
  rcases eq_or_ne (m (region remaining ∩ region c.geom)) 0 with hzero | hne
  · rw [consider_zero h remaining pick hzero, hzero]
    refine ⟨hpick, by linarith, ?_⟩
    push_cast
    linarith
  · have hgain := pos_iff_ne_zero.mpr hne
    have hle : (0 : Rat) ≤ m (region remaining ∩ region c.geom) := NNRat.cast_nonneg _
    have hbounds : boundsIntersect (sh.bounds remaining) (sh.bounds c.geom) = true := by
      by_contra hapart
      exact hne (h.bounds _ _ (Bool.eq_false_iff.mpr hapart))
    have hsome : ¬ ((m (region remaining ∩ region c.geom) : Rat) ≤ 0) := by
      rw [not_le]
      exact_mod_cast hgain
    unfold consider
    rw [gain_eq h, hbounds]
    extract_lets gain ratio
    simp only [gain, Bool.not_true, hsome, decide_false, Bool.or_false, Bool.false_eq_true,
      if_false]
    cases pick with
    | none =>
      simp only [gainOf, Option.map_none, Option.map_some, Option.getD_none, Option.getD_some]
      refine ⟨hle, ?_, ?_⟩ <;> linarith
    | some b =>
      have hbetter := greedyPickBetter_near (m (region remaining ∩ region c.geom)) ratio
        (sortKey mode c) b.gain b.ratio (sortKey mode b.best)
      dsimp only
      split
      · rename_i htrue
        rw [if_pos htrue] at hbetter
        simp only [gainOf, Option.map_some, Option.getD_some]
        exact ⟨hle, hbetter, by linarith⟩
      · rename_i hfalse
        rw [if_neg hfalse] at hbetter
        simp only [gainOf, Option.map_some, Option.getD_some] at hpick ⊢
        exact ⟨hpick, by linarith, hbetter⟩

theorem foldl_gainOf (mode : SortMode) (remaining : G) (pool : List (Candidate G))
    {pick : Option (Pick G)} (hpick : 0 ≤ gainOf pick) :
    gainOf pick ≤ gainOf (pool.foldl (consider sh mode remaining) pick) + pool.length * tolerance ∧
      ∀ c ∈ pool, m (region remaining ∩ region c.geom) ≤
        gainOf (pool.foldl (consider sh mode remaining) pick) + pool.length * tolerance := by
  have hpos := tolerance_pos
  induction pool generalizing pick with
  | nil => simp
  | cons c pool ih =>
    obtain ⟨hnonneg, hdown, hgain⟩ := consider_gainOf h mode remaining hpick c
    obtain ⟨hrest, hpool⟩ := ih hnonneg
    simp only [List.foldl_cons, List.length_cons, Nat.cast_add, Nat.cast_one]
    refine ⟨by linarith, fun d hd => ?_⟩
    rcases List.mem_cons.mp hd with rfl | hd
    · linarith
    · have := hpool d hd
      linarith

/-- No candidate that is left has a gain above that of the best one. -/
theorem pickBest_gain {selected : List (Candidate G)} {remaining : G} {pick : Pick G}
    (hpick : pickBest sh cands mode (selected.map Candidate.key) remaining = some pick)
    {c : Candidate G} (hc : Unused cands selected c) :
    m (region remaining ∩ region c.geom) ≤ pick.gain + cands.length * tolerance := by
  have hpos := tolerance_pos
  unfold pickBest at hpick
  rw [coverPool_eq h] at hpick
  have hnone : 0 ≤ gainOf (none : Option (Pick G)) := le_refl 0
  have hbest := (foldl_gainOf h mode remaining
    (Keyed.keepFirst Candidate.key (selected.map Candidate.key) cands) hnone).2 c
      ((Keyed.mem_keepFirst _).mpr hc)
  rw [hpick] at hbest
  have hlength : ((Keyed.keepFirst Candidate.key (selected.map Candidate.key) cands).length : Rat) ≤
      cands.length := by
    exact_mod_cast (Keyed.keepFirst_sublist Candidate.key _ cands).length_le
  have hscaled := mul_le_mul_of_nonneg_right hlength (le_of_lt hpos)
  simp only [gainOf, Option.map_some, Option.getD_some] at hbest
  linarith

end Best

/-! ## What is left -/

/-- The marginal gain as the greedy cover uses it. -/
def marginal (minMarginal : Rat) : Rat := max 0 (min 1 minMarginal)

/-- Why a selection leaves as much of an area as it does. -/
def Leftover (m : AddContent ℚ≥0 (Set.range region)) (minMarginal : Rat) (aoi : G)
    (cands selected : List (Candidate G)) : Prop :=
  (m (region aoi \ covered region selected) : Rat) ≤ m (region aoi) * (5 / 1000) ∨
    500 ≤ selected.length ∨
    ∀ c ∈ cands, (m ((region aoi \ covered region selected) ∩ region c.geom) : Rat) ≤
      m (region aoi \ covered region selected) * marginal minMarginal + cands.length * tolerance

/-- A selected candidate has nothing of what is left. -/
theorem rest_inter_selected {area : Set P} {selected : List (Candidate G)} {c : Candidate G}
    (hc : c ∈ selected) : (area \ covered region selected) ∩ region c.geom = ∅ := by
  ext p
  simp only [Set.mem_inter_iff, Set.mem_sdiff, Set.mem_empty_iff_false, iff_false]
  rintro ⟨⟨-, hout⟩, hp⟩
  exact hout ⟨c, hc, hp⟩

theorem unused_of_not_mem {cands selected : List (Candidate G)}
    (hkeys : (cands.map Candidate.key).Nodup) {c : Candidate G} (hc : c ∈ cands)
    (hnew : c.key ∉ selected.map Candidate.key) : Unused cands selected c := by
  refine ⟨hnew, ?_⟩
  cases hfind : cands.find? fun d => d.key = c.key with
  | none =>
    have hnone := List.find?_eq_none.mp hfind c hc
    simp at hnone
  | some d =>
    have hkey : d.key = c.key := by simpa using List.find?_some hfind
    rw [List.inj_on_of_nodup_map hkeys (List.mem_of_find?_eq_some hfind) hc hkey]

/-- A candidate is selected, or it is left. -/
theorem Selection.cases {cands selected : List (Candidate G)} (h : Selection cands selected)
    (hkeys : (cands.map Candidate.key).Nodup) {c : Candidate G} (hc : c ∈ cands) :
    c ∈ selected ∨ Unused cands selected c := by
  by_cases hmem : c.key ∈ selected.map Candidate.key
  · obtain ⟨d, hd, hkey⟩ := List.mem_map.mp hmem
    left
    rwa [← List.inj_on_of_nodup_map hkeys (h.subset d hd) hc hkey]
  · exact Or.inr (unused_of_not_mem hkeys hc hmem)

section Leave

variable {sh : PassShapely G} (h : ExactPass sh region m) {mode : SortMode}
  {cands : List (Candidate G)} (hkeys : (cands.map Candidate.key).Nodup)

/-- The bound of a candidate with no gain. -/
theorem zero_le_leftover (minMarginal : Rat) (s : Set P) (n : Nat) :
    (0 : Rat) ≤ m s * marginal minMarginal + n * tolerance := by
  have hmarginal : 0 ≤ marginal minMarginal := le_max_left 0 _
  have htolerance := tolerance_pos
  have hnonneg : (0 : Rat) ≤ m s := NNRat.cast_nonneg _
  positivity

/-- A selected candidate has no gain. -/
theorem gain_le_of_mem {area : Set P} {selected : List (Candidate G)} {c : Candidate G}
    (hc : c ∈ selected) (minMarginal : Rat) (s : Set P) (n : Nat) :
    (m ((area \ covered region selected) ∩ region c.geom) : Rat) ≤
      m s * marginal minMarginal + n * tolerance := by
  rw [rest_inter_selected hc, addContent_empty]
  exact_mod_cast zero_le_leftover minMarginal s n

include hkeys in
/-- The bound need only hold of candidates that are left. -/
theorem gain_le_of_unused {aoi : G} {selected : List (Candidate G)}
    (hsel : Selection cands selected) (minMarginal : Rat)
    (hunused : ∀ c, Unused cands selected c →
      (m ((region aoi \ covered region selected) ∩ region c.geom) : Rat) ≤
        m (region aoi \ covered region selected) * marginal minMarginal +
          cands.length * tolerance) :
    ∀ c ∈ cands, (m ((region aoi \ covered region selected) ∩ region c.geom) : Rat) ≤
      m (region aoi \ covered region selected) * marginal minMarginal +
        cands.length * tolerance := by
  intro c hc
  rcases hsel.cases hkeys hc with hmem | hnew
  · exact gain_le_of_mem hmem _ _ _
  · exact hunused c hnew

include h hkeys

theorem greedy_leftover (minMarginal : Rat) {aoi : G} (haoi : 0 < sh.area aoi) :
    Leftover m minMarginal aoi cands
      (greedyCoverAoi sh.toShapely minMarginal aoi cands mode).1 := by
  have hsound := greedy_cover_sound h.toExact {} minMarginal haoi cands mode
  rw [← greedyCoverAoi] at hsound
  generalize greedyCoverAoi sh.toShapely minMarginal aoi cands mode = out at hsound
  rw [h.area] at haoi
  by_cases hmore : (m (region aoi \ covered region out.1) : Rat) ≤ m (region aoi) * (5 / 1000)
  · exact Or.inl hmore
  · right
    have htarget : 1 - ({} : CoverTarget).minCoverage = 5 / 1000 := by norm_num
    have hmore : 1 - ({} : CoverTarget).minCoverage < out.2.2 := by
      rw [htarget, hsound.fraction, lt_div_iff₀ haoi]
      linarith
    rcases hsound.stopped hmore with hlength | hnogain | ⟨g, hg, pick, hpick, hmarginal⟩
    · exact Or.inl (le_of_eq hlength.symm)
    · refine Or.inr (gain_le_of_unused hkeys hsound.selection minMarginal fun c hc => ?_)
      rw [hnogain c hc]
      exact_mod_cast zero_le_leftover _ _ _
    · refine Or.inr (gain_le_of_unused hkeys hsound.selection minMarginal fun c hc => ?_)
      have hgain := pickBest_gain h.toExact hpick hc
      rw [hsound.rest g hg] at hgain
      rw [marginal]
      linarith

omit hkeys in
/-- Less of an area has a smaller measure. -/
theorem rest_le (aoi : G) (selected : List (Candidate G)) :
    m (region aoi \ covered region selected) ≤ m (region aoi) := by
  obtain ⟨rest, -, -, hrest⟩ := uncoveredBy_spec h aoi selected
  refine addContent_mono h.ring.isSetSemiring ?_ (Set.mem_range_self aoi) Set.sdiff_subset
  exact hrest ▸ Set.mem_range_self rest

/-- Gaps are filled as the greedy cover fills an area. -/
theorem gapFill_leftover (minMarginal : Rat) {aoi remaining : G} {selected : List (Candidate G)}
    (hsel : Selection cands selected)
    (hrest : region remaining = region aoi \ covered region selected) :
    Leftover m minMarginal aoi cands
      (gapFill sh minMarginal aoi remaining cands selected mode).1 := by
  unfold gapFill
  extract_lets gapPool added
  have hpool : ∀ c ∈ cands, c ∈ selected ∨ c ∈ gapPool := by
    intro c hc
    rcases hsel.cases hkeys hc with hmem | hnew
    · exact Or.inl hmem
    · exact Or.inr (List.mem_filter.mpr ⟨hc, by simpa using hnew.1⟩)
  split
  · rename_i hnone
    -- nothing is left, or every candidate is selected
    simp only [Bool.or_eq_true, List.isEmpty_iff] at hnone
    rcases hnone with hnone | hempty
    · refine Or.inr (Or.inr fun c hc => ?_)
      rcases hpool c hc with hmem | hmem
      · exact gain_le_of_mem hmem _ _ _
      · rw [hnone] at hmem
        cases hmem
    · left
      dsimp only
      rw [← hrest, (h.isEmpty remaining).mp hempty, addContent_empty]
      positivity
  · obtain ⟨rest, huncovered, -, -⟩ := uncoveredBy_spec h aoi added
    rw [huncovered]
    dsimp only
    have hgap := greedyCoverTarget_selection sh.toShapely {} minMarginal remaining gapPool mode
    have hpoolKeys : (gapPool.map Candidate.key).Nodup :=
      (List.filter_sublist.map Candidate.key).nodup hkeys
    have hgreedy : 0 < sh.area remaining → Leftover m minMarginal remaining gapPool
        (greedyCoverAoi sh.toShapely minMarginal remaining gapPool mode).1 :=
      fun harea => greedy_leftover h hpoolKeys minMarginal harea
    have hadded : added = selected ++
        (greedyCoverAoi sh.toShapely minMarginal remaining gapPool mode).1 := by
      refine congrArg (selected ++ ·) (Keyed.keepFirst_of_nodup _ hgap.nodup fun c hc => ?_)
      have hnew := (List.mem_filter.mp (hgap.subset c hc)).2
      simpa using hnew
    rw [← greedyCoverAoi] at hgap
    generalize (greedyCoverAoi sh.toShapely minMarginal remaining gapPool mode).1 = more at *
    have hleft : region aoi \ covered region added = region remaining \ covered region more := by
      rw [hrest, hadded, covered_append, Set.sdiff_sdiff]
    have hle := rest_le h aoi selected
    rw [← hrest] at hle
    have hmore := rest_le h remaining more
    unfold Leftover
    rw [hleft]
    by_cases harea : 0 < sh.area remaining
    · rcases hgreedy harea with htarget | hlength | hgains
      · left
        have hle : (m (region remaining) : Rat) ≤ m (region aoi) := by exact_mod_cast hle
        linarith
      · right; left
        rw [hadded, List.length_append]
        omega
      · refine Or.inr (Or.inr fun c hc => ?_)
        rcases hpool c hc with hmem | hmem
        · have hsel' : c ∈ added := hadded ▸ List.mem_append_left _ hmem
          rw [← hleft]
          exact gain_le_of_mem hsel' _ _ _
        · have hgain := hgains c hmem
          have hlength : (gapPool.length : Rat) ≤ cands.length := by
            exact_mod_cast List.length_filter_le _ _
          have hscaled := mul_le_mul_of_nonneg_right hlength (le_of_lt tolerance_pos)
          linarith
    · left
      rw [h.area, not_lt] at harea
      have hmore : (m (region remaining \ covered region more) : Rat) ≤ m (region remaining) := by
        exact_mod_cast hmore
      have haoi : (0 : Rat) ≤ m (region aoi) := NNRat.cast_nonneg _
      linarith

theorem same_pass_leftover (minMarginal : Rat) (numStrips : Int) {aoi : G}
    (haoi : 0 < sh.area aoi) :
    Leftover m minMarginal aoi cands
      (samePassDateStripsSelect sh minMarginal numStrips aoi cands mode).1 := by
  unfold samePassDateStripsSelect
  extract_lets selected remaining
  split
  · exact greedy_leftover h hkeys minMarginal haoi
  · have hsel : Selection cands selected := stripsSelected_selection minMarginal numStrips aoi
    have hregion : region remaining = region aoi \ covered region selected :=
      region_remaining h aoi selected
    have hleft : Leftover m minMarginal aoi cands
        (gapFill sh minMarginal aoi remaining cands selected mode).1 :=
      gapFill_leftover h hkeys minMarginal hsel hregion
    obtain ⟨selected', rest', hgap, hsel', -⟩ :
        ∃ selected' rest', gapFill sh minMarginal aoi remaining cands selected mode =
          (selected', rest') ∧ Selection cands selected' ∧
            region rest' = region aoi \ covered region selected' :=
      gapFill_spec h minMarginal hsel hregion
    rw [hgap] at hleft ⊢
    dsimp only at hleft ⊢
    rw [hsel'.dedupe]
    split
    · exact hleft
    · exact hleft

end Leave

/-! ## Two selections -/

section Bound

variable {sh : PassShapely G} (h : ExactPass sh region m)
include h

omit h in
theorem covered_cons (c : Candidate G) (selected : List (Candidate G)) :
    covered region (c :: selected) = region c.geom ∪ covered region selected := by
  rw [← List.singleton_append, covered_append, covered_singleton]

/-- An area is no more than what some candidates leave of it and what they have of it. -/
theorem area_le (selected : List (Candidate G)) {s : Set P} (hs : s ∈ Set.range region)
    {bound : Rat} (hbound : ∀ c ∈ selected, (m (s ∩ region c.geom) : Rat) ≤ bound) :
    (m s : Rat) ≤ m (s \ covered region selected) + selected.length * bound := by
  induction selected generalizing s with
  | nil => simp [covered_nil]
  | cons c selected ih =>
    have hc : region c.geom ∈ Set.range region := Set.mem_range_self _
    have hrest : s \ region c.geom ∈ Set.range region := h.ring.sdiff_mem hs hc
    have hparts : m s = m (s ∩ region c.geom) + m (s \ region c.geom) := by
      rw [← addContent_union h.ring (h.ring.inter_mem hs hc) hrest disjoint_inf_sdiff,
        Set.inter_union_sdiff]
    have hless : ∀ d ∈ selected, (m ((s \ region c.geom) ∩ region d.geom) : Rat) ≤ bound := by
      intro d hd
      have hd' : region d.geom ∈ Set.range region := Set.mem_range_self _
      have hle := addContent_mono (m := m) h.ring.isSetSemiring (h.ring.inter_mem hrest hd')
        (h.ring.inter_mem hs hd') (Set.inter_subset_inter_left _ Set.sdiff_subset)
      have hle : (m ((s \ region c.geom) ∩ region d.geom) : Rat) ≤ m (s ∩ region d.geom) := by
        exact_mod_cast hle
      exact hle.trans (hbound d (List.mem_cons_of_mem c hd))
    have hmore := ih hrest hless
    have hfirst := hbound c List.mem_cons_self
    have hcovered : (s \ region c.geom) \ covered region selected =
        s \ covered region (c :: selected) := by
      rw [Set.sdiff_sdiff, covered_cons]
    rw [hcovered] at hmore
    rw [hparts]
    push_cast [List.length_cons]
    linarith

/-- What a selection leaves, of candidates that include those of another selection. -/
theorem leftover_bound {minMarginal : Rat} {aoi : G} {cands earlier later : List (Candidate G)}
    (hleft : Leftover m minMarginal aoi cands later) (hkept : ∀ c ∈ earlier, c ∈ cands) :
    (m (region aoi \ covered region later) : Rat) ≤ m (region aoi) * (5 / 1000) ∨
      500 ≤ later.length ∨
      (m (region aoi \ covered region later) : Rat) * (1 - earlier.length * marginal minMarginal) ≤
        m (region aoi \ covered region earlier) +
          earlier.length * (cands.length * tolerance) := by
  rcases hleft with htarget | hlength | hgains
  · exact Or.inl htarget
  · exact Or.inr (Or.inl hlength)
  · right; right
    have hmem : ∀ selected : List (Candidate G),
        region aoi \ covered region selected ∈ Set.range region := by
      intro selected
      obtain ⟨rest, -, -, hrest⟩ := uncoveredBy_spec h aoi selected
      exact hrest ▸ Set.mem_range_self rest
    have harea := area_le h earlier (hmem later) fun c hc => hgains c (hkept c hc)
    have hsub : (region aoi \ covered region later) \ covered region earlier ⊆
        region aoi \ covered region earlier := Set.sdiff_subset_sdiff_left Set.sdiff_subset
    have hrest : (region aoi \ covered region later) \ covered region earlier ∈
        Set.range region := by
      rw [Set.sdiff_sdiff, ← covered_append]
      exact hmem _
    have hle := addContent_mono (m := m) h.ring.isSetSemiring hrest (hmem earlier) hsub
    have hle : (m ((region aoi \ covered region later) \ covered region earlier) : Rat) ≤
        m (region aoi \ covered region earlier) := by exact_mod_cast hle
    linarith

end Bound

end Mosaic
end Geofastmap
