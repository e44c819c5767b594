import Mathlib.MeasureTheory.Measure.AddContent
import Mathlib.Algebra.Order.Ring.Rat
import Geofastmap.Mosaic.Swap

/-!
# Geofastmap.Mosaic.Cover

What the greedy cover of an area selects, where footprints are sets with an additive measure and no
operation raises (`Exact`): `greedy_cover_sound`.
-/

namespace Geofastmap
namespace Mosaic

open MeasureTheory

variable {G : Type} {P : Type} {region : G → Set P} {m : AddContent ℚ≥0 (Set.range region)}

/-- The operations of Shapely are those of sets, `area` is a measure, boxes that do not meet have
footprints that share no area, and a query of the tree gives numbers, which have no `wkb`. -/
structure Exact (sh : Shapely G) (region : G → Set P) (m : AddContent ℚ≥0 (Set.range region)) :
    Prop where
  ring : IsSetRing (Set.range region)
  area : ∀ g, sh.area g = m (region g)
  isEmpty : ∀ g, sh.isEmpty g = true ↔ region g = ∅
  intersection : ∀ g h, ∃ k, sh.intersection g h = some k ∧ region k = region g ∩ region h
  difference : ∀ g h, ∃ k, sh.difference g h = some k ∧ region k = region g \ region h
  bounds : ∀ g h, boundsIntersect (sh.bounds g) (sh.bounds h) = false →
    m (region g ∩ region h) = 0
  query : ∀ geoms g found, sh.query geoms g = some found → found = []

/-- The union of the footprints. -/
def covered (region : G → Set P) (selected : List (Candidate G)) : Set P :=
  {p | ∃ c ∈ selected, p ∈ region c.geom}

theorem covered_nil : covered region [] = ∅ := by simp [covered]

theorem covered_append (selected more : List (Candidate G)) :
    covered region (selected ++ more) = covered region selected ∪ covered region more := by
  ext p
  simp [covered, or_and_right, exists_or]

theorem covered_singleton (c : Candidate G) : covered region [c] = region c.geom := by
  simp [covered]

/-- A candidate that is not selected, the first one with its key. -/
def Unused (cands selected : List (Candidate G)) (c : Candidate G) : Prop :=
  c.key ∉ selected.map Candidate.key ∧ cands.find? (fun d => d.key = c.key) = some c

/-- Each selected candidate covers some area that those before it do not. -/
def Gains (m : AddContent ℚ≥0 (Set.range region)) (area : Set P) (selected : List (Candidate G)) :
    Prop :=
  ∀ before c after, selected = before ++ c :: after →
    0 < m ((area \ covered region before) ∩ region c.geom)

/-- What a selection returns of an area: the selected candidates, what remains, and its share. -/
structure SoundRest (m : AddContent ℚ≥0 (Set.range region)) (aoi : G) (cands : List (Candidate G))
    (out : List (Candidate G) × Option G × Rat) : Prop where
  selection : Selection cands out.1
  rest : ∀ g ∈ out.2.1, region g = region aoi \ covered region out.1
  none_iff : out.2.1 = none ↔ region aoi \ covered region out.1 = ∅
  fraction : out.2.2 = m (region aoi \ covered region out.1) / m (region aoi)

/-- What the greedy cover returns besides: each candidate has a gain, and the cover ends at the
target, at the limit, where no candidate is left that has a gain, or below the marginal gain. -/
structure SoundCover (sh : Shapely G) (m : AddContent ℚ≥0 (Set.range region)) (target : CoverTarget)
    (minMarginal : Rat) (aoi : G) (cands : List (Candidate G)) (mode : SortMode)
    (out : List (Candidate G) × Option G × Rat) : Prop extends SoundRest m aoi cands out where
  gains : Gains m (region aoi) out.1
  stopped : 1 - target.minCoverage < out.2.2 →
    out.1.length = target.maxIterations ∨
    (∀ c, Unused cands out.1 c → m ((region aoi \ covered region out.1) ∩ region c.geom) = 0) ∨
    ∃ g ∈ out.2.1, ∃ pick, pickBest sh cands mode (out.1.map Candidate.key) g = some pick ∧
      pick.gain < m (region aoi \ covered region out.1) * max 0 (min 1 minMarginal)

/-! ## The best candidate -/

section Pick

variable {sh : Shapely G} (h : Exact sh region m) {mode : SortMode} {cands : List (Candidate G)}
include h

theorem gain_eq (remaining : G) (c : Candidate G) :
    ((sh.intersection remaining c.geom).map sh.area).getD 0 =
      (m (region remaining ∩ region c.geom) : Rat) := by
  obtain ⟨k, hk, hregion⟩ := h.intersection remaining c.geom
  rw [hk, Option.map_some, Option.getD_some, h.area, hregion]

/-- A candidate without gain is passed over. -/
theorem consider_zero (remaining : G) (pick : Option (Pick G)) {c : Candidate G}
    (hgain : m (region remaining ∩ region c.geom) = 0) :
    consider sh mode remaining pick c = pick := by
  unfold consider
  rw [gain_eq h, hgain]
  simp

/-- A candidate with a gain becomes the best one, or there is one already. -/
theorem consider_gain (remaining : G) (pick : Option (Pick G)) {c : Candidate G}
    (hgain : 0 < m (region remaining ∩ region c.geom)) :
    (∃ ratio, consider sh mode remaining pick c =
        some ⟨c, m (region remaining ∩ region c.geom), ratio⟩) ∨
      ∃ b, pick = some b ∧ consider sh mode remaining pick c = some b := by
  have hbounds : boundsIntersect (sh.bounds remaining) (sh.bounds c.geom) = true := by
    by_contra hapart
    exact hgain.ne' (h.bounds _ _ (Bool.eq_false_iff.mpr hapart))
  have hpos : ¬ ((m (region remaining ∩ region c.geom) : Rat) ≤ 0) := by
    rw [not_le]
    exact_mod_cast hgain
  unfold consider
  rw [gain_eq h, hbounds]
  extract_lets gain ratio
  simp only [gain, Bool.not_true, hpos, decide_false, Bool.or_false, Bool.false_eq_true, if_false]
  cases pick with
  | none => exact Or.inl ⟨_, rfl⟩
  | some b =>
    dsimp only
    split
    · exact Or.inl ⟨_, rfl⟩
    · exact Or.inr ⟨b, rfl, rfl⟩

/-- What the best candidate so far says of itself. -/
def PickOf (m : AddContent ℚ≥0 (Set.range region)) (remaining : G) (pick : Pick G) : Prop :=
  pick.gain = m (region remaining ∩ region pick.best.geom) ∧
    0 < m (region remaining ∩ region pick.best.geom)

theorem consider_pickOf (remaining : G) {start : Option (Pick G)}
    (hstart : ∀ b ∈ start, PickOf m remaining b) (c : Candidate G) :
    ∀ b ∈ consider sh mode remaining start c, PickOf m remaining b := by
  intro b hb
  rcases eq_or_ne (m (region remaining ∩ region c.geom)) 0 with hzero | hne
  · rw [consider_zero h remaining start hzero] at hb
    exact hstart b hb
  · have hpos := pos_iff_ne_zero.mpr hne
    rcases consider_gain h remaining start hpos with ⟨ratio, hc⟩ | ⟨b', hb', hc⟩
    · rw [hc] at hb
      cases hb
      exact ⟨rfl, hpos⟩
    · rw [hc] at hb
      exact hstart b (hb'.trans hb)

theorem foldl_pickOf (remaining : G) (pool : List (Candidate G)) {start : Option (Pick G)}
    (hstart : ∀ b ∈ start, PickOf m remaining b) :
    ∀ b ∈ pool.foldl (consider sh mode remaining) start, PickOf m remaining b := by
  induction pool generalizing start with
  | nil => exact hstart
  | cons c pool ih => exact ih (consider_pickOf h remaining hstart c)

/-- Without a best candidate no candidate has a gain. -/
theorem foldl_none (remaining : G) (pool : List (Candidate G)) {start : Option (Pick G)}
    (hnone : pool.foldl (consider sh mode remaining) start = none) :
    start = none ∧ ∀ c ∈ pool, m (region remaining ∩ region c.geom) = 0 := by
  induction pool generalizing start with
  | nil => exact ⟨hnone, by simp⟩
  | cons c pool ih =>
    obtain ⟨hc, hpool⟩ := ih hnone
    rcases eq_or_ne (m (region remaining ∩ region c.geom)) 0 with hzero | hne
    · rw [consider_zero h remaining start hzero] at hc
      refine ⟨hc, fun d hd => ?_⟩
      rcases List.mem_cons.mp hd with rfl | hd
      · exact hzero
      · exact hpool d hd
    · have hpos := pos_iff_ne_zero.mpr hne
      rcases consider_gain h remaining start hpos with ⟨ratio, hs⟩ | ⟨b, -, hs⟩ <;>
        rw [hs] at hc <;> cases hc

/-- The tree finds nothing, and all candidates are looked at. -/
theorem coverPool_eq (remaining : G) : coverPool sh cands remaining = cands := by
  unfold coverPool
  cases hq : sh.query (cands.map Candidate.geom) remaining with
  | none =>
    dsimp only
    split <;> rfl
  | some found =>
    rw [h.query _ _ _ hq]
    rfl

theorem pickBest_none {selected : List (Candidate G)} {remaining : G}
    (hnone : pickBest sh cands mode (selected.map Candidate.key) remaining = none) :
    ∀ c, Unused cands selected c → m (region remaining ∩ region c.geom) = 0 := by
  unfold pickBest at hnone
  rw [coverPool_eq h] at hnone
  intro c hc
  exact (foldl_none h remaining _ hnone).2 c ((Keyed.mem_keepFirst _).mpr hc)

theorem pickBest_pickOf {usedKeys : List Text} {remaining : G} {pick : Pick G}
    (hpick : pickBest sh cands mode usedKeys remaining = some pick) : PickOf m remaining pick :=
  foldl_pickOf h remaining _ (by simp) pick hpick

end Pick

/-! ## The loop -/

theorem covered_snoc (selected : List (Candidate G)) (c : Candidate G) :
    covered region (selected ++ [c]) = covered region selected ∪ region c.geom := by
  rw [covered_append, covered_singleton]

theorem Gains.snoc {area : Set P} {selected : List (Candidate G)} (hgains : Gains m area selected)
    {c : Candidate G} (hc : 0 < m ((area \ covered region selected) ∩ region c.geom)) :
    Gains m area (selected ++ [c]) := by
  intro before d after hsplit
  rcases List.eq_nil_or_concat after with rfl | ⟨after', e, rfl⟩
  · obtain ⟨hbefore, hd⟩ := List.append_inj' hsplit rfl
    cases hd
    exact hbefore ▸ hc
  · rw [List.concat_eq_append, ← List.cons_append, ← List.append_assoc] at hsplit
    exact hgains before d after' (List.append_inj' hsplit rfl).1

/-- Between two rounds of the loop. -/
structure CoverState (m : AddContent ℚ≥0 (Set.range region)) (aoi : G) (cands : List (Candidate G))
    (selected : List (Candidate G)) (remaining : G) : Prop where
  selection : Selection cands selected
  gains : Gains m (region aoi) selected
  rest : region remaining = region aoi \ covered region selected

/-- Why the loop ends. -/
def Stops (sh : Shapely G) (m : AddContent ℚ≥0 (Set.range region)) (target : CoverTarget)
    (minMarginal : Rat) (aoi : G) (cands : List (Candidate G)) (mode : SortMode)
    (selected : List (Candidate G)) (remaining : G) : Prop :=
  (m (region remaining) / m (region aoi) : Rat) ≤ 1 - target.minCoverage ∨
    selected.length = target.maxIterations ∨
    (∀ c, Unused cands selected c → m (region remaining ∩ region c.geom) = 0) ∨
    ∃ pick, pickBest sh cands mode (selected.map Candidate.key) remaining = some pick ∧
      pick.gain < m (region remaining) * minMarginal

section Loop

variable {sh : Shapely G} (h : Exact sh region m) {mode : SortMode} {cands : List (Candidate G)}
  {aoi : G}
include h

theorem CoverState.add {selected : List (Candidate G)} {remaining rest : G} {pick : Pick G}
    (hstate : CoverState m aoi cands selected remaining)
    (hpick : pickBest sh cands mode (selected.map Candidate.key) remaining = some pick)
    (hrest : sh.difference remaining pick.best.geom = some rest) :
    CoverState m aoi cands (selected ++ [pick.best]) rest := by
  obtain ⟨hmem, hnew⟩ := pickBest_mem sh hpick
  have hgain := (pickBest_pickOf h hpick).2
  rw [hstate.rest] at hgain
  obtain ⟨k, hk, hregion⟩ := h.difference remaining pick.best.geom
  cases hk.symm.trans hrest
  refine ⟨hstate.selection.add hmem hnew, hstate.gains.snoc hgain, ?_⟩
  rw [hregion, hstate.rest, covered_snoc, Set.sdiff_sdiff]

/-- Where nothing remains there is nothing to gain. -/
theorem no_gain_of_zero {s : Set P} (hs : s ∈ Set.range region) (hzero : m s = 0) (g : G) :
    m (s ∩ region g) = 0 := by
  obtain ⟨g', rfl⟩ := hs
  obtain ⟨k, -, hk⟩ := h.intersection g' g
  have hsub := addContent_mono (m := m) h.ring.isSetSemiring (hk ▸ Set.mem_range_self k)
    (Set.mem_range_self g') (Set.inter_subset_left (t := region g))
  exact le_antisymm (hzero ▸ hsub) zero_le

theorem greedyFrom_spec (target : CoverTarget) (minMarginal : Rat) (n : Nat) {remaining : G}
    {selected : List (Candidate G)} (hstate : CoverState m aoi cands selected remaining)
    (hn : selected.length + n = target.maxIterations) :
    let out := greedyFrom sh target.minCoverage (sh.area aoi) minMarginal cands mode n remaining
      selected
    CoverState m aoi cands out.1 out.2 ∧
      Stops sh m target minMarginal aoi cands mode out.1 out.2 := by
  induction n generalizing remaining selected with
  | zero => exact ⟨hstate, Or.inr (Or.inl hn)⟩
  | succ n ih =>
    unfold greedyFrom
    split
    · rename_i hdone
      refine ⟨hstate, ?_⟩
      simp only [Bool.or_eq_true, decide_eq_true_eq] at hdone
      rcases hdone with (hcovered | hempty) | hzero
      · left
        rwa [h.area, h.area] at hcovered
      · refine Or.inr (Or.inr (Or.inl fun c _ => ?_))
        rw [(h.isEmpty remaining).mp hempty, Set.empty_inter, addContent_empty]
      · refine Or.inr (Or.inr (Or.inl fun c _ => ?_))
        rw [h.area] at hzero
        have hzero : m (region remaining) ≤ 0 := by exact_mod_cast hzero
        exact no_gain_of_zero h (Set.mem_range_self _) (le_antisymm hzero zero_le) c.geom
    · split
      · rename_i hnone
        exact ⟨hstate, Or.inr (Or.inr (Or.inl (pickBest_none h hnone)))⟩
      next pick hpick =>
        split
        · rename_i hmarginal
          simp only [Bool.and_eq_true, decide_eq_true_eq] at hmarginal
          refine ⟨hstate, Or.inr (Or.inr (Or.inr ⟨pick, hpick, ?_⟩))⟩
          rw [← h.area]
          exact hmarginal.2
        · split
          · rename_i hnone
            obtain ⟨k, hk, -⟩ := h.difference remaining pick.best.geom
            rw [hk] at hnone
            cases hnone
          next rest hrest =>
            have hadd := hstate.add h hpick hrest
            split
            · rename_i hempty
              refine ⟨hadd, Or.inr (Or.inr (Or.inl fun c _ => ?_))⟩
              rw [(h.isEmpty rest).mp hempty, Set.empty_inter, addContent_empty]
            · refine ih hadd ?_
              rw [List.length_append, List.length_singleton]
              omega

end Loop

/-- For each target and each list of candidates. -/
theorem greedy_cover_sound {sh : Shapely G} (h : Exact sh region m) (target : CoverTarget)
    (minMarginal : Rat) {aoi : G} (haoi : 0 < sh.area aoi) (cands : List (Candidate G))
    (mode : SortMode) :
    SoundCover sh m target minMarginal aoi cands mode
      (greedyCoverTarget sh target minMarginal aoi cands mode) := by
  have hpos : 0 < m (region aoi) := by
    rw [h.area] at haoi
    exact_mod_cast haoi
  have hstart : CoverState m aoi cands [] aoi := by
    refine ⟨⟨by simp, by simp⟩, ?_, by rw [covered_nil, Set.sdiff_empty]⟩
    intro before c after hsplit
    simp at hsplit
  unfold greedyCoverTarget
  split
  · rename_i hnone
    have hcands : cands = [] := by simpa [not_le.mpr haoi] using hnone
    have hne : (m (region aoi) : Rat) ≠ 0 := by exact_mod_cast hpos.ne'
    subst hcands
    refine ⟨⟨hstart.selection, ?_, ?_, ?_⟩, hstart.gains, ?_⟩
    · rintro g ⟨⟩
      exact hstart.rest
    · rw [← hstart.rest]
      simp only [reduceCtorEq, false_iff]
      intro hempty
      rw [hempty, addContent_empty] at hpos
      exact lt_irrefl _ hpos
    · rw [← hstart.rest, div_self hne]
    · exact fun _ => Or.inr (Or.inl fun c hc => by simp [Unused] at hc)
  · obtain ⟨hstate, hstops⟩ := greedyFrom_spec h target (max 0 (min 1 minMarginal))
      target.maxIterations hstart (by simp)
    dsimp only
    generalize greedyFrom sh target.minCoverage (sh.area aoi) (max 0 (min 1 minMarginal)) cands mode
      target.maxIterations aoi [] = out at hstate hstops
    obtain ⟨selected, remaining⟩ := out
    dsimp only at hstate hstops
    split
    · rename_i hempty
      have hrest : region aoi \ covered region selected = ∅ :=
        hstate.rest ▸ (h.isEmpty remaining).mp hempty
      refine ⟨⟨hstate.selection, ?_, ?_, ?_⟩, hstate.gains, ?_⟩
      · rintro g ⟨⟩
      · simp [hrest]
      · simp [hrest]
      · refine fun _ => Or.inr (Or.inl fun c _ => ?_)
        dsimp only
        rw [hrest, Set.empty_inter, addContent_empty]
    · rename_i hsome
      refine ⟨⟨hstate.selection, ?_, ?_, ?_⟩, hstate.gains, ?_⟩
      · rintro g ⟨⟩
        exact hstate.rest
      · rw [← hstate.rest, ← h.isEmpty]
        simpa using hsome
      · dsimp only
        rw [h.area, h.area, hstate.rest]
      · intro hmore
        dsimp only at hmore ⊢
        rw [← hstate.rest]
        rcases hstops with hcovered | hlength | hnogain | ⟨pick, hpick, hmarginal⟩
        · rw [h.area, h.area] at hmore
          exact absurd hcovered (not_le.mpr hmore)
        · exact Or.inl hlength
        · exact Or.inr (Or.inl hnogain)
        · exact Or.inr (Or.inr ⟨remaining, rfl, pick, hpick, hmarginal⟩)

end Mosaic
end Geofastmap
