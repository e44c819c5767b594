import Geofastmap.Calendar.Date
import Geofastmap.Mosaic.Cover

/-!
# Geofastmap.Mosaic.Strips

The selection of one acquisition day for each strip of longitude: `same_pass_date_strips_select`.
What remains of the area is what its selection does not cover, as for the greedy cover
(`covers_sound`).
-/

namespace Geofastmap
namespace Mosaic

open Calendar MeasureTheory

/-- `geom_type`. -/
inductive GeomType where
  | polygon | multiPolygon | geometryCollection | other
deriving DecidableEq, Repr

/-- What the mode of one pass takes besides: more of Shapely, and `dt.date()`. -/
structure PassShapely (G : Type) extends Shapely G where
  geomType : G → GeomType
  geoms : G → List G
  isValid : G → Option Bool
  makeValid : G → Option G
  unaryUnion : List G → Option G
  box : Rat → Rat → Rat → Rat → G
  centroidX : G → Rat
  date : Rat → Date

variable {G : Type} (sh : PassShapely G)

/-- `Polygon` or `MultiPolygon`. -/
def isPolygonal (g : G) : Bool := sh.geomType g == .polygon || sh.geomType g == .multiPolygon

/-- `_polygonal_part`. -/
def polygonalPart (g : G) : Option G :=
  if sh.isEmpty g then none
  else match sh.geomType g with
    | .polygon | .multiPolygon => some g
    | .geometryCollection =>
      let polys := (sh.geoms g).filter (isPolygonal sh)
      if polys.isEmpty then none else (sh.unaryUnion polys).filter fun u => !sh.isEmpty u
    | .other => none

/-- `_union_candidate_geoms`. -/
def unionCandidateGeoms (selected : List (Candidate G)) : Option G :=
  if selected.isEmpty then none
  else (sh.unaryUnion (selected.map Candidate.geom)).filter fun u => !sh.isEmpty u

/-- `_dedupe_candidates_by_key`. -/
def dedupeCandidatesByKey (cands : List (Candidate G)) : List (Candidate G) :=
  Keyed.keepFirst Candidate.key [] cands

/-- `_mean_cloud_candidates`. -/
def meanCloudCandidates (cands : List (Candidate G)) : Rat :=
  let xs := cands.filterMap Candidate.cloud
  if xs.isEmpty then 50 else xs.sum / xs.length

/-! ## Strips -/

/-- The polygons of a geometry that is not cut. -/
def wholeStrips (g : G) : List G :=
  match sh.geomType g with
  | .polygon => [g]
  | .multiPolygon => sh.geoms g
  | _ => []

/-- The polygons of one column. -/
def columnStrips (g strip : G) : List G :=
  match sh.intersection g strip with
  | none => []
  | some inter =>
    if sh.isEmpty inter then []
    else match sh.geomType inter with
      | .polygon => [inter]
      | .multiPolygon => (sh.geoms inter).filter fun pg => !sh.isEmpty pg && 0 < sh.area pg
      | _ => []

/-- The geometry that is cut into strips. -/
def validAoi (aoi : G) : G :=
  (do
    let g ← if sh.geomType aoi = GeomType.multiPolygon then sh.unaryUnion (sh.geoms aoi) else some aoi
    if ← sh.isValid g then return g else sh.makeValid g).getD aoi

/-- `_aoi_longitude_strips`. -/
def aoiLongitudeStrips (aoi : G) (n : Int) : List G :=
  let g := validAoi sh aoi
  if sh.isEmpty g then []
  else
    let (minx, miny, maxx, maxy) := sh.bounds g
    let width := maxx - minx
    if width ≤ 1 / 100000000000 then wholeStrips sh g
    else
      let n := (max 1 (min n 48)).toNat
      let eps := max (width / 10000000) (1 / 1000000000)
      let strips := (List.range n).flatMap fun i =>
        columnStrips sh g (sh.box (minx + i / n * width - eps) (miny - 1 / 20)
          (minx + (i + 1) / n * width + eps) (maxy + 1 / 20))
      if strips.isEmpty then wholeStrips sh g else strips

/-! ## The days of a strip -/

/-- `key < best_key`. -/
def pairLt (x y : Rat × Rat) : Bool := decide (x.1 < y.1 ∨ (x.1 = y.1 ∧ x.2 < y.2))

/-- `c.dt.date()`. -/
def dayOf (c : Candidate G) : Option Date := c.dt.map sh.date

/-- The candidates of each day, by their clouds, and then those without a day. -/
def dayGroups (pool : List (Candidate G)) : List (List (Candidate G)) :=
  let days := Keyed.keepFirst id [] (pool.filterMap (dayOf sh))
  let byDate := days.map fun d => (d, pool.filter fun c => dayOf sh c == some d)
  let sorted := byDate.insertionSort fun x y =>
    meanCloudCandidates x.2 < meanCloudCandidates y.2 ∨
      (meanCloudCandidates x.2 = meanCloudCandidates y.2 ∧ x.1 ≤ y.1)
  let noDate := pool.filter fun c => c.dt.isNone
  sorted.map Prod.snd ++ if noDate.isEmpty then [] else [noDate]

/-- One group of `_best_same_day_cover_for_band`. -/
def considerDay (minMarginal : Rat) (need : G) (mode : SortMode)
    (best : Option ((Rat × Rat) × List (Candidate G))) (group : List (Candidate G)) :
    Option ((Rat × Rat) × List (Candidate G)) :=
  let (sel, _, frac) := greedyCoverAoi sh.toShapely minMarginal need group mode
  let key := (frac, meanCloudCandidates group)
  match best with
  | none => some (key, sel)
  | some b => if pairLt key b.1 then some (key, sel) else some b

/-- `_best_same_day_cover_for_band`. -/
def bestSameDayCoverForBand (minMarginal : Rat) (need : G) (pool : List (Candidate G))
    (mode : SortMode) : List (Candidate G) :=
  (((dayGroups sh pool).foldl (considerDay sh minMarginal need mode) none).map Prod.snd).getD []

/-! ## The selection -/

/-- The part of a strip that is not covered yet. -/
def bandNeed (minNeed : Rat) (selected : List (Candidate G)) (band : G) : Option G := do
  let rest ← match unionCandidateGeoms sh selected with
    | none => some band
    | some cu => sh.difference band cu
  let need ← polygonalPart sh rest
  if sh.isEmpty need || sh.area need < minNeed then none else some need

/-- The candidates whose key is not used and that meet a part of a strip. -/
def bandPool (need : G) (intersecting selected : List (Candidate G)) : List (Candidate G) :=
  intersecting.filter fun c => !(selected.map Candidate.key).contains c.key &&
    boundsIntersect (sh.bounds need) (sh.bounds c.geom) && sh.intersects c.geom need == some true

/-- The candidates whose keys are not used are added. -/
def addUnused (selected more : List (Candidate G)) : List (Candidate G) :=
  selected ++ Keyed.keepFirst Candidate.key (selected.map Candidate.key) more

/-- One strip. -/
def bandStep (minMarginal minNeed : Rat) (intersecting : List (Candidate G)) (mode : SortMode)
    (selected : List (Candidate G)) (band : G) : List (Candidate G) :=
  match bandNeed sh minNeed selected band with
  | none => selected
  | some need =>
    let pool := bandPool sh need intersecting selected
    if pool.isEmpty then selected
    else addUnused selected (bestSameDayCoverForBand sh minMarginal need pool mode)

/-- What remains of a collection. -/
def polygonsOf (remaining : G) : Option G :=
  if sh.geomType remaining = .geometryCollection then
    let polys := (sh.geoms remaining).filter (isPolygonal sh)
    if polys.isEmpty then some remaining else sh.unaryUnion polys
  else some remaining

/-- `aoi.difference(ugeom)`. -/
def uncoveredBy (aoi : G) (selected : List (Candidate G)) : Option G := do
  sh.difference aoi (← sh.unaryUnion (selected.map Candidate.geom))

/-- The pass that fills gaps with candidates of any day. -/
def gapFill (minMarginal : Rat) (aoi remaining : G) (intersecting selected : List (Candidate G))
    (mode : SortMode) : List (Candidate G) × G :=
  let gapPool := intersecting.filter fun c => !(selected.map Candidate.key).contains c.key
  if gapPool.isEmpty || sh.isEmpty remaining then (selected, remaining)
  else
    let selected :=
      addUnused selected (greedyCoverAoi sh.toShapely minMarginal remaining gapPool mode).1
    match uncoveredBy sh aoi selected with
    | none => (selected, remaining)
    | some rest => (selected, (polygonsOf sh rest).getD rest)

/-- The strips, from west to east. -/
def passBands (aoi : G) (numStrips : Int) : List G :=
  (aoiLongitudeStrips sh aoi numStrips).insertionSort fun g h => sh.centroidX g ≤ sh.centroidX h

/-- The selection of all strips. -/
def stripsSelected (minMarginal : Rat) (numStrips : Int) (aoi : G)
    (intersecting : List (Candidate G)) (mode : SortMode) : List (Candidate G) :=
  let aoiArea := if 0 < sh.area aoi then sh.area aoi else 1
  let minNeed := max (aoiArea / 10000000000) (1 / 10000000000000000)
  (passBands sh aoi numStrips).foldl (bandStep sh minMarginal minNeed intersecting mode) []

/-- `same_pass_date_strips_select`. -/
def samePassDateStripsSelect (minMarginal : Rat) (numStrips : Int) (aoi : G)
    (intersecting : List (Candidate G)) (mode : SortMode) :
    List (Candidate G) × Option G × Rat :=
  let selected := stripsSelected sh minMarginal numStrips aoi intersecting mode
  if selected.isEmpty then greedyCoverAoi sh.toShapely minMarginal aoi intersecting mode
  else
    let remaining := ((uncoveredBy sh aoi selected).bind (polygonsOf sh)).getD aoi
    let (selected, remaining) := gapFill sh minMarginal aoi remaining intersecting selected mode
    if sh.isEmpty remaining then (dedupeCandidatesByKey selected, none, 0)
    else (dedupeCandidatesByKey selected, some remaining,
      sh.area remaining / if 0 < sh.area aoi then sh.area aoi else 1)

/-! ## What is selected -/

section Selected

variable {sh} {cands : List (Candidate G)} {mode : SortMode}

theorem Selection.addUnused {selected more : List (Candidate G)} (h : Selection cands selected)
    (hmore : ∀ c ∈ more, c ∈ cands) : Selection cands (addUnused selected more) := by
  obtain ⟨hnodup, hnew⟩ :=
    Keyed.keepFirst_nodup Candidate.key (selected.map Candidate.key) more
  constructor
  · intro c hc
    rcases List.mem_append.mp hc with hc | hc
    · exact h.subset c hc
    · exact hmore c (List.mem_of_find?_eq_some ((Keyed.mem_keepFirst _).mp hc).2)
  · unfold Mosaic.addUnused
    rw [List.map_append]
    refine h.nodup.append hnodup fun key hkey hkey' => ?_
    obtain ⟨c, hc, rfl⟩ := List.mem_map.mp hkey'
    exact hnew c hc hkey

theorem Selection.dedupe {selected : List (Candidate G)} (h : Selection cands selected) :
    dedupeCandidatesByKey selected = selected :=
  Keyed.keepFirst_of_nodup _ h.nodup (by simp)

theorem dayGroups_subset {pool group : List (Candidate G)} (h : group ∈ dayGroups sh pool) :
    ∀ c ∈ group, c ∈ pool := by
  unfold dayGroups at h
  extract_lets days byDate sorted noDate at h
  intro c hc
  rcases List.mem_append.mp h with h | h
  · obtain ⟨x, hx, rfl⟩ := List.mem_map.mp h
    have hx : x ∈ byDate := (List.mem_insertionSort _).mp hx
    obtain ⟨d, -, rfl⟩ := List.mem_map.mp hx
    exact (List.mem_filter.mp hc).1
  · split at h
    · cases h
    · rw [List.mem_singleton.mp h] at hc
      exact (List.mem_filter.mp hc).1

theorem considerDay_subset {minMarginal : Rat} {need : G} {pool : List (Candidate G)}
    {best : Option ((Rat × Rat) × List (Candidate G))}
    (hbest : ∀ b ∈ best, ∀ c ∈ b.2, c ∈ pool) {group : List (Candidate G)}
    (hgroup : ∀ c ∈ group, c ∈ pool) :
    ∀ b ∈ considerDay sh minMarginal need mode best group, ∀ c ∈ b.2, c ∈ pool := by
  have hsel := (greedyCoverTarget_selection sh.toShapely {} minMarginal need group mode).subset
  intro b hb c hc
  unfold considerDay at hb
  dsimp only at hb
  cases best with
  | none =>
    cases hb
    exact hgroup c (hsel c hc)
  | some b' =>
    dsimp only at hb
    split at hb
    · cases hb
      exact hgroup c (hsel c hc)
    · cases hb
      exact hbest _ rfl c hc

theorem bestSameDay_subset (minMarginal : Rat) (need : G) (pool : List (Candidate G)) :
    ∀ c ∈ bestSameDayCoverForBand sh minMarginal need pool mode, c ∈ pool := by
  have hfold : ∀ (groups : List (List (Candidate G))) best,
      (∀ group ∈ groups, ∀ c ∈ group, c ∈ pool) →
      (∀ b ∈ best, ∀ c ∈ b.2, c ∈ pool) →
      ∀ b ∈ groups.foldl (considerDay sh minMarginal need mode) best, ∀ c ∈ b.2, c ∈ pool := by
    intro groups
    induction groups with
    | nil => exact fun best _ hbest => hbest
    | cons group groups ih =>
      intro best hgroups hbest
      refine ih _ (fun g hg => hgroups g (List.mem_cons_of_mem _ hg)) ?_
      exact considerDay_subset hbest (hgroups group List.mem_cons_self)
  intro c hc
  unfold bestSameDayCoverForBand at hc
  cases hbest : (dayGroups sh pool).foldl (considerDay sh minMarginal need mode) none with
  | none =>
    rw [hbest] at hc
    cases hc
  | some b =>
    rw [hbest] at hc
    exact hfold _ none (fun group hgroup => dayGroups_subset hgroup) (by simp) b hbest c hc

theorem bandStep_selection {minMarginal minNeed : Rat} {selected : List (Candidate G)}
    (h : Selection cands selected) (band : G) :
    Selection cands (bandStep sh minMarginal minNeed cands mode selected band) := by
  unfold bandStep
  split
  · exact h
  · dsimp only
    split
    · exact h
    · refine h.addUnused fun c hc => ?_
      exact (List.mem_filter.mp (bestSameDay_subset _ _ _ c hc)).1

theorem stripsSelected_selection (minMarginal : Rat) (numStrips : Int) (aoi : G) :
    Selection cands (stripsSelected sh minMarginal numStrips aoi cands mode) := by
  unfold stripsSelected
  extract_lets aoiArea minNeed
  have hstart : Selection cands ([] : List (Candidate G)) := ⟨by simp, by simp⟩
  generalize passBands sh aoi numStrips = bands
  generalize ([] : List (Candidate G)) = selected at hstart
  induction bands generalizing selected with
  | nil => exact hstart
  | cons band bands ih => exact ih _ (bandStep_selection hstart band)

end Selected

/-! ## What remains -/

section Remains

variable {P : Type} {region : G → Set P} {m : AddContent ℚ≥0 (Set.range region)}

/-- Besides, a union is one of sets, and a difference has no points and lines. -/
structure ExactPass (sh : PassShapely G) (region : G → Set P)
    (m : AddContent ℚ≥0 (Set.range region)) : Prop extends Exact sh.toShapely region m where
  unaryUnion : ∀ gs, ∃ u, sh.unaryUnion gs = some u ∧ region u = {p | ∃ g ∈ gs, p ∈ region g}
  difference_polygonal : ∀ g h k, sh.difference g h = some k →
    sh.geomType k ≠ .geometryCollection

variable {sh} (h : ExactPass sh region m) {cands : List (Candidate G)} {mode : SortMode}
include h

theorem uncoveredBy_spec (aoi : G) (selected : List (Candidate G)) :
    ∃ rest, uncoveredBy sh aoi selected = some rest ∧ polygonsOf sh rest = some rest ∧
      region rest = region aoi \ covered region selected := by
  obtain ⟨u, hu, hunion⟩ := h.unaryUnion (selected.map Candidate.geom)
  obtain ⟨rest, hrest, hregion⟩ := h.difference aoi u
  refine ⟨rest, ?_, ?_, ?_⟩
  · simp only [uncoveredBy, hu, Option.bind_eq_bind, Option.bind_some]
    exact hrest
  · rw [polygonsOf, if_neg (h.difference_polygonal _ _ _ hrest)]
  · rw [hregion, hunion]
    simp [covered]

/-- What remains stays what is not covered when gaps are filled. -/
theorem gapFill_spec (minMarginal : Rat) {aoi remaining : G} {selected : List (Candidate G)}
    (hsel : Selection cands selected)
    (hrest : region remaining = region aoi \ covered region selected) :
    ∃ selected' rest, gapFill sh minMarginal aoi remaining cands selected mode = (selected', rest) ∧
      Selection cands selected' ∧ region rest = region aoi \ covered region selected' := by
  unfold gapFill
  extract_lets gapPool added
  split
  · exact ⟨selected, remaining, rfl, hsel, hrest⟩
  · obtain ⟨rest, huncovered, hpolygons, hregion⟩ := uncoveredBy_spec h aoi added
    rw [huncovered]
    refine ⟨added, rest, ?_, hsel.addUnused fun c hc => ?_, hregion⟩
    · dsimp only
      rw [hpolygons, Option.getD_some]
    · have hpool :=
        (greedyCoverTarget_selection sh.toShapely {} minMarginal remaining gapPool mode).subset
      exact (List.mem_filter.mp (hpool c hc)).1

/-- What the strips leave of an area. -/
theorem region_remaining (aoi : G) (selected : List (Candidate G)) :
    region (((uncoveredBy sh aoi selected).bind (polygonsOf sh)).getD aoi) =
      region aoi \ covered region selected := by
  obtain ⟨rest, huncovered, hpolygons, hregion⟩ := uncoveredBy_spec h aoi selected
  rw [huncovered, Option.bind_some, hpolygons, Option.getD_some]
  exact hregion

theorem same_pass_sound (minMarginal : Rat) (numStrips : Int) {aoi : G} (haoi : 0 < sh.area aoi)
    (cands : List (Candidate G)) (mode : SortMode) :
    SoundRest m aoi cands (samePassDateStripsSelect sh minMarginal numStrips aoi cands mode) := by
  unfold samePassDateStripsSelect
  extract_lets selected remaining
  split
  · exact (greedy_cover_sound h.toExact {} minMarginal haoi cands mode).toSoundRest
  · have hsel : Selection cands selected := stripsSelected_selection minMarginal numStrips aoi
    have hregion : region remaining = region aoi \ covered region selected :=
      region_remaining h aoi selected
    obtain ⟨selected', rest', hgap, hsel', hregion'⟩ := gapFill_spec h minMarginal hsel hregion
    rw [hgap]
    dsimp only
    rw [hsel'.dedupe]
    split
    · rename_i hempty
      have hnone : region aoi \ covered region selected' = ∅ :=
        hregion' ▸ (h.isEmpty rest').mp hempty
      refine ⟨hsel', ?_, ?_, ?_⟩
      · rintro g ⟨⟩
      · simp [hnone]
      · simp [hnone]
    · rename_i hsome
      refine ⟨hsel', ?_, ?_, ?_⟩
      · rintro g ⟨⟩
        exact hregion'
      · rw [← hregion', ← h.isEmpty]
        simpa using hsome
      · dsimp only
        rw [h.area, h.area, hregion']

/-- For each area, target and list of candidates. -/
theorem covers_sound (target : CoverTarget) (minMarginal : Rat) (numStrips : Int) {aoi : G}
    (haoi : 0 < sh.area aoi) (cands : List (Candidate G)) (mode : SortMode) :
    SoundCover sh.toShapely m target minMarginal aoi cands mode
        (greedyCoverTarget sh.toShapely target minMarginal aoi cands mode) ∧
      SoundRest m aoi cands (samePassDateStripsSelect sh minMarginal numStrips aoi cands mode) :=
  ⟨greedy_cover_sound h.toExact target minMarginal haoi cands mode,
    same_pass_sound h minMarginal numStrips haoi cands mode⟩

end Remains

/-! ## One square -/

def squareRegion (g : Bool) : Set Unit := {_p | g = true}

theorem squareRegion_surjective (s : Set Unit) : s ∈ Set.range squareRegion := by
  by_cases hs : () ∈ s
  · exact ⟨true, Set.ext fun _ => ⟨fun _ => hs, fun _ => rfl⟩⟩
  · refine ⟨false, Set.ext fun _ => ⟨fun h => ?_, fun h => absurd h hs⟩⟩
    cases h

theorem squareRegion_ring : IsSetRing (Set.range squareRegion) :=
  ⟨squareRegion_surjective _, fun _ _ _ _ => squareRegion_surjective _,
    fun _ _ _ _ => squareRegion_surjective _⟩

open Classical in
/-- The area of the square is 1. -/
noncomputable def squareContent : AddContent ℚ≥0 (Set.range squareRegion) :=
  squareRegion_ring.addContent_of_union (fun s => if () ∈ s then 1 else 0) (by simp) (by
    intro s t _ _ hdisjoint
    by_cases hs : () ∈ s
    · have ht : () ∉ t := fun ht => Set.disjoint_left.mp hdisjoint hs ht
      simp [hs, ht]
    · simp [hs])

theorem squareContent_apply (s : Set Unit) [Decidable (() ∈ s)] :
    squareContent s = if () ∈ s then 1 else 0 := by
  change @ite ℚ≥0 (() ∈ s) (Classical.propDecidable _) 1 0 = _
  congr

/-- The unit square, with one day. -/
def squarePass : PassShapely Bool where
  toShapely := unitSquare
  geomType _ := .polygon
  geoms g := [g]
  isValid _ := some true
  makeValid g := some g
  unaryUnion gs := some (gs.any id)
  box _ _ _ _ := true
  centroidX g := if g then 1 / 2 else 0
  date _ := ⟨2024, 7, 1, by decide⟩

theorem squarePass_exact : ExactPass squarePass squareRegion squareContent where
  ring := squareRegion_ring
  area g := by cases g <;> simp [squareContent_apply, squarePass, unitSquare, squareRegion]
  isEmpty g := by
    cases g
    · simp [squarePass, unitSquare, squareRegion]
    · simp [squarePass, unitSquare, squareRegion, Set.eq_empty_iff_forall_notMem]
  intersection g h := ⟨g && h, rfl, by ext; simp [squareRegion]⟩
  difference g h := ⟨g && !h, rfl, by ext; simp [squareRegion]⟩
  bounds g h hapart := absurd hapart (by simp [squarePass, unitSquare, boundsIntersect])
  query geoms g found hfound := by cases hfound
  unaryUnion gs := ⟨gs.any id, rfl, by ext; simp [squareRegion]⟩
  difference_polygonal g h k _ := by simp [squarePass]

/-- The square is covered by the first of two scenes. -/
theorem covers_sound_square :
    let cands := twoCatalogs.filterMap (candidate unitSquare.toReadings)
    SoundCover unitSquare squareContent {} (1 / 200) true cands .lowestCloud
        (greedyCoverTarget unitSquare {} (1 / 200) true cands .lowestCloud) ∧
      SoundRest squareContent true cands
        (samePassDateStripsSelect squarePass (1 / 200) 8 true cands .lowestCloud) :=
  covers_sound squarePass_exact {} (1 / 200) 8 (by decide) _ .lowestCloud

end Mosaic
end Geofastmap
