import Mathlib.Algebra.Order.Ring.Unbundled.Rat
import Geofastmap.Mosaic.Mgrs

/-!
# Geofastmap.Mosaic.Swap

The selection of a mosaic (`greedy_cover_aoi`) and the images that can be exchanged for a selected
one, as the planner lists them (`plan_mosaic_from_features`) and as they are listed again for a
saved selection (`swap_options_for_selected`).

The second list leaves out, besides the selected images, the last candidate with the item id of
each: an item id can occur in several catalogs and collections.

* `swap_options_agree_iff` : the two lists agree exactly when no alternative is left out so.
-/

namespace Geofastmap
namespace Mosaic

open Import Stac

/-- What the planner takes besides: the operations of Shapely, without a result where they raise,
and `str(x)`. Of a query of the tree there are the texts `g.wkb`; `shape` is the polygon of a
footprint, of several the largest, when it is not empty. -/
structure Shapely (G : Type) extends Readings G where
  area : G → Rat
  bounds : G → Rat × Rat × Rat × Rat
  isEmpty : G → Bool
  intersects : G → G → Option Bool
  intersection : G → G → Option G
  difference : G → G → Option G
  wkb : G → Option Text
  query : List G → G → Option (List Text)
  mapping : G → Dict
  shape : Dict → Option G
  str : Json → Text

variable {G : Type} (sh : Shapely G)

/-- `_bounds_intersect`. -/
def boundsIntersect (a b : Rat × Rat × Rat × Rat) : Bool :=
  !(a.2.2.1 ≤ b.1 || a.1 ≥ b.2.2.1 || a.2.2.2 ≤ b.2.1 || a.2.1 ≥ b.2.2.2)

/-! ## The greedy cover -/

/-- `t1 < t2` of tuples. -/
def tupleLt (x y : Rat × Text) : Bool := decide (x.1 < y.1 ∨ (x.1 = y.1 ∧ x.2 < y.2))

/-- `_greedy_pick_better`. -/
def greedyPickBetter (g1 r1 : Rat) (t1 : Rat × Text) (g2 r2 : Rat) (t2 : Rat × Text) : Bool :=
  if g1 > g2 + 1 / 1000000000000 then true
  else if g2 > g1 + 1 / 1000000000000 then false
  else if r1 > r2 + 1 / 1000000000000000 then true
  else if r2 > r1 + 1 / 1000000000000000 then false
  else tupleLt t1 t2

/-- The best candidate so far. -/
structure Pick (G : Type) where
  best : Candidate G
  gain : Rat
  ratio : Rat

/-- One candidate of the pool. -/
def consider (mode : SortMode) (remaining : G) (pick : Option (Pick G)) (c : Candidate G) :
    Option (Pick G) :=
  let gain := ((sh.intersection remaining c.geom).map sh.area).getD 0
  let ratio := if sh.area c.geom > 1 / 100000000000000000000 then gain / sh.area c.geom else 0
  if !boundsIntersect (sh.bounds remaining) (sh.bounds c.geom) || gain ≤ 0 then pick
  else match pick with
    | none => some ⟨c, gain, ratio⟩
    | some b =>
      if greedyPickBetter gain ratio (sortKey mode c) b.gain b.ratio (sortKey mode b.best) then
        some ⟨c, gain, ratio⟩
      else some b

/-- The candidates that the tree finds, or all. -/
def coverPool (cands : List (Candidate G)) (remaining : G) : List (Candidate G) :=
  let pool := match sh.query (cands.map Candidate.geom) remaining with
    | some found => found.flatMap fun w => cands.filter fun c => sh.wkb c.geom == some w
    | none => cands
  if pool.isEmpty then cands else pool

/-- The best candidate of the pool whose key is not used. -/
def pickBest (cands : List (Candidate G)) (mode : SortMode) (usedKeys : List Text) (remaining : G) :
    Option (Pick G) :=
  (Keyed.keepFirst Candidate.key usedKeys (coverPool sh cands remaining)).foldl
    (consider sh mode remaining) none

/-- `min_coverage` and `max_iterations`. -/
structure CoverTarget where
  minCoverage : Rat := 995 / 1000
  maxIterations : Nat := 500

/-- The loop of `greedy_cover_aoi`: what is selected, and what remains. -/
def greedyFrom (minCoverage aoiArea minMarginal : Rat) (cands : List (Candidate G))
    (mode : SortMode) : Nat → G → List (Candidate G) → List (Candidate G) × G
  | 0, remaining, selected => (selected, remaining)
  | n + 1, remaining, selected =>
    if sh.area remaining / aoiArea ≤ 1 - minCoverage || sh.isEmpty remaining ||
        sh.area remaining ≤ 0 then
      (selected, remaining)
    else match pickBest sh cands mode (selected.map Candidate.key) remaining with
      | none => (selected, remaining)
      | some pick =>
        if !selected.isEmpty && 0 < minMarginal && pick.gain < sh.area remaining * minMarginal then
          (selected, remaining)
        else match sh.difference remaining pick.best.geom with
          | none => (selected ++ [pick.best], remaining)
          | some rest =>
            if sh.isEmpty rest then (selected ++ [pick.best], rest)
            else greedyFrom minCoverage aoiArea minMarginal cands mode n rest (selected ++ [pick.best])

/-- `greedy_cover_aoi`. -/
def greedyCoverTarget (target : CoverTarget) (minMarginal : Rat) (aoi : G)
    (cands : List (Candidate G)) (mode : SortMode) : List (Candidate G) × Option G × Rat :=
  if cands.isEmpty || sh.area aoi ≤ 0 then ([], some aoi, 1)
  else
    let (selected, remaining) := greedyFrom sh target.minCoverage (sh.area aoi)
      (max 0 (min 1 minMarginal)) cands mode target.maxIterations aoi []
    if sh.isEmpty remaining then (selected, none, 0)
    else (selected, some remaining, sh.area remaining / sh.area aoi)

/-- `greedy_cover_aoi` with its default target. -/
def greedyCoverAoi (minMarginal : Rat) (aoi : G) (cands : List (Candidate G)) (mode : SortMode) :
    List (Candidate G) × Option G × Rat :=
  greedyCoverTarget sh {} minMarginal aoi cands mode

/-! ## Alternatives -/

/-- A row of the swap options. -/
structure SwapAlt where
  key : Text
  id : Option Text
  href : Text
  thumbnail : Option Text
  cloudCover : Option Rat
  footprint : Dict
  mgrsTile : Option Text

/-- `_swap_alt_dict`. -/
def swapAltDict (other : Candidate G) : SwapAlt where
  key := other.key
  id := other.feature.id
  href := other.href
  thumbnail := thumbnailHref sh.str other.feature
  cloudCover := other.cloud
  footprint := sh.mapping other.geom
  mgrsTile := mgrsTileFromFeature other.feature

/-- An image that overlaps a selected one, of the same tile if that has one. -/
def swapAlternative (geom : G) (tile : Option Text) (other : Candidate G) : Bool :=
  boundsIntersect (sh.bounds geom) (sh.bounds other.geom) &&
    ((sh.intersection geom other.geom).any fun g => 0 < sh.area g) &&
    tile.all fun t => mgrsTileFromFeature other.feature == some t

/-- The page of swap options that a request asks for. -/
structure Page where
  limit : Int
  offset : List (Text × Int)

/-- `_slice_swap_alts`. -/
def sliceSwapAlts (page : Page) (alts : List SwapAlt) (selKey : Text) : List SwapAlt × Nat :=
  let off := max 0 ((page.offset.lookup selKey).getD 0)
  let lim := max 1 (min page.limit 50)
  ((alts.drop off.toNat).take lim.toNat, alts.length)

structure PlanResult where
  selected : List SavedItem
  swapOptions : List (Text × List SwapAlt)
  swapOptionsTotal : List (Text × Nat)
  uncoveredFraction : Option Rat
  remainingUncovered : Option Dict
  candidatesMatched : Nat

/-- `swap_options` of the alternatives of each selected image. -/
def swapOptions (page : Page) (rows : List (Text × List SwapAlt)) : List (Text × List SwapAlt) :=
  Keyed.setItems Prod.fst [] (rows.map fun row => (row.1, (sliceSwapAlts page row.2 row.1).1))

/-- `swap_options_total`. -/
def swapOptionsTotal (page : Page) (rows : List (Text × List SwapAlt)) : List (Text × Nat) :=
  Keyed.setItems Prod.fst [] (rows.map fun row => (row.1, (sliceSwapAlts page row.2 row.1).2))

/-- The candidates that meet the AOI, sorted. -/
def intersecting (aoi : G) (features : List Item) (mode : SortMode) : List (Candidate G) :=
  sortCandidates mode ((features.filterMap (candidate sh.toReadings)).filter fun c =>
    sh.intersects c.geom aoi == some true)

/-! ## The planner -/

/-- The row of a selected image. -/
def selectedRow (c : Candidate G) : SavedItem where
  key := some c.key
  catalogId := c.feature.property "geofast:sourceCatalog"
  stacCollectionId := match c.feature.collection with
    | some (ch :: coll) => .str (ch :: coll)
    | _ => c.feature.property "collection"
  stacItemId := c.feature.id
  id := none
  href := some c.href
  thumbnail := thumbnailHref sh.str c.feature
  cloudCover := c.cloud
  footprint := some (sh.mapping c.geom)
  mgrsTile := mgrsTileFromFeature c.feature
  properties := none

/-- The selected images. -/
def selectedImages (minMarginal : Rat) (aoi : G) (features : List Item) (mode : SortMode) :
    List (Candidate G) :=
  (greedyCoverAoi sh minMarginal aoi (intersecting sh aoi features mode) mode).1

/-- The alternatives of a selected image in `plan_mosaic_from_features`. -/
def plannedAlts (pool selected : List (Candidate G)) (sel : Candidate G) : List (Candidate G) :=
  pool.filter fun other => other.key != sel.key && !(selected.map Candidate.key).contains other.key &&
    swapAlternative sh sel.geom (mgrsTileFromFeature sel.feature) other

/-- `plan_mosaic_from_features`, without the mode of one pass. -/
def planMosaicFromFeatures (minMarginal : Rat) (aoi : G) (features : List Item) (mode : SortMode)
    (page : Page) : PlanResult :=
  let pool := intersecting sh aoi features mode
  let (selected, remaining, uncovered) := greedyCoverAoi sh minMarginal aoi pool mode
  let rows := selected.map fun sel =>
    (sel.key, (plannedAlts sh pool selected sel).map (swapAltDict sh))
  { selected := selected.map (selectedRow sh)
    swapOptions := swapOptions page rows
    swapOptionsTotal := swapOptionsTotal page rows
    uncoveredFraction := some uncovered
    remainingUncovered := remaining.map sh.mapping
    candidatesMatched := pool.length }

/-! ## The saved selection -/

/-- `id_to_dedupe_key`: the key of the last candidate with an item id. -/
def idToDedupeKey (cands : List (Candidate G)) (fid : Text) : Option Text :=
  ((cands.filter fun c => c.feature.id == some fid).getLast?).map Candidate.key

/-- The key of a saved row. -/
def savedKey (it : SavedItem) (idx : Nat) : Text :=
  (([it.key, it.stacItemId, it.id].filterMap id).find? fun s => !s.isEmpty).getD
    ("item-".toList ++ Sql.digits idx)

/-- The rows with a polygon. -/
def selectedGeoms (items : List SavedItem) : List (Text × G × SavedItem) :=
  items.zipIdx.filterMap fun (it, idx) => do
    let poly ← sh.shape (← it.footprint)
    return (savedKey it idx, poly, it)

/-- The key that the item id of a row stands for. -/
def savedIdKey (cands : List (Candidate G)) (it : SavedItem) : Option Text :=
  ((orText it.stacItemId it.id).filter fun s => !s.isEmpty).bind (idToDedupeKey cands)

/-- The keys of a row: its own, and the one that its item id stands for. -/
def savedKeys (cands : List (Candidate G)) (row : Text × G × SavedItem) : List Text :=
  row.1 :: (savedIdKey cands row.2.2).toList

/-- `swap_options_for_selected`. -/
def swapOptionsForSelected (aoi : G) (features : List Item) (mode : SortMode)
    (selectedItems : List SavedItem) (page : Page) : PlanResult :=
  let cands := features.filterMap (candidate sh.toReadings)
  let pool := intersecting sh aoi features mode
  let saved := selectedGeoms sh selectedItems
  let selectedKeys := saved.flatMap (savedKeys cands)
  let rows := saved.map fun row =>
    (row.1, (pool.filter fun other => !selectedKeys.contains other.key &&
      swapAlternative sh row.2.1 (mgrsTileFromSavedItem row.2.2) other).map (swapAltDict sh))
  { selected := saved.map fun row =>
      { row.2.2 with
        key := some row.1
        stacItemId := orText row.2.2.stacItemId row.2.2.id
        id := none
        footprint := some (sh.mapping row.2.1)
        mgrsTile := mgrsTileFromSavedItem row.2.2
        properties := none }
    swapOptions := swapOptions page rows
    swapOptionsTotal := swapOptionsTotal page rows
    uncoveredFraction := none
    remainingUncovered := none
    candidatesMatched := pool.length }

/-- For each selected image of a plan, the swap options of the saved selection are those of the
plan. -/
def SwapOptionsAgree (minMarginal : Rat) (aoi : G) (features : List Item) (mode : SortMode)
    (page : Page) : Prop :=
  let p := planMosaicFromFeatures sh minMarginal aoi features mode page
  let s := swapOptionsForSelected sh aoi features mode p.selected page
  ∀ it ∈ p.selected, ∀ key ∈ it.key,
    s.swapOptions.lookup key = p.swapOptions.lookup key ∧
    s.swapOptionsTotal.lookup key = p.swapOptionsTotal.lookup key

/-- The last candidate with the item id of a selected image is selected too, or it is no
alternative of a selected image. -/
def IdsTellApart (minMarginal : Rat) (aoi : G) (features : List Item) (mode : SortMode) : Prop :=
  let selected := selectedImages sh minMarginal aoi features mode
  ∀ c ∈ selected, ∀ key ∈ (c.feature.id.filter fun s => !s.isEmpty).bind
      (idToDedupeKey (features.filterMap (candidate sh.toReadings))),
    key ∈ selected.map Candidate.key ∨
      ∀ other ∈ intersecting sh aoi features mode, other.key = key → ∀ sel ∈ selected,
        swapAlternative sh sel.geom (mgrsTileFromFeature sel.feature) other = false

/-! ## What the greedy cover selects -/

section Cover

variable {mode : SortMode} {cands : List (Candidate G)}

theorem consider_cases (remaining : G) (pick : Option (Pick G)) (c : Candidate G) :
    consider sh mode remaining pick c = pick ∨
      ∃ gain ratio, consider sh mode remaining pick c = some ⟨c, gain, ratio⟩ := by
  unfold consider
  extract_lets gain ratio
  split
  · exact Or.inl rfl
  · cases pick with
    | none => exact Or.inr ⟨gain, ratio, rfl⟩
    | some b =>
      dsimp only
      split
      · exact Or.inr ⟨gain, ratio, rfl⟩
      · exact Or.inl rfl

theorem consider_mem (remaining : G) (pool : List (Candidate G)) {start pick : Option (Pick G)}
    (h : pool.foldl (consider sh mode remaining) start = pick) :
    pick = start ∨ ∃ b, pick = some b ∧ b.best ∈ pool := by
  induction pool generalizing start with
  | nil => exact Or.inl h.symm
  | cons c pool ih =>
    rcases ih h with hsame | ⟨b, hb, hmem⟩
    · rcases consider_cases sh remaining start c with hc | ⟨gain, ratio, hc⟩
      · exact Or.inl (hsame.trans hc)
      · exact Or.inr ⟨_, hsame.trans hc, List.mem_cons_self⟩
    · exact Or.inr ⟨b, hb, List.mem_cons_of_mem c hmem⟩

theorem coverPool_subset (remaining : G) {c : Candidate G} (h : c ∈ coverPool sh cands remaining) :
    c ∈ cands := by
  unfold coverPool at h
  extract_lets pool at h
  split at h
  · exact h
  · cases hq : sh.query (cands.map Candidate.geom) remaining with
    | none =>
      simp only [pool, hq] at h
      exact h
    | some found =>
      simp only [pool, hq] at h
      obtain ⟨w, -, hw⟩ := List.mem_flatMap.mp h
      exact (List.mem_filter.mp hw).1

/-- The best candidate is one whose key is not used. -/
theorem pickBest_mem {usedKeys : List Text} {remaining : G} {pick : Pick G}
    (h : pickBest sh cands mode usedKeys remaining = some pick) :
    pick.best ∈ cands ∧ pick.best.key ∉ usedKeys := by
  rcases consider_mem sh remaining _ h with hnone | ⟨b, hb, hmem⟩
  · cases hnone
  · cases hb
    obtain ⟨hnew, hfind⟩ := (Keyed.mem_keepFirst _).mp hmem
    exact ⟨coverPool_subset sh remaining (List.mem_of_find?_eq_some hfind), hnew⟩

/-- Candidates with different keys. -/
structure Selection (cands selected : List (Candidate G)) : Prop where
  subset : ∀ c ∈ selected, c ∈ cands
  nodup : (selected.map Candidate.key).Nodup

theorem Selection.add {selected : List (Candidate G)} (h : Selection cands selected)
    {c : Candidate G} (hc : c ∈ cands) (hnew : c.key ∉ selected.map Candidate.key) :
    Selection cands (selected ++ [c]) := by
  constructor
  · intro d hd
    rcases List.mem_append.mp hd with hd | hd
    · exact h.subset d hd
    · exact List.mem_singleton.mp hd ▸ hc
  · rw [List.map_append, List.map_singleton, ← List.concat_eq_append]
    exact List.Nodup.concat hnew h.nodup

theorem greedyFrom_selection (minCoverage aoiArea minMarginal : Rat) (n : Nat) (remaining : G)
    {selected : List (Candidate G)} (h : Selection cands selected) :
    Selection cands
      (greedyFrom sh minCoverage aoiArea minMarginal cands mode n remaining selected).1 := by
  induction n generalizing remaining selected with
  | zero => exact h
  | succ n ih =>
    unfold greedyFrom
    split
    · exact h
    · split
      · exact h
      next pick hpick =>
        obtain ⟨hmem, hnew⟩ := pickBest_mem sh hpick
        have hadd := h.add hmem hnew
        split
        · exact h
        · split
          · exact hadd
          · split
            · exact hadd
            · exact ih _ hadd

theorem greedyCoverTarget_selection (target : CoverTarget) (minMarginal : Rat) (aoi : G)
    (cands : List (Candidate G)) (mode : SortMode) :
    Selection cands (greedyCoverTarget sh target minMarginal aoi cands mode).1 := by
  have hempty : Selection cands ([] : List (Candidate G)) := ⟨by simp, by simp⟩
  unfold greedyCoverTarget
  split
  · exact hempty
  · have hrun : Selection cands (greedyFrom sh target.minCoverage (sh.area aoi)
        (max 0 (min 1 minMarginal)) cands mode target.maxIterations aoi []).1 :=
      greedyFrom_selection sh _ _ _ _ aoi hempty
    dsimp only
    split
    · exact hrun
    · exact hrun

/-! ## Rows that are read back -/

/-- `shape(mapping(g)) = g` for the footprints. -/
def ShapesReadBack : Prop := ∀ f g, sh.footprint f = some g → sh.shape (sh.mapping g) = some g

theorem candidate_spec {r : Readings G} {f : Item} {c : Candidate G} (h : candidate r f = some c) :
    r.footprint f = some c.geom ∧ c.key = dedupeKey f := by
  unfold candidate at h
  simp only [Option.bind_eq_bind, Option.bind_eq_some_iff] at h
  obtain ⟨geom, hgeom, href, -, hc⟩ := h
  cases hc
  exact ⟨hgeom, rfl⟩

theorem savedKey_selectedRow {f : Item} {c : Candidate G} (h : candidate sh.toReadings f = some c)
    (idx : Nat) : savedKey (selectedRow sh c) idx = c.key := by
  have hkey : c.key.isEmpty = false := by
    rw [(candidate_spec h).2]
    simp [dedupeKey, dedupeText]
  simp [savedKey, selectedRow, hkey]

theorem savedTile_selectedRow (c : Candidate G) :
    mgrsTileFromSavedItem (selectedRow sh c) = mgrsTileFromFeature c.feature :=
  mgrsTileFromSavedItem_eq rfl rfl rfl rfl

theorem savedIdKey_selectedRow (c : Candidate G) : savedIdKey cands (selectedRow sh c) =
    (c.feature.id.filter fun s => !s.isEmpty).bind (idToDedupeKey cands) := by
  simp [savedIdKey, selectedRow, orText, Option.filter_filter]

theorem selectedGeoms_selectedRow (hshape : ShapesReadBack sh) {selected : List (Candidate G)}
    (hsel : ∀ c ∈ selected, ∃ f, candidate sh.toReadings f = some c) :
    selectedGeoms sh (selected.map (selectedRow sh)) =
      selected.map fun c => (c.key, c.geom, selectedRow sh c) := by
  unfold selectedGeoms
  generalize 0 = n
  induction selected generalizing n with
  | nil => rfl
  | cons c selected ih =>
    obtain ⟨f, hf⟩ := hsel c List.mem_cons_self
    have hpoly : sh.shape (sh.mapping c.geom) = some c.geom := hshape f _ (candidate_spec hf).1
    have hrow : (selectedRow sh c).footprint = some (sh.mapping c.geom) := rfl
    rw [List.map_cons, List.zipIdx_cons, List.filterMap_cons,
      ih (fun d hd => hsel d (List.mem_cons_of_mem c hd))]
    simp [hrow, hpoly, savedKey_selectedRow sh hf]

/-! ## The two lists -/

theorem mem_intersecting {aoi : G} {features : List Item} {c : Candidate G}
    (h : c ∈ intersecting sh aoi features mode) :
    ∃ f ∈ features, candidate sh.toReadings f = some c := by
  have hmem := (List.mem_filter.mp (mem_sortCandidates.mp h)).1
  exact List.mem_filterMap.mp hmem

theorem swapOptions_lookup (page : Page) {selected : List (Candidate G)}
    (hnodup : (selected.map Candidate.key).Nodup) (alts : Candidate G → List SwapAlt)
    {sel : Candidate G} (hsel : sel ∈ selected) :
    (swapOptions page (selected.map fun c => (c.key, alts c))).lookup sel.key =
        some (sliceSwapAlts page (alts sel) sel.key).1 ∧
      (swapOptionsTotal page (selected.map fun c => (c.key, alts c))).lookup sel.key =
        some (alts sel).length := by
  unfold swapOptions swapOptionsTotal
  rw [List.map_map, List.map_map]
  constructor
  · rw [Keyed.setItems_of_nodup _ (by simpa [Function.comp_def] using hnodup), List.nil_append]
    exact Keyed.lookup_map_of_nodup _ hnodup hsel
  · rw [Keyed.setItems_of_nodup _ (by simpa [Function.comp_def] using hnodup), List.nil_append]
    exact Keyed.lookup_map_of_nodup _ hnodup hsel

/-- The alternatives that are listed again, of those of the planner. -/
theorem savedAlts_eq (pool : List (Candidate G)) {selected : List (Candidate G)}
    {sel : Candidate G} (hsel : sel ∈ selected) :
    (pool.filter fun other =>
      !((selected.map fun c => (c.key, c.geom, selectedRow sh c)).flatMap (savedKeys cands)).contains
          other.key &&
        swapAlternative sh sel.geom (mgrsTileFromFeature sel.feature) other) =
      (plannedAlts sh pool selected sel).filter fun other =>
        !(selected.any fun c => savedIdKey cands (selectedRow sh c) == some other.key) := by
  unfold plannedAlts
  rw [List.filter_filter]
  refine List.filter_congr fun other _ => ?_
  rw [Bool.eq_iff_iff]
  simp only [savedKeys, List.flatMap_map, Bool.and_eq_true, Bool.not_eq_true', List.contains_eq_mem,
    decide_eq_false_iff_not, List.mem_flatMap, List.mem_cons, Option.mem_toList, not_exists, not_and,
    not_or, List.any_eq_false, beq_iff_eq, bne_iff_ne, List.mem_map]
  constructor
  · rintro ⟨hkeys, halt⟩
    exact ⟨fun c hc => (hkeys c hc).2,
      ⟨(hkeys sel hsel).1, fun c hc heq => (hkeys c hc).1 heq.symm⟩, halt⟩
  · rintro ⟨hids, ⟨-, hkeys⟩, halt⟩
    exact ⟨fun c hc => ⟨fun heq => hkeys c hc heq.symm, hids c hc⟩, halt⟩

end Cover

section Agree

variable (minMarginal : Rat) (aoi : G) (features : List Item) (mode : SortMode) (page : Page)

theorem selectedImages_selection : Selection (intersecting sh aoi features mode)
    (selectedImages sh minMarginal aoi features mode) :=
  greedyCoverTarget_selection sh {} minMarginal aoi _ mode

/-- The alternatives of the planner that the saved selection keeps. -/
def keptAlts (sel : Candidate G) : List (Candidate G) :=
  let selected := selectedImages sh minMarginal aoi features mode
  (plannedAlts sh (intersecting sh aoi features mode) selected sel).filter fun other =>
    !(selected.any fun c => savedIdKey (features.filterMap (candidate sh.toReadings))
      (selectedRow sh c) == some other.key)

theorem swapRows_eq (hshape : ShapesReadBack sh) :
    let p := planMosaicFromFeatures sh minMarginal aoi features mode page
    let s := swapOptionsForSelected sh aoi features mode p.selected page
    let rows := (selectedImages sh minMarginal aoi features mode).map fun sel =>
      (sel.key, (keptAlts sh minMarginal aoi features mode sel).map (swapAltDict sh))
    s.swapOptions = swapOptions page rows ∧ s.swapOptionsTotal = swapOptionsTotal page rows := by
  intro p s rows
  have hgeoms : selectedGeoms sh p.selected =
      (selectedImages sh minMarginal aoi features mode).map
        fun c => (c.key, c.geom, selectedRow sh c) := by
    refine selectedGeoms_selectedRow sh hshape fun c hc => ?_
    have hmem := (selectedImages_selection sh minMarginal aoi features mode).subset c hc
    obtain ⟨f, -, hf⟩ := mem_intersecting sh hmem
    exact ⟨f, hf⟩
  have hrows : (selectedGeoms sh p.selected).map (fun row =>
      (row.1, ((intersecting sh aoi features mode).filter fun other =>
        !((selectedGeoms sh p.selected).flatMap
            (savedKeys (features.filterMap (candidate sh.toReadings)))).contains other.key &&
          swapAlternative sh row.2.1 (mgrsTileFromSavedItem row.2.2) other).map
            (swapAltDict sh))) = rows := by
    rw [hgeoms, List.map_map]
    refine List.map_congr_left fun sel hsel => ?_
    simp only [Function.comp_apply, savedTile_selectedRow]
    rw [savedAlts_eq sh _ hsel]
    rfl
  constructor
  · exact congrArg (swapOptions page) hrows
  · exact congrArg (swapOptionsTotal page) hrows

/-- The lists agree where no alternative of the planner is left out. -/
theorem swapOptionsAgree_iff_kept (hshape : ShapesReadBack sh) :
    SwapOptionsAgree sh minMarginal aoi features mode page ↔
      ∀ sel ∈ selectedImages sh minMarginal aoi features mode,
        keptAlts sh minMarginal aoi features mode sel =
          plannedAlts sh (intersecting sh aoi features mode)
            (selectedImages sh minMarginal aoi features mode) sel := by
  obtain ⟨hoptions, htotals⟩ := swapRows_eq sh minMarginal aoi features mode page hshape
  have hnodup := (selectedImages_selection sh minMarginal aoi features mode).nodup
  have hsaved (sel) (hsel : sel ∈ selectedImages sh minMarginal aoi features mode) :=
    swapOptions_lookup page hnodup
      (fun sel => (keptAlts sh minMarginal aoi features mode sel).map (swapAltDict sh)) hsel
  have hplanned (sel) (hsel : sel ∈ selectedImages sh minMarginal aoi features mode) :=
    swapOptions_lookup page hnodup
      (fun sel => (plannedAlts sh (intersecting sh aoi features mode)
        (selectedImages sh minMarginal aoi features mode) sel).map (swapAltDict sh)) hsel
  constructor
  · intro h sel hsel
    have hagree := (h _ (List.mem_map_of_mem hsel) sel.key rfl).2
    rw [htotals, (hsaved sel hsel).2] at hagree
    have hlength := Option.some.inj (hagree.trans (hplanned sel hsel).2)
    rw [List.length_map, List.length_map] at hlength
    exact List.filter_sublist.eq_of_length hlength
  · intro h it hit key hkey
    obtain ⟨sel, hsel, rfl⟩ := List.mem_map.mp hit
    cases hkey
    have hplan := hplanned sel hsel
    rw [← h sel hsel] at hplan
    rw [hoptions, htotals]
    exact ⟨(hsaved sel hsel).1.trans hplan.1.symm, (hsaved sel hsel).2.trans hplan.2.symm⟩

theorem swap_options_agree_iff (hshape : ShapesReadBack sh) :
    SwapOptionsAgree sh minMarginal aoi features mode page ↔
      IdsTellApart sh minMarginal aoi features mode := by
  rw [swapOptionsAgree_iff_kept sh minMarginal aoi features mode page hshape]
  simp only [keptAlts, List.filter_eq_self, Bool.not_eq_true', List.any_eq_false, beq_iff_eq,
    savedIdKey_selectedRow]
  constructor
  · intro h c hc key hkey
    by_cases hin : key ∈ (selectedImages sh minMarginal aoi features mode).map Candidate.key
    · exact Or.inl hin
    · right
      rintro other hother rfl sel hsel
      rw [Bool.eq_false_iff]
      intro halt
      have hne : other.key ≠ sel.key := fun heq => hin (heq ▸ List.mem_map_of_mem hsel)
      refine h sel hsel other (List.mem_filter.mpr ⟨hother, ?_⟩) c hc hkey
      simp [hne, hin, halt]
  · intro h sel hsel other hother c hc hkey
    obtain ⟨hpool, hcond⟩ := List.mem_filter.mp hother
    simp only [Bool.and_eq_true, Bool.not_eq_true', List.contains_eq_mem,
      decide_eq_false_iff_not] at hcond
    rcases h c hc other.key hkey with hin | hnone
    · exact hcond.1.2 hin
    · rw [hnone other hpool rfl sel hsel] at hcond
      exact absurd hcond.2 (by simp)

end Agree

/-- Geometries that are a unit square or empty. Of the tree there is no result. -/
def unitSquare : Shapely Bool where
  footprint _ := some true
  float _ := none
  timestamp _ := none
  area g := if g then 1 else 0
  bounds _ := (0, 0, 1, 1)
  isEmpty g := !g
  intersects g h := some (g && h)
  intersection g h := some (g && h)
  difference g h := some (g && !h)
  wkb _ := none
  query _ _ := none
  mapping g := [("square".toList, .bool g)]
  shape d := match Json.get d "square".toList with
    | .bool true => some true
    | _ => none
  str _ := []

theorem unitSquare_shapes : ShapesReadBack unitSquare := by
  intro f g hg
  cases hg
  rfl

/-- A scene in two catalogs. -/
def twoCatalogs : List Item := [(scene .null).stamp "a".toList, (scene .null).stamp "b".toList]

def firstPage : Page := ⟨5, []⟩

theorem alternative_lost : ¬ ∀ features : List Item, (features.map dedupeKey).Nodup →
    SwapOptionsAgree unitSquare (5 / 1000) true features .lowestCloud firstPage := by
  intro h
  have hplan : (planMosaicFromFeatures unitSquare (5 / 1000) true twoCatalogs .lowestCloud
      firstPage).swapOptionsTotal.lookup "a:l2a:T1".toList = some 1 := by decide +kernel
  have hkeys : some "a:l2a:T1".toList ∈ (planMosaicFromFeatures unitSquare (5 / 1000) true
      twoCatalogs .lowestCloud firstPage).selected.map SavedItem.key := by decide +kernel
  have hsaved : (swapOptionsForSelected unitSquare true twoCatalogs .lowestCloud
      (planMosaicFromFeatures unitSquare (5 / 1000) true twoCatalogs .lowestCloud
        firstPage).selected firstPage).swapOptionsTotal.lookup "a:l2a:T1".toList = some 0 := by
    decide +kernel
  obtain ⟨it, hit, hkey⟩ := List.mem_map.mp hkeys
  have hagree := (h twoCatalogs (by decide) it hit _ hkey).2
  rw [hplan, hsaved] at hagree
  cases hagree

/-- In one catalog the item ids are different. -/
theorem swap_options_agree_oneCatalog : SwapOptionsAgree unitSquare (5 / 1000) true
    [(scene .null).stamp "a".toList, Item.stamp "a".toList { scene .null with id := "T2".toList }]
      .lowestCloud firstPage := by
  rw [swap_options_agree_iff unitSquare _ _ _ _ _ unitSquare_shapes]
  unfold IdsTellApart
  decide +kernel

end Mosaic
end Geofastmap
