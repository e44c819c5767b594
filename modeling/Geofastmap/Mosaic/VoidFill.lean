import Mathlib.Algebra.BigOperators.Fin
import Mathlib.Data.Finset.Lattice.Fold
import Mathlib.Data.NNRat.BigOperators
import Geofastmap.Mosaic.Collect
import Geofastmap.Mosaic.Grid
import Geofastmap.Mosaic.Leftover
import Geofastmap.Mosaic.Plan

/-!
# Geofastmap.Mosaic.VoidFill

The rounds of `plan_mosaic_with_void_fill`: after the first plan the gaps are searched, and the
mosaic is planned again from all features, until it is covered or nothing new is found.

Only the last plan is kept. It can leave more uncovered than an earlier one (`never_worse_fails`),
but where the scenes of the earlier plan are still candidates, not much more (`void_fill_bound`).
-/

namespace Geofastmap
namespace Mosaic

open Import Stac MeasureTheory

/-- What filling gaps takes besides: `shape(rem)`, `representative_point()` and `math.sqrt`. -/
structure VoidShapely (G : Type) extends PassShapely G where
  geometry : Dict → Option G
  representativePoint : G → Option (Rat × Rat)
  sqrt : Rat → Rat

/-- The settings of the rounds. -/
structure FillSettings extends Settings where
  voidFillMaxRounds : Int
  voidPinpointMaxParts : Int
  voidFillMinUncovered : Rat
  samePassNumStrips : Int
  greedyMinMarginalCoverageFraction : Rat

namespace FillSettings

variable (s : FillSettings)

def maxRounds : Nat := (max 1 s.voidFillMaxRounds).toNat

def maxParts : Nat := (max 1 s.voidPinpointMaxParts).toNat

def minUncovered : Rat := max 0 s.voidFillMinUncovered

def numStrips : Int := max 1 s.samePassNumStrips

end FillSettings

/-- What is planned. -/
structure FillRequest (G : Type) where
  aoi : G
  searchBbox : Bbox
  sortMode : SortMode
  samePass : Bool
  page : Page

section
variable {G : Type} (sh : VoidShapely G) (s : FillSettings) (req : FillRequest G)

/-! ## The boxes of the gaps -/

/-- A box within the world and the search box, when it is not degenerate. -/
def clipBbox (clip bb : Bbox) : Option Bbox :=
  let ox := max (max (-180) bb.minx) clip.minx
  let oy := max (max (-85) bb.miny) clip.miny
  let ox2 := min (min 180 bb.maxx) clip.maxx
  let oy2 := min (min 85 bb.maxy) clip.maxy
  if ox ≥ ox2 - nano ∨ oy ≥ oy2 - nano then none else some ⟨ox, oy, ox2, oy2⟩

/-- `void_search_bbox`. -/
def voidSearchBbox (clip : Bbox) (remaining : G) : Option Bbox :=
  if sh.isEmpty remaining then none
  else
    let (minx, miny, maxx, maxy) := sh.bounds remaining
    let pad := max (max ((maxx - minx) * (3 / 100)) ((maxy - miny) * (3 / 100))) (8 / 1000)
    clipBbox clip ⟨minx - pad, miny - pad, maxx + pad, maxy + pad⟩

/-- A geometry, or what makes it valid. -/
def validGeometry (g : G) : Option G := do
  if ← sh.isValid g then return g else sh.makeValid g

/-- The polygons of a part of a collection. -/
def partPolygons (g : G) : Option (List G) := do
  let g ← validGeometry sh g
  return match sh.geomType g with
    | .polygon => [g]
    | .multiPolygon => sh.geoms g
    | _ => []

/-- `_polygon_parts`. -/
def polygonParts (g : G) : List G :=
  if sh.isEmpty g then []
  else match sh.geomType g with
    | .polygon => [g]
    | .multiPolygon => sh.geoms g
    | .geometryCollection =>
      let parts := ((sh.geoms g).filter fun p => !sh.isEmpty p).mapM (partPolygons sh)
      (parts.map List.flatten).getD []
    | .other => []

/-- The small box around a point of a gap. -/
def pinpointBbox (clip : Bbox) (poly : G) : Option Bbox :=
  if sh.isEmpty poly then none
  else do
    let (x, y) ← sh.representativePoint poly
    let half := max (25 / 10000)
      (min (sh.sqrt (max (sh.area poly) (1 / 1000000000000)) * (32 / 100)) (11 / 100))
    clipBbox clip ⟨x - half, y - half, x + half, y + half⟩

/-- `pinpoint_bboxes_from_remainder`. -/
def pinpointBboxesFromRemainder (clip : Bbox) (maxParts : Nat) (remaining : G) : List Bbox :=
  match validGeometry sh remaining with
  | none => []
  | some g =>
    let parts := (polygonParts sh g).insertionSort fun p q => sh.area p ≥ sh.area q
    dedupeBboxes ((parts.take maxParts).filterMap (pinpointBbox sh clip))

/-! ## A round -/

/-- The features and the errors of a search: of the round, for what is left of the budget of boxes
and the box. -/
abbrev Answers := Nat → Nat → Bbox → List Item × List (Text × Text)

/-- `err_map`. -/
def errorMap (errs : List (Text × Text)) : List (Text × Text) :=
  Keyed.setItems Prod.fst [] (errs.filter fun e => !e.1.isEmpty)

/-- The results of `_fetch_bboxes_adaptive`, box by box. -/
def fetched (answer : Nat → Bbox → List Item × List (Text × Text)) (allowSplitting : Bool)
    (seedBboxes : List Bbox) : List (List Item × List (Text × Text)) :=
  let outcome left bb : Outcome := ⟨!(answer left bb).2.isEmpty, (answer left bb).1.length⟩
  (fetchBboxesAdaptive s.toSettings outcome allowSplitting seedBboxes).zipIdx.map fun (bb, i) =>
    answer (s.bboxBudget - i) bb

/-- `last_result`. -/
structure FilledPlan extends PassPlan where
  voidFillRounds : Nat
  stacFeaturePoolSize : Nat
  voidFillRelaxedDateLock : Bool

/-- `void_fill_stopped`. -/
inductive Stopped where
  | coverageMet | noRemainingGeometry | invalidRemaining | voidBboxDegenerate | noNewFeatures
  | maxRounds
deriving DecidableEq, Repr

/-- What the loop keeps between rounds. The window that is locked after the first round is not among
it: no later round reads it. -/
structure Fill where
  merged : List Item
  allErrors : List (Text × Text)
  lastResult : Option FilledPlan

/-- The boxes around the gaps of a plan. -/
def voidBboxes (r : FilledPlan) : Except Stopped (List Bbox) :=
  let uf := match r.uncoveredFraction with
    | none => 1
    | some u => if u = 0 then 1 else u
  if uf ≤ s.minUncovered then .error .coverageMet
  else match r.remainingUncovered with
    | none | some [] => .error .noRemainingGeometry
    | some rem =>
      match sh.geometry rem with
      | none => .error .invalidRemaining
      | some g =>
        match pinpointBboxesFromRemainder sh req.searchBbox s.maxParts g,
            voidSearchBbox sh req.searchBbox g with
        | bb :: bboxes, _ => .ok (bb :: bboxes)
        | [], some vb => .ok [vb]
        | [], none => .error .voidBboxDegenerate

/-- `q_bboxes`. Without boxes for the first round the loop ends, and has no word for it. -/
def queryBboxes (fill : Fill) : Except (Option Stopped) (List Bbox) :=
  match fill.lastResult with
  | some r => (voidBboxes sh s req r).mapError some
  | none =>
    match splitInitialSearchBboxes s.toSettings req.searchBbox with
    | [] => .error none
    | bb :: bboxes => .ok (bb :: bboxes)

/-- How a round ends: before a plan, with a plan that ends the loop, or with one that does not. -/
inductive Turn where
  | unplanned (fill : Fill) (why : Option Stopped)
  | covered (fill : Fill)
  | more (fill : Fill)

/-- A plan from all features. Later rounds have no window, as the first one. -/
def planAll (merged : List Item) : Option PassPlan :=
  planMosaic sh.toPassShapely s.greedyMinMarginalCoverageFraction s.numStrips req.aoi merged
    req.sortMode req.samePass none req.page

/-- One round. Without a result planning raises. -/
def fillRound (answer : Nat → Bbox → List Item × List (Text × Text)) (round : Nat) (fill : Fill) :
    Option Turn :=
  match queryBboxes sh s req fill with
  | .error why => some (.unplanned fill why)
  | .ok qBboxes => do
    let results := fetched s answer fill.lastResult.isNone qBboxes
    let merged := Keyed.setItems dedupeKey fill.merged (roundFeats (results.map Prod.fst))
    let allErrors := fill.allErrors ++ errorMap (results.flatMap Prod.snd)
    if fill.lastResult.isSome && merged.length == fill.merged.length then
      return .unplanned { fill with merged, allErrors } (some .noNewFeatures)
    let plan ← planAll sh s req merged
    let filled : FilledPlan :=
      { plan with
        voidFillRounds := round + 1
        stacFeaturePoolSize := merged.length
        voidFillRelaxedDateLock := fill.lastResult.isSome && req.samePass }
    let next : Fill := ⟨merged, allErrors, some filled⟩
    return if plan.uncoveredFraction.getD 0 ≤ s.minUncovered then .covered next else .more next

/-! ## The rounds -/

variable (answers : Answers)

/-- The loop. -/
def fillFrom : Nat → Nat → Fill → Option (Fill × Option Stopped)
  | 0, _, fill => some (fill, none)
  | n + 1, round, fill => do
    match ← fillRound sh s req (answers round) round fill with
    | .unplanned fill why => return (fill, why)
    | .covered fill => return (fill, some .coverageMet)
    | .more fill => fillFrom n (round + 1) fill

/-- What the planner returns. -/
structure Filled where
  result : FilledPlan
  voidFillStopped : Stopped
  errors : List (Text × Text)
  features : List Item

def Fill.start : Fill := ⟨[], [], none⟩

/-- `plan_mosaic_with_void_fill`. -/
def planMosaicWithVoidFill : Option Filled := do
  let (fill, why) ← fillFrom sh s req answers s.maxRounds 0 Fill.start
  let result ← match fill.lastResult with
    | some r => some r
    | none => (planAll sh s req []).map fun plan =>
      { plan with
        voidFillRounds := 0
        stacFeaturePoolSize := 0
        voidFillRelaxedDateLock := false }
  return {
    result
    voidFillStopped := why.getD
      (if result.uncoveredFraction.getD 0 > s.minUncovered then .maxRounds else .coverageMet)
    errors := errorMap fill.allErrors
    features := fill.merged }

/-- The states after the rounds that plan. -/
def plannedFrom : Nat → Nat → Fill → List Fill
  | 0, _, _ => []
  | n + 1, round, fill =>
    match fillRound sh s req (answers round) round fill with
    | none | some (.unplanned _ _) => []
    | some (.covered fill) => [fill]
    | some (.more fill) => fill :: plannedFrom n (round + 1) fill

/-- The states after the rounds of `plan_mosaic_with_void_fill` that plan. -/
def plannedRounds : List Fill := plannedFrom sh s req answers s.maxRounds 0 Fill.start

/-! ## Choices -/

/-- What a plan chooses from: the candidates, those that are selected, and the share of the AOI that
they leave. -/
structure Choice (G : Type) where
  pool : List (Candidate G)
  selected : List (Candidate G)
  uncovered : Rat

/-- The candidates of a plan from all features. -/
def candidatePool (merged : List Item) : Option (List (Candidate G)) :=
  let cands := meeting sh.toPassShapely req.aoi merged
  (if req.samePass then (passWindow sh.toPassShapely none cands).map Prod.fst
    else some cands).map (sortCandidates req.sortMode)

/-- The selection of a mode. -/
def selectImages (pool : List (Candidate G)) : List (Candidate G) × Option G × Rat :=
  if req.samePass then
    samePassDateStripsSelect sh.toPassShapely s.greedyMinMarginalCoverageFraction s.numStrips
      req.aoi pool req.sortMode
  else greedyCoverAoi sh.toShapely s.greedyMinMarginalCoverageFraction req.aoi pool req.sortMode

/-- The choice of a plan from all features. -/
def choose (merged : List Item) : Option (Choice G) :=
  (candidatePool sh req merged).map fun pool =>
    ⟨pool, (selectImages sh s req pool).1, (selectImages sh s req pool).2.2⟩

/-- A plan that makes a choice. -/
structure PlanOf (plan : PassPlan) (choice : Choice G) : Prop where
  selected : plan.selected = choice.selected.map (selectedRow sh.toShapely)
  uncoveredFraction : plan.uncoveredFraction = some choice.uncovered
  candidatesMatched : plan.candidatesMatched = choice.pool.length

/-- The choice leaves more than another one only as far as the rules of the selection stop it: at
0.5 % of the AOI, at 500 scenes, or where each scene of the other one adds less than the marginal
gain. -/
def LittleWorse (earlier later : Choice G) : Prop :=
  later.uncovered ≤ 5 / 1000 ∨ 500 ≤ later.selected.length ∨
    later.uncovered *
        (1 - earlier.selected.length * marginal s.greedyMinMarginalCoverageFraction) ≤
      earlier.uncovered +
        earlier.selected.length * (later.pool.length * tolerance) / sh.area req.aoi

/-- An item is answered in the same way each time. -/
def SameAnswers : Prop :=
  ∀ round left bb, ∀ f ∈ (answers round left bb).1, ∀ round' left' bb',
    ∀ f' ∈ (answers round' left' bb').1, dedupeKey f = dedupeKey f' → f = f'

/-- The scene is of a day in the window of the plan, where the plan has one. -/
def InWindow (plan : PassPlan) (c : Candidate G) : Prop :=
  ∀ w ∈ plan.sameSevenDayWindow, ∀ start stop : Calendar.Date, w.start = start.isoformat →
    w.stop = stop.isoformat → ∃ d ∈ dayOf sh.toPassShapely c, start ≤ d ∧ d ≤ stop

/-- A round that plans: the plan of the features so far, with its choice. -/
structure PlannedRound (fill : Fill) (plan : FilledPlan) (choice : Choice G) : Prop where
  lastResult : fill.lastResult = some plan
  choose : choose sh s req fill.merged = some choice
  plan : PlanOf sh plan.toPassPlan choice

end

section
variable {G : Type} {sh : VoidShapely G} {s : FillSettings} {req : FillRequest G}
  {answers : Answers}

theorem perm_sortCandidates (mode : SortMode) (cands : List (Candidate G)) :
    (sortCandidates mode cands).Perm cands :=
  List.perm_insertionSort _ _

/-- The candidates in the window are left. -/
theorem passWindow_keeps {cands pool : List (Candidate G)} {window : Option SevenDayWindow}
    (h : passWindow sh.toPassShapely none cands = some (pool, window)) {c : Candidate G}
    (hc : c ∈ cands) (hin : ∀ w ∈ window, ∀ start stop : Calendar.Date, w.start = start.isoformat →
      w.stop = stop.isoformat → ∃ d ∈ dayOf sh.toPassShapely c, start ≤ d ∧ d ≤ stop) :
    c ∈ pool := by
  obtain ⟨best, hbest, h⟩ := Option.map_eq_some_iff.mp h
  cases best with
  | none =>
    cases h
    exact hc
  | some win =>
    cases h
    obtain ⟨d, hd, hstart, hstop⟩ := hin _ rfl win.start win.stop rfl rfl
    rw [filterCandidatesToDateWindow, List.mem_filter, Option.any_eq_true]
    exact ⟨hc, d, hd, by simp [hstart, hstop]⟩

theorem planAll_choose {merged : List Item} {plan : PassPlan}
    (h : planAll sh s req merged = some plan) :
    ∃ choice, choose sh s req merged = some choice ∧ PlanOf sh plan choice ∧
      ∀ c ∈ meeting sh.toPassShapely req.aoi merged, InWindow sh plan c → c ∈ choice.pool := by
  unfold planAll planMosaic at h
  unfold choose candidatePool
  cases hmode : req.samePass with
  | false =>
    rw [hmode] at h
    simp only [Bool.false_eq_true, if_false, Option.bind_eq_bind, Option.bind_some, pure] at h ⊢
    cases h
    refine ⟨_, rfl, ⟨?_, ?_, ?_⟩, fun c hc _ => (perm_sortCandidates _ _).mem_iff.mpr hc⟩ <;>
      simp [planOf, selectImages, hmode]
  | true =>
    rw [hmode] at h
    simp only [if_true, Option.bind_eq_bind, pure] at h ⊢
    obtain ⟨⟨pool, window⟩, hpool, h⟩ := Option.bind_eq_some_iff.mp h
    cases h
    rw [hpool]
    refine ⟨_, rfl, ⟨?_, ?_, ?_⟩, fun c hc hin => (perm_sortCandidates _ _).mem_iff.mpr ?_⟩
    · simp [planOf, selectImages, hmode]
    · simp [planOf, selectImages, hmode]
    · simp [planOf]
    · exact passWindow_keeps hpool hc hin

/-- The candidates meet the AOI, and they have different keys if the features do. -/
theorem candidatePool_spec {merged : List Item} {pool : List (Candidate G)}
    (h : candidatePool sh req merged = some pool) :
    ((merged.map dedupeKey).Nodup → (pool.map Candidate.key).Nodup) ∧
      (∀ c ∈ pool, c ∈ meeting sh.toPassShapely req.aoi merged) ∧
      (req.samePass = false → ∀ c ∈ meeting sh.toPassShapely req.aoi merged, c ∈ pool) := by
  obtain ⟨cands, hcands, rfl⟩ := Option.map_eq_some_iff.mp h
  have hperm := perm_sortCandidates req.sortMode cands
  have hsub : cands.Sublist (meeting sh.toPassShapely req.aoi merged) := by
    split at hcands
    · obtain ⟨⟨pool', window⟩, hwindow, rfl⟩ := Option.map_eq_some_iff.mp hcands
      rcases passWindow_perm sh.toPassShapely (List.Perm.refl _) none with
        ⟨hnone, -⟩ | ⟨p, -, w, hsome, -, -, hp⟩
      · rw [hwindow] at hnone
        cases hnone
      · rw [hwindow] at hsome
        cases hsome
        exact hp
    · cases hcands
      exact List.Sublist.refl _
  refine ⟨fun hkeys => ?_, fun c hc => hsub.subset (hperm.mem_iff.mp hc), fun hmode c hc => ?_⟩
  · have hmeeting := (hsub.map _).nodup (meeting_keys sh.toPassShapely hkeys req.aoi)
    exact (hperm.map _).nodup_iff.mpr hmeeting
  · rw [hmode] at hcands
    cases hcands
    exact hperm.mem_iff.mpr hc

/-! ## One round -/

theorem mem_fetched {answer : Nat → Bbox → List Item × List (Text × Text)} {allowSplitting : Bool}
    {seedBboxes : List Bbox} {f : Item}
    (h : f ∈ roundFeats ((fetched s answer allowSplitting seedBboxes).map Prod.fst)) :
    ∃ left bb, f ∈ (answer left bb).1 := by
  have hflat := (Keyed.setItems_keeps dedupeKey [] _).subset f h
  rw [List.nil_append] at hflat
  obtain ⟨items, hitems, hf⟩ := List.mem_flatten.mp hflat
  obtain ⟨result, hresult, rfl⟩ := List.mem_map.mp hitems
  obtain ⟨⟨bb, i⟩, -, rfl⟩ := List.mem_map.mp hresult
  exact ⟨s.bboxBudget - i, bb, hf⟩

/-- A round ends before a plan, or plans from all features with those of its searches. -/
theorem fillRound_cases {answer : Nat → Bbox → List Item × List (Text × Text)} {round : Nat}
    {fill : Fill} {turn : Turn} (h : fillRound sh s req answer round fill = some turn) :
    (∃ fill' why, turn = .unplanned fill' why ∧ fill'.lastResult = fill.lastResult) ∨
      ∃ next filled feats, (turn = .covered next ∨ turn = .more next) ∧
        next.merged = Keyed.setItems dedupeKey fill.merged feats ∧
        (∀ f ∈ feats, ∃ left bb, f ∈ (answer left bb).1) ∧
        next.lastResult = some filled ∧ planAll sh s req next.merged = some filled.toPassPlan := by
  unfold fillRound at h
  split at h
  · cases h
    exact Or.inl ⟨_, _, rfl, rfl⟩
  · rename_i qBboxes _
    extract_lets results merged allErrors at h
    split at h
    · cases h
      exact Or.inl ⟨_, _, rfl, rfl⟩
    · right
      obtain ⟨plan, hplan, h⟩ := Option.bind_eq_some_iff.mp h
      extract_lets filled next at h
      refine ⟨next, filled, roundFeats (results.map Prod.fst), ?_, rfl, fun f hf => mem_fetched hf,
        rfl, hplan⟩
      have hturn := Option.some.inj h
      split at hturn
      · exact Or.inl hturn.symm
      · exact Or.inr hturn.symm

/-- The features have different keys, and upstream has them all. -/
structure Reached (answers : Answers) (fill : Fill) : Prop where
  keys : (fill.merged.map dedupeKey).Nodup
  answered : ∀ f ∈ fill.merged, ∃ round left bb, f ∈ (answers round left bb).1

theorem Reached.start : Reached answers Fill.start := ⟨List.nodup_nil, fun f hf => by cases hf⟩

theorem Reached.setItems {fill next : Fill} (h : Reached answers fill) {feats : List Item}
    (hmerged : next.merged = Keyed.setItems dedupeKey fill.merged feats)
    (hfeats : ∀ f ∈ feats, ∃ round left bb, f ∈ (answers round left bb).1) :
    Reached answers next := by
  constructor
  · rw [hmerged]
    exact Keyed.setItems_nodup dedupeKey h.keys feats
  · intro f hf
    rw [hmerged] at hf
    rcases List.mem_append.mp ((Keyed.setItems_keeps dedupeKey _ _).subset f hf) with hf | hf
    · exact h.answered f hf
    · exact hfeats f hf

/-- A feature stays, where items are answered in the same way each time. -/
theorem Reached.grows {fill next : Fill} (h : Reached answers fill) {feats : List Item}
    (hmerged : next.merged = Keyed.setItems dedupeKey fill.merged feats)
    (hfeats : ∀ f ∈ feats, ∃ round left bb, f ∈ (answers round left bb).1)
    (hsame : SameAnswers answers) : ∀ f ∈ fill.merged, f ∈ next.merged := by
  intro f hf
  obtain ⟨f', hf', hkey⟩ := (Keyed.setItems_keeps dedupeKey fill.merged feats).keys f
    (List.mem_append_left _ hf)
  rw [← hmerged] at hf'
  obtain ⟨round, left, bb, hanswer⟩ := h.answered f hf
  obtain ⟨round', left', bb', hanswer'⟩ := (h.setItems hmerged hfeats).answered f' hf'
  rwa [hsame round left bb f hanswer round' left' bb' f' hanswer' hkey.symm]

/-! ## All rounds -/

theorem plannedFrom_spec (n round : Nat) {fill : Fill} (h : Reached answers fill) :
    ∀ next ∈ plannedFrom sh s req answers n round fill,
      Reached answers next ∧ ∃ plan choice, PlannedRound sh s req next plan choice ∧
        ∀ c ∈ meeting sh.toPassShapely req.aoi next.merged,
          InWindow sh plan.toPassPlan c → c ∈ choice.pool := by
  induction n generalizing round fill with
  | zero =>
    intro next hnext
    cases hnext
  | succ n ih =>
    intro next hnext
    rw [plannedFrom] at hnext
    cases hturn : fillRound sh s req (answers round) round fill with
    | none =>
      rw [hturn] at hnext
      cases hnext
    | some turn =>
      rw [hturn] at hnext
      rcases fillRound_cases hturn with ⟨fill', why, rfl, -⟩ |
        ⟨planned, filled, feats, hends, hmerged, hfeats, hlast, hplan⟩
      · cases hnext
      · have hreached := h.setItems hmerged fun f hf => ⟨round, hfeats f hf⟩
        obtain ⟨choice, hchoose, hof, hwindow⟩ := planAll_choose hplan
        have hround : PlannedRound sh s req planned filled choice := ⟨hlast, hchoose, hof⟩
        rcases hends with rfl | rfl
        · rw [List.mem_singleton.mp hnext]
          exact ⟨hreached, filled, choice, hround, hwindow⟩
        · rcases List.mem_cons.mp hnext with rfl | hnext
          · exact ⟨hreached, filled, choice, hround, hwindow⟩
          · exact ih (round + 1) hreached next hnext

/-- The features of a round are among those of later ones. -/
theorem plannedFrom_grows (hsame : SameAnswers answers) (n round : Nat) {fill : Fill}
    (h : Reached answers fill) :
    (fill :: plannedFrom sh s req answers n round fill).Pairwise
      fun a b => ∀ f ∈ a.merged, f ∈ b.merged := by
  induction n generalizing round fill with
  | zero => exact List.pairwise_singleton _ _
  | succ n ih =>
    rw [plannedFrom]
    cases hturn : fillRound sh s req (answers round) round fill with
    | none => exact List.pairwise_singleton _ _
    | some turn =>
      rcases fillRound_cases hturn with ⟨fill', why, rfl, -⟩ |
        ⟨planned, filled, feats, hends, hmerged, hfeats, hlast, hplan⟩
      · exact List.pairwise_singleton _ _
      · have hanswers : ∀ f ∈ feats, ∃ round left bb, f ∈ (answers round left bb).1 :=
          fun f hf => ⟨round, hfeats f hf⟩
        have hgrows := h.grows hmerged hanswers hsame
        rcases hends with rfl | rfl
        · exact List.pairwise_pair.mpr hgrows
        · have hlater := ih (round + 1) (h.setItems hmerged hanswers)
          refine List.pairwise_cons.mpr ⟨fun next hnext f hf => ?_, hlater⟩
          rcases List.mem_cons.mp hnext with rfl | hnext
          · exact hgrows f hf
          · exact (List.pairwise_cons.mp hlater).1 next hnext f (hgrows f hf)

/-- The loop keeps the plan of the last round that plans. -/
theorem fillFrom_lastResult (n round : Nat) {fill final : Fill} {why : Option Stopped}
    (h : fillFrom sh s req answers n round fill = some (final, why)) :
    final.lastResult =
      (((plannedFrom sh s req answers n round fill).getLast?).getD fill).lastResult := by
  induction n generalizing round fill with
  | zero =>
    cases h
    rfl
  | succ n ih =>
    rw [fillFrom] at h
    rw [plannedFrom]
    obtain ⟨turn, hturn, h⟩ := Option.bind_eq_some_iff.mp h
    rw [hturn]
    rcases fillRound_cases hturn with ⟨fill', why', rfl, hlast⟩ |
      ⟨planned, filled, feats, rfl | rfl, -⟩
    · cases h
      exact hlast
    · cases h
      rfl
    · rw [ih (round + 1) h]
      dsimp only
      rw [List.getLast?_cons, Option.getD_some]

/-! ## The uncovered fraction -/

section Uncovered

variable {P : Type} {region : G → Set P} {m : AddContent ℚ≥0 (Set.range region)}
  (h : ExactPass sh.toPassShapely region m) (haoi : 0 < sh.area req.aoi)
include h haoi

theorem choose_sound {fill : Fill} (hreached : Reached answers fill) {choice : Choice G}
    (hchoose : choose sh s req fill.merged = some choice) :
    choice.uncovered =
        m (region req.aoi \ covered region choice.selected) / m (region req.aoi) ∧
      Selection choice.pool choice.selected ∧
      Leftover m s.greedyMinMarginalCoverageFraction req.aoi choice.pool choice.selected := by
  obtain ⟨pool, hpool, rfl⟩ := Option.map_eq_some_iff.mp hchoose
  have hkeys := (candidatePool_spec hpool).1 hreached.keys
  dsimp only [selectImages]
  cases req.samePass with
  | true =>
    have hsound := same_pass_sound h s.greedyMinMarginalCoverageFraction s.numStrips haoi pool
      req.sortMode
    exact ⟨hsound.fraction, hsound.selection, same_pass_leftover h hkeys _ _ haoi⟩
  | false =>
    have hsound := greedy_cover_sound h.toExact {} s.greedyMinMarginalCoverageFraction haoi pool
      req.sortMode
    exact ⟨hsound.fraction, hsound.selection, greedy_leftover h hkeys _ haoi⟩

theorem little_worse {fill last : Fill} (hreached : Reached answers fill)
    (hlast : Reached answers last) {earlier later : Choice G}
    (hearlier : choose sh s req fill.merged = some earlier)
    (hlater : choose sh s req last.merged = some later)
    (hkept : ∀ c ∈ earlier.selected, c ∈ later.pool) : LittleWorse sh s req earlier later := by
  obtain ⟨hfraction, -, -⟩ := choose_sound h haoi hreached hearlier
  obtain ⟨hfraction', -, hleft⟩ := choose_sound h haoi hlast hlater
  have hpos : (0 : Rat) < m (region req.aoi) := by rwa [← h.area]
  unfold LittleWorse
  rw [hfraction, hfraction', h.area]
  rcases leftover_bound h hleft hkept with htarget | hlength | hbound
  · left
    rw [div_le_iff₀ hpos]
    linarith
  · exact Or.inr (Or.inl hlength)
  · right; right
    rw [div_mul_eq_mul_div, ← add_div]
    exact div_le_div_of_nonneg_right hbound (le_of_lt hpos)

omit h haoi in
/-- No feature of a round is lost by the last one. -/
theorem merged_grows (hsame : SameAnswers answers) {init : List Fill} {last : Fill}
    (hsplit : plannedRounds sh s req answers = init ++ [last]) {fill : Fill}
    (hfill : fill ∈ plannedRounds sh s req answers) : ∀ f ∈ fill.merged, f ∈ last.merged := by
  have hpairs : (Fill.start :: plannedRounds sh s req answers).Pairwise
      fun a b => ∀ f ∈ a.merged, f ∈ b.merged :=
    plannedFrom_grows hsame s.maxRounds 0 Reached.start
  rw [hsplit, List.pairwise_cons, List.pairwise_append] at hpairs
  rw [hsplit] at hfill
  rcases List.mem_append.mp hfill with hinit | hlast
  · exact hpairs.2.2.2 fill hinit last (List.mem_singleton_self last)
  · rw [List.mem_singleton.mp hlast]
    exact fun f hf => hf

theorem void_fill_bound {out : Filled} (hrun : planMosaicWithVoidFill sh s req answers = some out)
    {fill : Fill} (hfill : fill ∈ plannedRounds sh s req answers) :
    ∃ plan earlier last later, PlannedRound sh s req fill plan earlier ∧
      (plannedRounds sh s req answers).getLast? = some last ∧
      PlannedRound sh s req last out.result later ∧
      ((∀ c ∈ earlier.selected, c ∈ later.pool) → LittleWorse sh s req earlier later) ∧
      (req.samePass = false → SameAnswers answers → ∀ c ∈ earlier.selected, c ∈ later.pool) ∧
      (req.samePass = true → SameAnswers answers → ∀ c ∈ earlier.selected,
        InWindow sh out.result.toPassPlan c → c ∈ later.pool) := by
  have hrounds : ∀ next ∈ plannedRounds sh s req answers,
      Reached answers next ∧ ∃ plan choice, PlannedRound sh s req next plan choice ∧
        ∀ c ∈ meeting sh.toPassShapely req.aoi next.merged,
          InWindow sh plan.toPassPlan c → c ∈ choice.pool :=
    plannedFrom_spec s.maxRounds 0 Reached.start
  obtain ⟨hreached, plan, earlier, hearlier, -⟩ := hrounds fill hfill
  obtain ⟨init, last, hsplit⟩ : ∃ init last, plannedRounds sh s req answers = init ++ [last] :=
    ⟨_, _, (List.dropLast_concat_getLast (List.ne_nil_of_mem hfill)).symm⟩
  obtain ⟨hreached', plan', later, hlater, hwindow⟩ :=
    hrounds last (by rw [hsplit]; simp)
  have hgetLast : (plannedRounds sh s req answers).getLast? = some last := by rw [hsplit]; simp
  -- the plan of the last round is the one that is returned
  have hresult : out.result = plan' := by
    obtain ⟨⟨final, why⟩, hloop, hrun⟩ := Option.bind_eq_some_iff.mp hrun
    have hfinal := fillFrom_lastResult s.maxRounds 0 hloop
    rw [← plannedRounds, hgetLast, Option.getD_some, hlater.lastResult] at hfinal
    dsimp only at hrun
    rw [hfinal] at hrun
    cases hrun
    rfl
  -- the features of the round are among those of the last one
  have hmeeting : SameAnswers answers → ∀ c ∈ earlier.selected,
      c ∈ meeting sh.toPassShapely req.aoi last.merged := by
    intro hsame c hc
    obtain ⟨pool, hpool, rfl⟩ := Option.map_eq_some_iff.mp hearlier.choose
    obtain ⟨-, hsel, -⟩ := choose_sound h haoi hreached hearlier.choose
    have hmem := (candidatePool_spec hpool).2.1 c (hsel.subset c hc)
    have hgrows := merged_grows hsame hsplit hfill
    obtain ⟨hcand, hmeets⟩ := List.mem_filter.mp hmem
    obtain ⟨f, hf, hcf⟩ := List.mem_filterMap.mp hcand
    exact List.mem_filter.mpr ⟨List.mem_filterMap.mpr ⟨f, hgrows f hf, hcf⟩, hmeets⟩
  refine ⟨plan, earlier, last, later, hearlier, hgetLast, hresult ▸ hlater,
    little_worse h haoi hreached hreached' hearlier.choose hlater.choose, ?_, ?_⟩
  · intro hmode hsame c hc
    obtain ⟨pool', hpool', rfl⟩ := Option.map_eq_some_iff.mp hlater.choose
    exact (candidatePool_spec hpool').2.2 hmode c (hmeeting hsame c hc)
  · intro _ hsame c hc hin
    rw [hresult] at hin
    exact hwindow c (hmeeting hsame c hc) hin

end Uncovered

end

/-! ## Columns -/

/-- The widths of five columns of the unit square. -/
def width : Fin 5 → ℚ≥0 := ![2951 / 10000, 3049 / 10000, 3951 / 10000, 29 / 10000, 20 / 10000]

def leftEdge (i : Fin 5) : Rat := ∑ j with j < i, (width j : Rat)

/-- A footprint is a set of columns, given as a text with a digit for each. -/
def columnsOf (text : Text) : Finset (Fin 5) := {i | text[i.val]? = some '1'}

def columnsText (g : Finset (Fin 5)) : Text :=
  (List.finRange 5).map fun i => if i ∈ g then '1' else '0'

def columnsBounds (g : Finset (Fin 5)) : Rat × Rat × Rat × Rat :=
  if hg : g.Nonempty then
    (g.inf' hg leftEdge, 0, g.sup' hg fun i => leftEdge i + width i, 1)
  else (0, 0, 0, 0)

/-- Columns side by side, and the days of a month. The box around one strip covers the square. -/
def columns : VoidShapely (Finset (Fin 5)) where
  footprint f := match Json.get f.members "geometry".toList with
    | .str text => some (columnsOf text)
    | _ => none
  float
    | .num ds => some (Nat.ofDigitChars 10 ds 0 : Nat)
    | _ => none
  timestamp s := some (Nat.ofDigitChars 10 (s.drop 8) 0 : Nat)
  area g := ∑ i ∈ g, (width i : Rat)
  bounds := columnsBounds
  isEmpty g := g = ∅
  intersects g h := some (g ∩ h ≠ ∅)
  intersection g h := some (g ∩ h)
  difference g h := some (g \ h)
  wkb _ := none
  query _ _ := none
  mapping g := [("columns".toList, .str (columnsText g))]
  shape _ := none
  str _ := []
  geomType _ := .polygon
  geoms g := [g]
  isValid _ := some true
  makeValid g := some g
  unaryUnion gs := some (gs.foldr (· ∪ ·) ∅)
  box _ _ _ _ := Finset.univ
  centroidX g := ((columnsBounds g).1 + (columnsBounds g).2.2.1) / 2
  date t := (Calendar.Date.of 2024 6 t.floor.toNat).getD ⟨2024, 6, 1, by decide⟩
  geometry d := match Json.get d "columns".toList with
    | .str text => some (columnsOf text)
    | _ => none
  representativePoint g := some (((columnsBounds g).1 + (columnsBounds g).2.2.1) / 2, 1 / 2)
  sqrt x := (Nat.sqrt (x * 1000000000000).floor.toNat : Rat) / 1000000

/-- A scene of some columns. -/
def slice (id text day cloud : String) : Item where
  id := some id.toList
  collection := some "l2a".toList
  properties := some [("eo:cloud_cover".toList, .num cloud.toList),
    ("datetime".toList, .str ("2024-06-".toList ++ day.toList))]
  members := [("geometry".toList, .str text.toList), ("assets".toList,
    .obj [("visual".toList, .obj [("href".toList, .str "https://x/T1.tif".toList)])])]

def fillDefaults : FillSettings where
  toSettings := splitDefaults
  voidFillMaxRounds := 6
  voidPinpointMaxParts := 16
  voidFillMinUncovered := 1 / 1000
  samePassNumStrips := 1
  greedyMinMarginalCoverageFraction := 5 / 1000

def squareRequest (samePass : Bool) : FillRequest (Finset (Fin 5)) where
  aoi := Finset.univ
  searchBbox := ⟨0, 0, 1, 1⟩
  sortMode := .lowestCloud
  samePass := samePass
  page := firstPage

/-- Two scenes that cover all but a gap, and later one that overlaps both. -/
def overlapping : Answers := fun round _ _ =>
  if round = 0 then ([slice "A" "11000" "02" "10", slice "B" "00110" "02" "10"], [])
  else ([slice "C" "01100" "02" "10"], [])

/-- A scene that covers all but a gap, and later one of the gap on a day with fewer clouds. -/
def clearer : Answers := fun round _ _ =>
  if round = 0 then ([slice "A" "11110" "02" "50"], []) else ([slice "B" "00001" "20" "10"], [])

def columnsRegion (g : Finset (Fin 5)) : Set (Fin 5) := g

theorem columnsRegion_surjective (s : Set (Fin 5)) : s ∈ Set.range columnsRegion :=
  ⟨s.toFinite.toFinset, by simp [columnsRegion]⟩

theorem columnsRegion_ring : IsSetRing (Set.range columnsRegion) :=
  ⟨columnsRegion_surjective _, fun _ _ _ _ => columnsRegion_surjective _,
    fun _ _ _ _ => columnsRegion_surjective _⟩

open Classical in
/-- The area of some columns is the sum of their widths. -/
noncomputable def columnsContent : AddContent ℚ≥0 (Set.range columnsRegion) :=
  columnsRegion_ring.addContent_of_union (fun s => ∑ i with i ∈ s, width i) (by simp) (by
    intro s t _ _ hdisjoint
    rw [← Finset.sum_union]
    · congr 1
      ext i
      simp
    · rw [Finset.disjoint_left]
      intro i hs ht
      simp only [Finset.mem_filter, Finset.mem_univ, true_and] at hs ht
      exact Set.disjoint_left.mp hdisjoint hs ht)

open Classical in
theorem columnsContent_region (g : Finset (Fin 5)) :
    columnsContent (columnsRegion g) = ∑ i ∈ g, width i := by
  change (∑ i with i ∈ columnsRegion g, width i) = _
  congr 1
  ext i
  simp [columnsRegion]

theorem width_pos (i : Fin 5) : (0 : Rat) < width i := by
  revert i
  decide +kernel

theorem columns_area_pos : 0 < columns.area Finset.univ :=
  Finset.sum_pos (fun i _ => width_pos i) Finset.univ_nonempty

/-- The boxes of two geometries with a column in common meet. -/
theorem columnsBounds_meet {g h : Finset (Fin 5)} {i : Fin 5} (hg : i ∈ g) (hh : i ∈ h) :
    boundsIntersect (columnsBounds g) (columnsBounds h) = true := by
  have hpos := width_pos i
  have hmin : ∀ {k : Finset (Fin 5)} (hk : i ∈ k),
      columnsBounds k =
          (k.inf' ⟨i, hk⟩ leftEdge, 0, k.sup' ⟨i, hk⟩ fun j => leftEdge j + width j, 1) ∧
        k.inf' ⟨i, hk⟩ leftEdge ≤ leftEdge i ∧
        leftEdge i + width i ≤ k.sup' ⟨i, hk⟩ fun j => leftEdge j + width j := by
    intro k hk
    exact ⟨dif_pos _, Finset.inf'_le _ hk, Finset.le_sup' (fun j => leftEdge j + width j) hk⟩
  obtain ⟨hbounds, hlow, hhigh⟩ := hmin hg
  obtain ⟨hbounds', hlow', hhigh'⟩ := hmin hh
  rw [hbounds, hbounds', boundsIntersect]
  simp only [Bool.not_eq_true', Bool.or_eq_false_iff, decide_eq_false_iff_not, not_le, ge_iff_le]
  refine ⟨⟨⟨?_, ?_⟩, ?_⟩, ?_⟩ <;> linarith

theorem columns_exact : ExactPass columns.toPassShapely columnsRegion columnsContent where
  ring := columnsRegion_ring
  area g := by
    rw [columnsContent_region, NNRat.cast_sum]
    rfl
  isEmpty g := by simp [columns, columnsRegion]
  intersection g h := ⟨g ∩ h, rfl, by simp [columnsRegion]⟩
  difference g h := ⟨g \ h, rfl, by simp [columnsRegion]⟩
  bounds g h hapart := by
    have hnone : columnsRegion g ∩ columnsRegion h = ∅ := by
      rw [← Set.disjoint_iff_inter_eq_empty, Set.disjoint_left]
      intro i hg hh
      have hmeet := columnsBounds_meet (i := i) hg hh
      have hapart : boundsIntersect (columnsBounds g) (columnsBounds h) = false := hapart
      rw [hmeet] at hapart
      cases hapart
    rw [hnone, addContent_empty]
  query geoms g found hfound := by cases hfound
  unaryUnion gs := by
    refine ⟨_, rfl, ?_⟩
    induction gs with
    | nil => simp [columnsRegion]
    | cons g gs ih =>
      ext i
      have hrest : i ∈ columnsRegion (gs.foldr (· ∪ ·) ∅) ↔ ∃ g ∈ gs, i ∈ columnsRegion g := by
        rw [ih]
        rfl
      simp only [columnsRegion, Finset.mem_coe] at hrest
      simp [columnsRegion, hrest]
  difference_polygonal g h k _ := by simp [columns]

theorem overlapping_same : SameAnswers overlapping := by
  have hmem : ∀ round left bb, ∀ f ∈ (overlapping round left bb).1,
      f ∈ [slice "A" "11000" "02" "10", slice "B" "00110" "02" "10",
        slice "C" "01100" "02" "10"] := by
    intro round left bb f hf
    unfold overlapping at hf
    split at hf
    · exact List.mem_append_left [slice "C" "01100" "02" "10"] hf
    · exact List.mem_append_right [slice "A" "11000" "02" "10", slice "B" "00110" "02" "10"] hf
  intro round left bb f hf round' left' bb' f' hf' hkey
  exact List.inj_on_of_nodup_map (by decide) (hmem round left bb f hf)
    (hmem round' left' bb' f' hf') hkey

/-- The plan that is returned leaves little more than that of the first round. -/
theorem little_worse_overlapping : ∃ fill last earlier later,
    fill ∈ plannedRounds columns fillDefaults (squareRequest false) overlapping ∧
      choose columns fillDefaults (squareRequest false) fill.merged = some earlier ∧
      (plannedRounds columns fillDefaults (squareRequest false) overlapping).getLast? = some last ∧
      choose columns fillDefaults (squareRequest false) last.merged = some later ∧
      LittleWorse columns fillDefaults (squareRequest false) earlier later := by
  obtain ⟨out, hrun⟩ := Option.isSome_iff_exists.mp (by decide +kernel :
    (planMosaicWithVoidFill columns fillDefaults (squareRequest false) overlapping).isSome)
  have hne : (plannedRounds columns fillDefaults (squareRequest false) overlapping).isEmpty =
      false := by decide +kernel
  obtain ⟨fill, hfill⟩ := List.exists_mem_of_ne_nil _ (List.isEmpty_eq_false_iff.mp hne)
  obtain ⟨plan, earlier, last, later, hearlier, hlast, hlater, hlittle, hkept, -⟩ :=
    void_fill_bound columns_exact columns_area_pos hrun hfill
  exact ⟨fill, last, earlier, later, hfill, hearlier.choose, hlast, hlater.choose,
    hlittle (hkept rfl overlapping_same)⟩

/-- The plan that is returned leaves no more than that of any round. -/
def NeverWorse (samePass : Bool) : Prop :=
  ∀ (G P : Type) (sh : VoidShapely G) (region : G → Set P)
    (m : AddContent ℚ≥0 (Set.range region)), ExactPass sh.toPassShapely region m →
      ∀ (s : FillSettings) (req : FillRequest G) (answers : Answers) (out : Filled),
        0 < sh.area req.aoi → req.samePass = samePass →
        planMosaicWithVoidFill sh s req answers = some out →
        ∀ fill ∈ plannedRounds sh s req answers, ∀ plan ∈ fill.lastResult,
          ∀ u ∈ out.result.uncoveredFraction, ∀ u' ∈ plan.uncoveredFraction, u ≤ u'

/-- The fractions that the rounds leave, and the one that is returned. -/
def uncoveredFractions (samePass : Bool) (answers : Answers) : List (Option Rat) × Option Rat :=
  ((plannedRounds columns fillDefaults (squareRequest samePass) answers).map fun fill =>
      fill.lastResult.bind fun r => r.uncoveredFraction,
    (planMosaicWithVoidFill columns fillDefaults (squareRequest samePass) answers).bind fun out =>
      out.result.uncoveredFraction)

theorem NeverWorse.le {samePass : Bool} (h : NeverWorse samePass) {answers : Answers}
    {fractions : List (Option Rat)} {u u' : Rat}
    (heq : uncoveredFractions samePass answers = (fractions, some u)) (hu' : some u' ∈ fractions) :
    u ≤ u' := by
  obtain ⟨hrounds, hreturned⟩ := Prod.ext_iff.mp heq
  dsimp only [uncoveredFractions] at hrounds hreturned
  rw [← hrounds] at hu'
  obtain ⟨fill, hfill, hplan⟩ := List.mem_map.mp hu'
  obtain ⟨plan, hlast, hfraction⟩ := Option.bind_eq_some_iff.mp hplan
  obtain ⟨out, hrun, hout⟩ := Option.bind_eq_some_iff.mp hreturned
  exact h _ _ columns columnsRegion columnsContent columns_exact fillDefaults _ answers out
    columns_area_pos rfl hrun fill hfill plan hlast u hout u' hfraction

/-- In either mode a round can leave more than the one before. -/
theorem never_worse_fails : ¬ NeverWorse false ∧ ¬ NeverWorse true := by
  constructor
  · intro h
    have heq : uncoveredFractions false overlapping =
        ([some (20 / 10000), some (49 / 10000)], some (49 / 10000)) := by decide +kernel
    exact absurd (h.le heq List.mem_cons_self) (by norm_num)
  · intro h
    have heq : uncoveredFractions true clearer =
        ([some (20 / 10000), some (9980 / 10000)], some (9980 / 10000)) := by decide +kernel
    exact absurd (h.le heq List.mem_cons_self) (by norm_num)

end Mosaic
end Geofastmap
