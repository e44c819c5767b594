import Mathlib.Order.BooleanAlgebra.Basic
import Geofastmap.Process.Erase
import Geofastmap.Process.Intersect

/-!
# Geofastmap.Process.Layers

One geometry against several collections: what it shares with their features, or what is left of it
without them. Shapes are Shapely geometries and `region` is what they cover; an operation may raise.

* `erase_layers` : what is left is the geometry without the layers, whatever their order; a layer
  whose union or difference raises is not erased.
* `intersect_layers` : the rows for a feature of a layer cover what the geometry shares with it.

A collection inside a collection is not inserted (`Flat`).
-/

namespace Geofastmap
namespace Process

open Composite Db Import

/-- The classes that the parts are sorted by. -/
inductive PartKind where
  | polygon | line | point | other
deriving DecidableEq

/-- Shapely and PostGIS on shapes `S` that cover elements of `G`; `none` raises. -/
structure Cutter (S G : Type) [GeneralizedBooleanAlgebra G] where
  region : S → G
  isEmpty : S → Bool
  isEmpty_iff : ∀ s, isEmpty s = true ↔ region s = ⊥
  isValid : S → Bool
  /-- `_geom_to_shapely`. -/
  loads : Text → S
  /-- `dict(r.properties) if r.properties else {}`. -/
  props : Text → Props
  unaryUnion : List S → Option S
  unaryUnion_eq : ∀ ss s, unaryUnion ss = some s → region s = (ss.map region).foldr (· ⊔ ·) ⊥
  intersects : S → S → Option Bool
  intersects_eq : ∀ a b r, intersects a b = some r → (r = true ↔ region a ⊓ region b ≠ ⊥)
  intersection : S → S → Option S
  intersection_eq : ∀ a b s, intersection a b = some s → region s = region a ⊓ region b
  difference : S → S → Option S
  difference_eq : ∀ a b s, difference a b = some s → region s = region a \ region b
  makeValid : S → Option S
  makeValid_eq : ∀ a s, makeValid a = some s → region s = region a
  kind : S → PartKind
  /-- The parts of a collection; `none` for any other geometry. -/
  geoms : S → Option (List S)
  geoms_eq : ∀ s parts, geoms s = some parts → (parts.map region).foldr (· ⊔ ·) ⊥ = region s
  /-- `b.geometry && ST_MakeEnvelope(bounds of a)`. -/
  boxMeets : S → S → Bool
  boxMeets_of_meet : ∀ a b, region a ⊓ region b ≠ ⊥ → boxMeets a b = true
  /-- `ST_Intersects(b.geometry, a)`. -/
  stIntersects : S → S → Bool
  stIntersects_eq : ∀ a b, stIntersects a b = true ↔ region a ⊓ region b ≠ ⊥

section
variable {S G : Type} [GeneralizedBooleanAlgebra G] (C : Cutter S G)

/-- The rows of a layer that the statement returns for a geometry. -/
def rowsMeeting (a : S) (layer : List Row) : List (Row × S) :=
  layer.filterMap fun r =>
    match r.geometry with
    | none => none
    | some wkb =>
      if C.boxMeets a (C.loads wkb) && C.stIntersects a (C.loads wkb) then some (r, C.loads wkb)
      else none

/-- `if not g.is_valid: g = make_valid(g)`. -/
def validated (s : S) : Option S := if C.isValid s then some s else C.makeValid s

/-- The parts of one kind, together. -/
def gather (kind : PartKind) (parts : List S) : Option (List S) :=
  match parts.filter (C.kind · = kind) with
  | [] => some []
  | p :: ps => (C.unaryUnion (p :: ps)).map fun s => [s].filter fun s => !C.isEmpty s

/-- The parts that are not empty, each made valid. -/
def cleanParts : List S → Option (List S)
  | [] => some []
  | s :: parts =>
    if C.isEmpty s then cleanParts parts
    else
      (validated C s).bind fun s =>
        (cleanParts parts).map fun rest => if C.isEmpty s then rest else s :: rest

/-- `_split_geometry_by_type_for_insert`. -/
def splitGeometryByTypeForInsert (s : S) : Option (List S) :=
  if C.isEmpty s then some []
  else
    (validated C s).bind fun s =>
      if C.isEmpty s then some []
      else
        match C.geoms s with
        | none => some [s]
        | some parts =>
          (cleanParts C parts).bind fun parts => do
            let polys ← gather C .polygon parts
            let lines ← gather C .line parts
            let points ← gather C .point parts
            return polys ++ lines ++ points

/-! ## Erase -/

/-- One layer of `_run_erase_feature_vs_layers_sync`. -/
def eraseLayer (current : S) (layer : List Row) : S :=
  match ((rowsMeeting C current layer).map Prod.snd).filter fun b => !C.isEmpty b with
  | [] => current
  | b :: bs =>
    match (C.unaryUnion (b :: bs)).bind (C.difference current) with
    | none => current
    | some diff =>
      if C.isEmpty diff || C.isValid diff then diff else (C.makeValid diff).getD diff

/-- The loop over the layers, which ends when nothing is left. -/
def eraseLayers (current : S) : List (List Row) → S
  | [] => current
  | layer :: layers =>
    let next := eraseLayer C current layer
    if C.isEmpty next then next else eraseLayers next layers

/-- `_run_erase_feature_vs_layers_sync`: the geometries that are inserted. -/
def runEraseFeatureVsLayers (a : S) (layers : List (List Row)) : Option (List S) :=
  splitGeometryByTypeForInsert C (eraseLayers C a layers)

/-! ## Intersection -/

def layerKey : Text := "_layer".toList

/-- `{**props_a, **_dict(r.properties), "_layer": cid, "_id_b": r.id}`. -/
def layerProps (propsA propsB : Props) (cid id : Text) : Props :=
  setKey (setKey (propsB.foldl (fun d kv => setKey d kv.1 kv.2) propsA) layerKey (.str cid)) idBKey
    (.str id)

/-- The shapes of one row. -/
def pairParts (a b : S) : Option (List S) :=
  if C.isEmpty b then some []
  else do
    let meets ← C.intersects a b
    if !meets then return []
    let inter ← C.intersection a b
    if C.isEmpty inter then return []
    let inter ← validated C inter
    if C.isEmpty inter then return []
    let parts ← splitGeometryByTypeForInsert C inter
    return parts.filter fun s => !C.isEmpty s

/-- An exception leaves the row out. -/
def sharedParts (a b : S) : List S := (pairParts C a b).getD []

/-- `_run_intersection_feature_vs_layers_sync`: the rows that are inserted for a layer. -/
def layerRows (a : S) (propsA : Props) (cid : Text) (layer : List Row) : List (S × Props) :=
  (rowsMeeting C a layer).flatMap fun (r, b) =>
    (sharedParts C a b).map (·, layerProps propsA (C.props r.properties) cid r.id)

def runIntersectionFeatureVsLayers (a : S) (propsA : Props) (db : CollectionId → List Row)
    (collectionIds : List CollectionId) : List (S × Props) :=
  collectionIds.flatMap fun cid => layerRows C a propsA cid (db cid)

/-! ## What the layers cover -/

/-- The shapes of a layer. -/
def shapes (layer : List Row) : List S := (layer.filterMap Row.geometry).map C.loads

/-- Everything that some shapes cover. -/
def covered (ss : List S) : G := unaryUnion (ss.map C.region)

@[simp] theorem covered_nil : covered C [] = ⊥ := rfl

@[simp] theorem covered_cons (s : S) (ss : List S) :
    covered C (s :: ss) = C.region s ⊔ covered C ss := rfl

@[simp] theorem covered_append (ss ts : List S) :
    covered C (ss ++ ts) = covered C ss ⊔ covered C ts := by
  induction ss with
  | nil => simp
  | cons s ss ih => rw [List.cons_append, covered_cons, covered_cons, ih, sup_assoc]

theorem region_unaryUnion {ss : List S} {s : S} (h : C.unaryUnion ss = some s) :
    C.region s = covered C ss := C.unaryUnion_eq ss s h

/-- Empty shapes cover nothing. -/
theorem covered_filter_isEmpty (ss : List S) :
    covered C (ss.filter fun s => !C.isEmpty s) = covered C ss := by
  induction ss with
  | nil => rfl
  | cons s ss ih =>
    by_cases h : C.isEmpty s = true
    · rw [List.filter_cons_of_neg (by simp [h]), ih, covered_cons, (C.isEmpty_iff s).mp h,
        bot_sup_eq]
    · rw [List.filter_cons_of_pos (by simpa using h), covered_cons, covered_cons, ih]

theorem map_snd_rowsMeeting (a : S) (layer : List Row) :
    (rowsMeeting C a layer).map Prod.snd =
      (shapes C layer).filter fun b => C.boxMeets a b && C.stIntersects a b := by
  unfold rowsMeeting shapes
  induction layer with
  | nil => rfl
  | cons r layer ih =>
    rw [List.filterMap_cons, List.filterMap_cons]
    cases r.geometry with
    | none => exact ih
    | some wkb =>
      by_cases h : (C.boxMeets a (C.loads wkb) && C.stIntersects a (C.loads wkb)) = true
      · simp only [h, if_true, List.map_cons, List.filter_cons_of_pos, ih]
      · simp only [h, Bool.false_eq_true, if_false, List.map_cons, ih, List.filter_cons]

theorem meets_of_region {a b : S} (h : C.region a ⊓ C.region b ≠ ⊥) :
    (C.boxMeets a b && C.stIntersects a b) = true := by
  rw [C.boxMeets_of_meet a b h, (C.stIntersects_eq a b).mpr h]
  rfl

/-- A shape that does not meet the geometry takes nothing from it. -/
theorem sdiff_covered_filter (g : G) (q : S → Bool) (ss : List S)
    (h : ∀ s ∈ ss, g ⊓ C.region s ≠ ⊥ → q s = true) :
    g \ covered C (ss.filter q) = g \ covered C ss := by
  induction ss with
  | nil => rfl
  | cons s ss ih =>
    have ih := ih fun x hx => h x (List.mem_cons_of_mem s hx)
    rw [covered_cons, sdiff_sup, ← ih]
    by_cases hq : q s = true
    · rw [List.filter_cons_of_pos hq, covered_cons, sdiff_sup]
    · have hmeet : Disjoint g (C.region s) := by
        rw [disjoint_iff]
        by_contra hne
        exact hq (h s List.mem_cons_self hne)
      rw [List.filter_cons_of_neg hq, hmeet.sdiff_eq_left, inf_eq_right.mpr sdiff_le]

/-! ## Splitting by type -/

/-- No collection is among the parts that are sorted by type. -/
def Flat (s : S) : Prop :=
  ∀ valid ∈ validated C s, ∀ parts ∈ C.geoms valid, ∀ clean ∈ cleanParts C parts,
    ∀ p ∈ clean, C.kind p ≠ .other

variable {C}

theorem region_validated {s s' : S} (h : validated C s = some s') : C.region s' = C.region s := by
  unfold validated at h
  split at h
  · cases h
    rfl
  · exact C.makeValid_eq s s' h

/-- The parts of one kind cover this. -/
def kindCovers (C : Cutter S G) (kind : PartKind) (parts : List S) : G :=
  covered C (parts.filter (C.kind · = kind))

theorem covered_gather {kind : PartKind} {parts ss : List S} (h : gather C kind parts = some ss) :
    covered C ss = kindCovers C kind parts := by
  unfold gather at h
  unfold kindCovers
  split at h
  · rename_i hnil
    cases h
    rw [hnil]
  · rename_i p ps hcons
    obtain ⟨s, hs, rfl⟩ := Option.map_eq_some_iff.mp h
    rw [covered_filter_isEmpty, covered_cons, covered_nil, sup_bot_eq, region_unaryUnion C hs, hcons]

theorem covered_cleanParts {parts clean : List S} (h : cleanParts C parts = some clean) :
    covered C clean = covered C parts := by
  induction parts generalizing clean with
  | nil =>
    cases h
    rfl
  | cons s parts ih =>
    unfold cleanParts at h
    split at h
    · rename_i hempty
      rw [covered_cons, (C.isEmpty_iff s).mp hempty, bot_sup_eq, ih h]
    · obtain ⟨s', hs', hrest⟩ := Option.bind_eq_some_iff.mp h
      obtain ⟨rest, hclean, rfl⟩ := Option.map_eq_some_iff.mp hrest
      have hregion := region_validated hs'
      split
      · rename_i hempty
        rw [(C.isEmpty_iff s').mp hempty] at hregion
        rw [covered_cons, ← hregion, bot_sup_eq, ih hclean]
      · rw [covered_cons, covered_cons, hregion, ih hclean]

theorem kindCovers_cons (kind : PartKind) (s : S) (parts : List S) :
    kindCovers C kind (s :: parts) =
      if C.kind s = kind then C.region s ⊔ kindCovers C kind parts else kindCovers C kind parts := by
  unfold kindCovers
  by_cases h : C.kind s = kind
  · rw [List.filter_cons_of_pos (by simpa using h), if_pos h]
    rfl
  · rw [List.filter_cons_of_neg (by simpa using h), if_neg h]

/-- Every part is of one of the kinds. -/
theorem covered_kinds (parts : List S) :
    kindCovers C .polygon parts ⊔ kindCovers C .line parts ⊔ kindCovers C .point parts ⊔
      kindCovers C .other parts = covered C parts := by
  induction parts with
  | nil => simp [kindCovers]
  | cons s parts ih =>
    rw [covered_cons, ← ih]
    simp only [kindCovers_cons]
    cases C.kind s <;> simp only [if_true, reduceCtorEq, if_false] <;> ac_rfl

theorem kindCovers_other {parts : List S} (h : ∀ p ∈ parts, C.kind p ≠ .other) :
    kindCovers C .other parts = ⊥ := by
  have hnil : parts.filter (C.kind · = .other) = [] :=
    List.filter_eq_nil_iff.mpr fun p hp => by simpa using h p hp
  rw [kindCovers, hnil]
  rfl

theorem covered_geoms {s : S} {parts : List S} (h : C.geoms s = some parts) :
    covered C parts = C.region s := C.geoms_eq s parts h

/-- Splitting by type loses the collections among the parts, and no others. -/
theorem covered_split {s : S} {ss : List S} (h : splitGeometryByTypeForInsert C s = some ss) :
    covered C ss ≤ C.region s ∧ (Flat C s → covered C ss = C.region s) := by
  unfold splitGeometryByTypeForInsert at h
  split at h
  · rename_i hempty
    cases h
    rw [(C.isEmpty_iff s).mp hempty]
    exact ⟨le_rfl, fun _ => rfl⟩
  · obtain ⟨s', hs', h⟩ := Option.bind_eq_some_iff.mp h
    have hregion := region_validated hs'
    rw [← hregion]
    split at h
    · rename_i hempty
      cases h
      rw [(C.isEmpty_iff s').mp hempty]
      exact ⟨le_rfl, fun _ => rfl⟩
    · split at h
      · cases h
        simp
      · rename_i parts hparts
        obtain ⟨clean, hclean, h⟩ := Option.bind_eq_some_iff.mp h
        obtain ⟨polys, hpolys, h⟩ := Option.bind_eq_some_iff.mp h
        obtain ⟨lines, hlines, h⟩ := Option.bind_eq_some_iff.mp h
        obtain ⟨points, hpoints, h⟩ := Option.bind_eq_some_iff.mp h
        cases h
        have hall : covered C (polys ++ lines ++ points) =
            kindCovers C .polygon clean ⊔ kindCovers C .line clean ⊔ kindCovers C .point clean := by
          rw [covered_append, covered_append, covered_gather hpolys, covered_gather hlines,
            covered_gather hpoints]
        have hsum := covered_kinds (C := C) clean
        rw [covered_cleanParts hclean, covered_geoms hparts, ← hall] at hsum
        refine ⟨hsum ▸ le_sup_left, fun hflat => ?_⟩
        rw [kindCovers_other (hflat s' hs' parts hparts clean hclean), sup_bot_eq] at hsum
        exact hsum

/-! ## Erasing -/

/-- What all layers cover. -/
def layersCover (C : Cutter S G) (layers : List (List Row)) : G :=
  covered C (layers.flatMap (shapes C))

theorem layersCover_cons (layer : List Row) (layers : List (List Row)) :
    layersCover C (layer :: layers) = covered C (shapes C layer) ⊔ layersCover C layers := by
  rw [layersCover, List.flatMap_cons, covered_append]
  rfl

theorem sdiff_rowsMeeting (a : S) (layer : List Row) :
    C.region a \ covered C (((rowsMeeting C a layer).map Prod.snd).filter fun b => !C.isEmpty b) =
      C.region a \ covered C (shapes C layer) := by
  rw [covered_filter_isEmpty, map_snd_rowsMeeting]
  exact sdiff_covered_filter C _ _ _ fun b _ hmeet => meets_of_region C hmeet

theorem region_repaired (d : S) :
    C.region (if C.isEmpty d || C.isValid d then d else (C.makeValid d).getD d) = C.region d := by
  split
  · rfl
  · cases hvalid : C.makeValid d with
    | none => rfl
    | some d' => exact C.makeValid_eq d d' hvalid

/-- Neither the union nor the difference of the layer raises. -/
def Erases (C : Cutter S G) (current : S) (layer : List Row) : Prop :=
  match ((rowsMeeting C current layer).map Prod.snd).filter fun b => !C.isEmpty b with
  | [] => True
  | b :: bs => ((C.unaryUnion (b :: bs)).bind (C.difference current)).isSome

/-- No union and no difference of the loop raises. -/
def ErasesAll (C : Cutter S G) (current : S) : List (List Row) → Prop
  | [] => True
  | layer :: layers =>
    let next := eraseLayer C current layer
    Erases C current layer ∧ (C.isEmpty next = false → ErasesAll C next layers)

/-- A layer takes at most itself, and all of it unless an operation raises. -/
theorem eraseLayer_region (current : S) (layer : List Row) :
    C.region current \ covered C (shapes C layer) ≤ C.region (eraseLayer C current layer) ∧
      C.region (eraseLayer C current layer) ≤ C.region current ∧
      (Erases C current layer → C.region (eraseLayer C current layer) =
        C.region current \ covered C (shapes C layer)) := by
  have hmeet := sdiff_rowsMeeting (C := C) current layer
  unfold eraseLayer Erases
  split
  · rename_i hnil
    rw [hnil, covered_nil, sdiff_bot] at hmeet
    exact ⟨hmeet ▸ le_rfl, le_rfl, fun _ => hmeet⟩
  · rename_i b bs hcons
    rw [hcons] at hmeet
    split
    · rename_i hraised
      refine ⟨sdiff_le, le_rfl, fun herases => ?_⟩
      rw [hraised] at herases
      cases herases
    · rename_i diff hdiff
      obtain ⟨u, hu, hdiff⟩ := Option.bind_eq_some_iff.mp hdiff
      have hregion : C.region diff = C.region current \ covered C (shapes C layer) := by
        rw [C.difference_eq current u diff hdiff, region_unaryUnion C hu, hmeet]
      rw [region_repaired, hregion]
      exact ⟨le_rfl, sdiff_le, fun _ => rfl⟩

theorem eraseLayers_region (current : S) (layers : List (List Row)) :
    C.region current \ layersCover C layers ≤ C.region (eraseLayers C current layers) ∧
      C.region (eraseLayers C current layers) ≤ C.region current ∧
      (ErasesAll C current layers → C.region (eraseLayers C current layers) =
        C.region current \ layersCover C layers) := by
  induction layers generalizing current with
  | nil => simp [eraseLayers, layersCover]
  | cons layer layers ih =>
    obtain ⟨hge, hle, heq⟩ := eraseLayer_region (C := C) current layer
    rw [layersCover_cons, ← sdiff_sdiff_left]
    unfold eraseLayers ErasesAll
    dsimp only
    split
    · rename_i hempty
      have hbot := (C.isEmpty_iff _).mp hempty
      rw [hbot] at hge hle heq ⊢
      have hnone : C.region current \ covered C (shapes C layer) = ⊥ := le_bot_iff.mp hge
      rw [hnone, bot_sdiff]
      exact ⟨le_rfl, bot_le, fun _ => rfl⟩
    · rename_i hrest
      obtain ⟨hge', hle', heq'⟩ := ih (eraseLayer C current layer)
      refine ⟨(sdiff_le_sdiff_right hge).trans hge', hle'.trans hle, fun herases => ?_⟩
      rw [heq' (herases.2 (by simpa using hrest)), heq herases.1]

theorem covered_le_iff {ss : List S} {g : G} :
    covered C ss ≤ g ↔ ∀ s ∈ ss, C.region s ≤ g := by
  induction ss with
  | nil => simp
  | cons s ss ih => rw [covered_cons, sup_le_iff, ih, List.forall_mem_cons]

theorem region_le_covered {ss : List S} {s : S} (h : s ∈ ss) : C.region s ≤ covered C ss :=
  covered_le_iff.mp le_rfl s h

theorem inf_covered_le_iff {g k : G} {ss : List S} :
    g ⊓ covered C ss ≤ k ↔ ∀ s ∈ ss, g ⊓ C.region s ≤ k := by
  induction ss with
  | nil => simp
  | cons s ss ih => rw [covered_cons, inf_sup_left, sup_le_iff, ih, List.forall_mem_cons]

/-- No operation on the two shapes raises, and no collection is among the parts. -/
structure SharesAll (C : Cutter S G) (a b : S) : Prop where
  returns : (pairParts C a b).isSome
  flat : ∀ inter ∈ C.intersection a b, ∀ valid ∈ validated C inter, Flat C valid

theorem covered_pairParts {a b : S} {parts : List S} (h : pairParts C a b = some parts) :
    covered C parts ≤ C.region a ⊓ C.region b ∧
      (SharesAll C a b → covered C parts = C.region a ⊓ C.region b) := by
  unfold pairParts at h
  split at h
  · rename_i hempty
    cases h
    rw [(C.isEmpty_iff b).mp hempty, inf_bot_eq]
    exact ⟨le_rfl, fun _ => rfl⟩
  obtain ⟨meets, hmeets, h⟩ := Option.bind_eq_some_iff.mp h
  split at h
  · rename_i hapart
    cases h
    have hnone : ¬ C.region a ⊓ C.region b ≠ ⊥ := fun hne => by
      rw [(C.intersects_eq a b meets hmeets).mpr hne] at hapart
      cases hapart
    rw [not_not.mp hnone]
    exact ⟨le_rfl, fun _ => rfl⟩
  obtain ⟨inter, hinter, h⟩ := Option.bind_eq_some_iff.mp h
  rw [← C.intersection_eq a b inter hinter]
  split at h
  · rename_i hempty
    cases h
    rw [(C.isEmpty_iff inter).mp hempty]
    exact ⟨le_rfl, fun _ => rfl⟩
  obtain ⟨valid, hvalid, h⟩ := Option.bind_eq_some_iff.mp h
  rw [← region_validated hvalid]
  split at h
  · rename_i hempty
    cases h
    rw [(C.isEmpty_iff valid).mp hempty]
    exact ⟨le_rfl, fun _ => rfl⟩
  obtain ⟨split, hsplit, h⟩ := Option.bind_eq_some_iff.mp h
  cases h
  rw [covered_filter_isEmpty]
  obtain ⟨hle, heq⟩ := covered_split hsplit
  exact ⟨hle, fun hshares => heq (hshares.flat inter hinter valid hvalid)⟩

/-- The parts for one row cover what the two shapes share, unless an operation raises. -/
theorem covered_sharedParts (a b : S) :
    covered C (sharedParts C a b) ≤ C.region a ⊓ C.region b ∧
      (SharesAll C a b → covered C (sharedParts C a b) = C.region a ⊓ C.region b) := by
  unfold sharedParts
  cases hparts : pairParts C a b with
  | none =>
    refine ⟨bot_le, fun hshares => ?_⟩
    have hreturns := hshares.returns
    rw [hparts] at hreturns
    cases hreturns
  | some parts => exact covered_pairParts hparts

def isTextOf (x : Option Json) (s : Text) : Bool :=
  match x with
  | some (.str t) => t == s
  | _ => false

/-- The row is one for the feature `i` of the layer `cid`. -/
def rowFor (cid i : Text) (props : Props) : Bool :=
  isTextOf (props.lookup layerKey) cid && isTextOf (props.lookup idBKey) i

theorem rowFor_layerProps (propsA propsB : Props) (cid id cid' i : Text) :
    rowFor cid' i (layerProps propsA propsB cid id) = (cid == cid' && id == i) := by
  have hne : layerKey ≠ idBKey := by decide
  simp [rowFor, layerProps, lookup_setKey, hne, isTextOf]

/-- The shapes of a feature. -/
def featureShapes (C : Cutter S G) (layer : List Row) (i : Text) : List S :=
  shapes C (layer.filter (·.id == i))

theorem mem_featureShapes {layer : List Row} {i : Text} {s : S} :
    s ∈ featureShapes C layer i ↔
      ∃ r ∈ layer, r.id = i ∧ ∃ wkb ∈ r.geometry, C.loads wkb = s := by
  unfold featureShapes shapes
  rw [List.mem_map]
  constructor
  · rintro ⟨wkb, hwkb, rfl⟩
    obtain ⟨r, hr, hgeom⟩ := List.mem_filterMap.mp hwkb
    obtain ⟨hmem, hid⟩ := List.mem_filter.mp hr
    exact ⟨r, hmem, by simpa using hid, wkb, hgeom, rfl⟩
  · rintro ⟨r, hr, hid, wkb, hwkb, rfl⟩
    exact ⟨wkb, List.mem_filterMap.mpr ⟨r, List.mem_filter.mpr ⟨hr, by simpa using hid⟩, hwkb⟩, rfl⟩

theorem mem_rowsMeeting {a b : S} {layer : List Row} {r : Row} :
    (r, b) ∈ rowsMeeting C a layer ↔
      r ∈ layer ∧ (∃ wkb ∈ r.geometry, C.loads wkb = b) ∧
        (C.boxMeets a b && C.stIntersects a b) = true := by
  unfold rowsMeeting
  rw [List.mem_filterMap]
  constructor
  · rintro ⟨r', hr', h⟩
    split at h
    · cases h
    · rename_i wkb hwkb
      split at h
      · rename_i hmeet
        cases h
        exact ⟨hr', ⟨wkb, hwkb, rfl⟩, hmeet⟩
      · cases h
  · rintro ⟨hr, ⟨wkb, hwkb, rfl⟩, hmeet⟩
    refine ⟨r, hr, ?_⟩
    rw [Option.mem_def] at hwkb
    simp only [hwkb, hmeet, if_true]

variable {propsA : Props} {db : CollectionId → List Row} {collectionIds : List CollectionId}

/-- Where a row comes from. -/
theorem mem_runIntersection {a : S} {row : S × Props} :
    row ∈ runIntersectionFeatureVsLayers C a propsA db collectionIds ↔
      ∃ cid ∈ collectionIds, ∃ r b, (r, b) ∈ rowsMeeting C a (db cid) ∧
        row.1 ∈ sharedParts C a b ∧ row.2 = layerProps propsA (C.props r.properties) cid r.id := by
  obtain ⟨s, props⟩ := row
  simp only [runIntersectionFeatureVsLayers, layerRows, List.mem_flatMap, List.mem_map,
    Prod.mk.injEq, Prod.exists]
  constructor
  · rintro ⟨cid, hcid, r, b, hrb, s', hs', rfl, rfl⟩
    exact ⟨cid, hcid, r, b, hrb, hs', rfl⟩
  · rintro ⟨cid, hcid, r, b, hrb, hs, rfl⟩
    exact ⟨cid, hcid, r, b, hrb, s, hs, rfl, rfl⟩

variable (C propsA db) in
/-- What is inserted for a geometry against some layers: each row is for a feature of one of them
and lies in what the geometry shares with that feature; and where no operation on a row of a feature
raises and no collection is among its parts, the rows for it cover all of it. -/
theorem intersect_layers (a : S) (collectionIds : List CollectionId) :
    (∀ row ∈ runIntersectionFeatureVsLayers C a propsA db collectionIds,
      ∃ cid ∈ collectionIds, ∃ r ∈ db cid,
        row.2 = layerProps propsA (C.props r.properties) cid r.id ∧
        C.region row.1 ≤ C.region a ⊓ covered C (featureShapes C (db cid) r.id)) ∧
      ∀ cid ∈ collectionIds, ∀ i,
        (∀ r b, (r, b) ∈ rowsMeeting C a (db cid) → r.id = i → SharesAll C a b) →
        covered C (((runIntersectionFeatureVsLayers C a propsA db collectionIds).filter
          fun row => rowFor cid i row.2).map Prod.fst) =
        C.region a ⊓ covered C (featureShapes C (db cid) i) := by
  have hsound : ∀ row ∈ runIntersectionFeatureVsLayers C a propsA db collectionIds,
      ∃ cid ∈ collectionIds, ∃ r ∈ db cid,
        row.2 = layerProps propsA (C.props r.properties) cid r.id ∧
        C.region row.1 ≤ C.region a ⊓ covered C (featureShapes C (db cid) r.id) := by
    intro row hrow
    obtain ⟨cid, hcid, r, b, hrb, hpart, hprops⟩ := mem_runIntersection.mp hrow
    obtain ⟨hr, ⟨wkb, hwkb, rfl⟩, -⟩ := mem_rowsMeeting.mp hrb
    refine ⟨cid, hcid, r, hr, hprops, ?_⟩
    have hle := (region_le_covered hpart).trans (covered_sharedParts a (C.loads wkb)).1
    exact hle.trans (inf_le_inf_left _
      (region_le_covered (mem_featureShapes.mpr ⟨r, hr, rfl, wkb, hwkb, rfl⟩)))
  refine ⟨hsound, fun cid hcid i hshares => le_antisymm ?_ ?_⟩
  · rw [covered_le_iff]
    intro s hs
    obtain ⟨row, hrow, rfl⟩ := List.mem_map.mp hs
    obtain ⟨hrow, hfor⟩ := List.mem_filter.mp hrow
    obtain ⟨cid', -, r, -, hprops, hle⟩ := hsound row hrow
    rw [hprops, rowFor_layerProps] at hfor
    simp only [Bool.and_eq_true, beq_iff_eq] at hfor
    obtain ⟨rfl, rfl⟩ := hfor
    exact hle
  · rw [inf_covered_le_iff]
    intro b hb
    obtain ⟨r, hr, rfl, wkb, hwkb, rfl⟩ := mem_featureShapes.mp hb
    by_cases hmeet : C.region a ⊓ C.region (C.loads wkb) = ⊥
    · rw [hmeet]
      exact bot_le
    · have hrow : (r, C.loads wkb) ∈ rowsMeeting C a (db cid) :=
        mem_rowsMeeting.mpr ⟨hr, ⟨wkb, hwkb, rfl⟩, meets_of_region C hmeet⟩
      rw [← (covered_sharedParts a (C.loads wkb)).2 (hshares r _ hrow rfl), covered_le_iff]
      intro s hs
      refine region_le_covered (List.mem_map.mpr
        ⟨(s, layerProps propsA (C.props r.properties) cid r.id), ?_, rfl⟩)
      refine List.mem_filter.mpr ⟨?_, by simp [rowFor_layerProps]⟩
      exact mem_runIntersection.mpr ⟨cid, hcid, r, C.loads wkb, hrow, hs, rfl⟩

end

/-- Shapes as sets of code points. -/
def letterShapes : Cutter (Finset Nat) (Finset Nat) where
  region s := s
  isEmpty s := decide (s = ⊥)
  isEmpty_iff s := decide_eq_true_iff
  isValid _ := true
  loads w := (w.map Char.toNat).toFinset
  props _ := []
  unaryUnion ss := some (ss.foldr (· ⊔ ·) ⊥)
  unaryUnion_eq ss s h := by rw [← Option.some.inj h, List.map_id']
  intersects a b := some (decide (a ⊓ b ≠ ⊥))
  intersects_eq a b r h := by rw [← Option.some.inj h, decide_eq_true_eq]
  intersection a b := some (a ⊓ b)
  intersection_eq _ _ _ h := (Option.some.inj h).symm
  difference a b := some (a \ b)
  difference_eq _ _ _ h := (Option.some.inj h).symm
  makeValid s := some s
  makeValid_eq _ _ h := (Option.some.inj h).symm
  kind _ := .polygon
  geoms _ := none
  geoms_eq := nofun
  boxMeets a b := decide (a ⊓ b ≠ ⊥)
  boxMeets_of_meet a b h := decide_eq_true h
  stIntersects a b := decide (a ⊓ b ≠ ⊥)
  stIntersects_eq a b := decide_eq_true_iff

def lettersAt (id wkb : Text) : List Row := [⟨id, [], 0, some wkb, [], none, 0, 0⟩]

theorem split_letters (s : Finset Nat) :
    ∃ parts, splitGeometryByTypeForInsert letterShapes s = some parts := by
  by_cases h : s = ⊥
  · exact ⟨[], by simp [splitGeometryByTypeForInsert, letterShapes, h]⟩
  · have hempty : letterShapes.isEmpty s = false := decide_eq_false h
    have hvalid : validated letterShapes s = some s := rfl
    refine ⟨[s], ?_⟩
    simp only [splitGeometryByTypeForInsert, hempty, hvalid, Option.bind_some]
    rfl

theorem shares_letters (a b : Finset Nat) : SharesAll letterShapes a b := by
  refine ⟨?_, nofun⟩
  obtain ⟨parts, hparts⟩ := split_letters (a ⊓ b)
  unfold pairParts
  simp only [letterShapes, validated] at hparts ⊢
  simp only [if_true, Option.bind_eq_bind, Option.bind_some, hparts]
  repeat' split
  all_goals rfl

theorem intersect_layers_letters :
    covered letterShapes (((runIntersectionFeatureVsLayers letterShapes {120, 121} []
      (fun _ => lettersAt ['a'] ['y', 'w']) [['l']]).filter
        fun row => rowFor ['l'] ['a'] row.2).map Prod.fst) = {121} := by
  have h := (intersect_layers letterShapes [] (fun _ => lettersAt ['a'] ['y', 'w']) {120, 121}
    [['l']]).2 ['l'] List.mem_cons_self ['a'] fun _ b _ _ => shares_letters _ b
  exact h.trans (by decide)

end Process
end Geofastmap
