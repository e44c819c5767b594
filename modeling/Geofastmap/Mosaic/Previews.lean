import Geofastmap.Mosaic.Collect

/-!
# Geofastmap.Mosaic.Previews

The footprints that a plan shows for its images, from the thumbnails of the STAC items
(`mosaic_preview_footprint.py`): which thumbnails are fetched, and where the footprints are put.

* `applyPatches_congr` : the order of the patches and how often one comes make no difference.
* `attach_applyPatches` : a plan that has some of its footprints gets the same ones.
-/

namespace Geofastmap
namespace Mosaic
namespace Preview

open Import Stac

/-- `mapping(poly)` of Shapely, which has members. -/
abbrev Footprint := {d : Dict // d ≠ []}

/-- `float(v)` and `str(v)` of Python, and the footprint in the thumbnail at a URL for a box, where
it can be fetched and read. -/
structure Images where
  float : Json → Option Rat
  str : Json → Text
  fetch : Text → List Rat → Option Footprint

/-- `mosaic_footprint_max_items` and `mosaic_footprint_distributed_wave`. -/
structure Settings where
  maxItems : Int := 200
  wave : Int := 16

/-- The part of a plan that has footprints. -/
structure PlanResult where
  selected : List Dict
  swapOptions : List (Text × List Dict)
  keys : (swapOptions.map Prod.fst).Nodup

/-- `["selected", index]` or `["swap", selected_key, alt_index]`. -/
inductive Path where
  | selected (i : Nat)
  | swap (key : Text) (j : Nat)
deriving DecidableEq

structure Spec where
  path : Path
  url : Text
  bbox4 : List Rat
deriving DecidableEq

structure Patch where
  path : Path
  footprint : Footprint

/-! ## Work specs -/

/-- A member that is a text. -/
def text? (d : Dict) (key : String) : Option Text :=
  match Json.get d key.toList with
  | .str s => some s
  | _ => none

/-- `item.get("stac_item_id") or item.get("id")`. -/
def itemId (item : Dict) : Option Text :=
  match text? item "stac_item_id" with
  | some (ch :: s) => some (ch :: s)
  | _ => text? item "id"

/-- `_feat_by_lookups` and `_resolve_feature_for_item`: of the features with one key, or with one
id, the last one. -/
def resolveFeatureForItem (features : List Item) (item : Dict) : Option Item :=
  ((text? item "key").bind fun k => features.reverse.find? fun f => dedupeKey f = k).or
    ((itemId item).bind fun i => features.reverse.find? fun f => f.id = some i)

variable (im : Images)

/-- `[float(b[0]), float(b[1]), float(b[2]), float(b[3])]`. -/
def featureBbox4 (f : Item) : Option (List Rat) :=
  match Json.get f.members "bbox".toList with
  | .arr b => if b.length < 4 then none else (b.take 4).mapM im.float
  | _ => none

def isHttp (url : Text) : Bool :=
  Sql.startsWith "http://".toList url || Sql.startsWith "https://".toList url

def workSpec (features : List Item) (path : Path) (item : Dict) : Option Spec :=
  (resolveFeatureForItem features item).bind fun feat =>
    (featureBbox4 im feat).bind fun bbox4 =>
      ((thumbnailHref im.str feat).filter isHttp).map fun url => ⟨path, url, bbox4⟩

/-- The specs of a list of items. -/
def listSpecs (features : List Item) (path : Nat → Path) (items : List Dict) : List Spec :=
  items.zipIdx.filterMap fun x => workSpec im features (path x.2) x.1

/-- `build_footprint_display_work_specs`. -/
def buildFootprintDisplayWorkSpecs (result : PlanResult) (features : List Item) (maxItems : Nat) :
    List Spec :=
  if features.isEmpty then []
  else
    (listSpecs im features .selected result.selected ++
      result.swapOptions.flatMap fun x => listSpecs im features (.swap x.1) x.2).take
        maxItems

/-! ## Patches -/

/-- `it["footprint_display"] = geo`. -/
def setFootprint (geo : Footprint) (item : Dict) : Dict :=
  setKey item "footprint_display".toList (.obj geo.1)

def modifyAlts (key : Text) (j : Nat) (geo : Footprint) (options : List (Text × List Dict)) :
    List (Text × List Dict) :=
  options.map fun (k, alts) => (k, if k = key then alts.modify j (setFootprint geo) else alts)

theorem map_fst_modifyAlts (key : Text) (j : Nat) (geo : Footprint)
    (options : List (Text × List Dict)) :
    (modifyAlts key j geo options).map Prod.fst = options.map Prod.fst := by
  unfold modifyAlts
  rw [List.map_map]
  rfl

def applyPatch (result : PlanResult) (p : Patch) : PlanResult :=
  match p.path with
  | .selected i => { result with selected := result.selected.modify i (setFootprint p.footprint) }
  | .swap key j => { result with
      swapOptions := modifyAlts key j p.footprint result.swapOptions
      keys := by rw [map_fst_modifyAlts]; exact result.keys }

/-- `apply_footprint_display_patches`. -/
def applyFootprintDisplayPatches (result : PlanResult) (patches : List Patch) : PlanResult :=
  patches.foldl applyPatch result

/-! ## Fetching here -/

/-- `cache`: what was fetched for a URL and a box. -/
abbrev Cache := List ((Text × List Rat) × Option Footprint)

/-- The patches of the specs; what was fetched once is not fetched again. -/
def gatherPatches : Cache → List Spec → List Patch
  | _, [] => []
  | cache, spec :: specs =>
    match cache.lookup (spec.url, spec.bbox4) with
    | some geo => (geo.map (⟨spec.path, ·⟩)).toList ++ gatherPatches cache specs
    | none =>
      let geo := im.fetch spec.url spec.bbox4
      (geo.map (⟨spec.path, ·⟩)).toList ++
        gatherPatches (((spec.url, spec.bbox4), geo) :: cache) specs

/-- `max(1, int(s.mosaic_footprint_max_items or 1))`. -/
def localMaxItems (s : Settings) : Nat := (max 1 (if s.maxItems = 0 then 1 else s.maxItems)).toNat

/-- `attach_footprint_displays_to_plan_result`. -/
def attachFootprintDisplays (s : Settings) (result : PlanResult) (features : List Item) :
    PlanResult :=
  applyFootprintDisplayPatches result
    (gatherPatches im [] (buildFootprintDisplayWorkSpecs im result features (localMaxItems s)))

/-! ## Specs -/

/-- The patches of some specs, each one fetched. -/
def patchesOf (specs : List Spec) : List Patch :=
  specs.filterMap fun spec => (im.fetch spec.url spec.bbox4).map (⟨spec.path, ·⟩)

variable {im}

theorem mem_patchesOf {specs : List Spec} {p : Patch} :
    p ∈ patchesOf im specs ↔
      ∃ spec ∈ specs, spec.path = p.path ∧ im.fetch spec.url spec.bbox4 = some p.footprint := by
  unfold patchesOf
  rw [List.mem_filterMap]
  constructor
  · rintro ⟨spec, hspec, h⟩
    obtain ⟨geo, hgeo, rfl⟩ := Option.map_eq_some_iff.mp h
    exact ⟨spec, hspec, rfl, hgeo⟩
  · rintro ⟨spec, hspec, hpath, hgeo⟩
    refine ⟨spec, hspec, ?_⟩
    rw [hgeo, hpath]
    rfl

theorem patchesOf_append (specs specs' : List Spec) :
    patchesOf im (specs ++ specs') = patchesOf im specs ++ patchesOf im specs' :=
  List.filterMap_append

/-- The cache changes nothing. -/
theorem gatherPatches_eq {cache : Cache}
    (hcache : ∀ url bbox4 geo, cache.lookup (url, bbox4) = some geo → geo = im.fetch url bbox4)
    (specs : List Spec) : gatherPatches im cache specs = patchesOf im specs := by
  induction specs generalizing cache with
  | nil => rfl
  | cons spec specs ih =>
    have hcons : patchesOf im (spec :: specs) =
        ((im.fetch spec.url spec.bbox4).map (⟨spec.path, ·⟩)).toList ++ patchesOf im specs := by
      unfold patchesOf
      rw [List.filterMap_cons]
      cases im.fetch spec.url spec.bbox4 <;> rfl
    unfold gatherPatches
    rw [hcons]
    split
    · rename_i geo hgeo
      rw [hcache _ _ _ hgeo, ih hcache]
    · dsimp only
      rw [ih]
      intro url bbox4 geo hgeo
      rw [List.lookup_cons] at hgeo
      split at hgeo
      · rename_i hsame
        cases eq_of_beq hsame
        exact (Option.some.inj hgeo).symm
      · exact hcache url bbox4 geo hgeo

theorem attach_eq (s : Settings) (result : PlanResult) (features : List Item) :
    attachFootprintDisplays im s result features =
      applyFootprintDisplayPatches result
        (patchesOf im (buildFootprintDisplayWorkSpecs im result features (localMaxItems s))) := by
  rw [attachFootprintDisplays, gatherPatches_eq fun _ _ _ h => by cases h]

theorem workSpec_path {features : List Item} {path : Path} {item : Dict} {spec : Spec}
    (h : workSpec im features path item = some spec) : spec.path = path := by
  obtain ⟨feat, -, h⟩ := Option.bind_eq_some_iff.mp h
  obtain ⟨bbox4, -, h⟩ := Option.bind_eq_some_iff.mp h
  obtain ⟨url, -, rfl⟩ := Option.map_eq_some_iff.mp h
  rfl

theorem mem_listSpecs {features : List Item} {path : Nat → Path} {items : List Dict} {spec : Spec}
    (h : spec ∈ listSpecs im features path items) : ∃ i, spec.path = path i := by
  obtain ⟨⟨item, i⟩, -, h⟩ := List.mem_filterMap.mp h
  exact ⟨i, workSpec_path h⟩

theorem nodup_listSpecs {features : List Item} {path : Nat → Path} (hpath : path.Injective)
    (items : List Dict) : ((listSpecs im features path items).map Spec.path).Nodup := by
  have hmap : (listSpecs im features path items).map Spec.path =
      items.zipIdx.filterMap fun x => (workSpec im features (path x.2) x.1).map fun _ => path x.2 := by
    unfold listSpecs
    rw [List.map_filterMap]
    refine List.filterMap_congr fun x _ => ?_
    cases hspec : workSpec im features (path x.2) x.1 with
    | none => rfl
    | some spec => rw [Option.map_some, Option.map_some, workSpec_path hspec]
  have hsub : (items.zipIdx.filterMap fun x =>
      (workSpec im features (path x.2) x.1).map fun _ => path x.2).Sublist
        (items.zipIdx.map fun x => path x.2) := by
    induction items.zipIdx with
    | nil => exact .slnil
    | cons x xs ih =>
      rw [List.filterMap_cons, List.map_cons]
      cases workSpec im features (path x.2) x.1 with
      | none => exact ih.cons _
      | some _ => exact ih.cons_cons _
  have hnodup : (items.zipIdx.map fun x => path x.2).Nodup := by
    have hmap : (items.zipIdx.map fun x => path x.2) = (items.zipIdx.map Prod.snd).map path := by
      rw [List.map_map]
      rfl
    rw [hmap, List.zipIdx_map_snd, ← List.range_eq_range']
    exact List.nodup_range.map hpath
  rw [hmap]
  exact hnodup.sublist hsub

theorem nodup_swapSpecs {features : List Item} {options : List (Text × List Dict)}
    (hkeys : (options.map Prod.fst).Nodup) :
    ((options.flatMap fun x => listSpecs im features (.swap x.1) x.2).map Spec.path).Nodup := by
  induction options with
  | nil => exact List.nodup_nil
  | cons option options ih =>
    rw [List.map_cons, List.nodup_cons] at hkeys
    rw [List.flatMap_cons, List.map_append, List.nodup_append]
    refine ⟨nodup_listSpecs (fun _ _ h => by cases h; rfl) _, ih hkeys.2, ?_⟩
    rintro p hp q hq rfl
    obtain ⟨spec, hspec, rfl⟩ := List.mem_map.mp hp
    obtain ⟨spec', hspec', heq⟩ := List.mem_map.mp hq
    obtain ⟨option', hmem, hspec'⟩ := List.mem_flatMap.mp hspec'
    obtain ⟨j, hj⟩ := mem_listSpecs hspec
    obtain ⟨j', hj'⟩ := mem_listSpecs hspec'
    rw [hj, hj'] at heq
    obtain ⟨hkey, -⟩ := Path.swap.inj heq
    exact hkeys.1 (hkey ▸ List.mem_map_of_mem hmem)

/-- No two specs are for one entry. -/
theorem nodup_specs (result : PlanResult) (features : List Item) (maxItems : Nat) :
    ((buildFootprintDisplayWorkSpecs im result features maxItems).map Spec.path).Nodup := by
  unfold buildFootprintDisplayWorkSpecs
  split
  · exact List.nodup_nil
  · rw [List.map_take]
    refine List.Nodup.sublist (List.take_sublist _ _) ?_
    rw [List.map_append, List.nodup_append]
    refine ⟨nodup_listSpecs (fun _ _ h => by cases h; rfl) _, ?_, ?_⟩
    · exact nodup_swapSpecs result.keys
    · rintro p hp q hq rfl
      obtain ⟨spec, hspec, rfl⟩ := List.mem_map.mp hp
      obtain ⟨spec', hspec', heq⟩ := List.mem_map.mp hq
      obtain ⟨option, -, hspec'⟩ := List.mem_flatMap.mp hspec'
      obtain ⟨i, hi⟩ := mem_listSpecs hspec
      obtain ⟨j, hj⟩ := mem_listSpecs hspec'
      rw [hi, hj] at heq
      cases heq

/-! ## Where the footprints are -/

theorem setFootprint_setFootprint (geo geo' : Footprint) (d : Dict) :
    setFootprint geo' (setFootprint geo d) = setFootprint geo' d := setKey_setKey d _ _ _

/-- The last footprint for a path. -/
def geoAt (ps : List Patch) (q : Path) : Option Footprint :=
  (ps.reverse.find? fun p => p.path = q).map Patch.footprint

def putAt (geo : Option Footprint) (d : Dict) : Dict :=
  match geo with
  | none => d
  | some geo => setFootprint geo d

/-- A plan with footprints at some paths. -/
def patched (r : PlanResult) (g : Path → Option Footprint) : PlanResult where
  selected := r.selected.mapIdx fun i d => putAt (g (.selected i)) d
  swapOptions := r.swapOptions.map fun x => (x.1, x.2.mapIdx fun j d => putAt (g (.swap x.1 j)) d)
  keys := by rw [List.map_map]; exact r.keys

theorem PlanResult.ext {r r' : PlanResult} (hselected : r.selected = r'.selected)
    (hswap : r.swapOptions = r'.swapOptions) : r = r' := by
  cases r
  cases r'
  cases hselected
  cases hswap
  rfl

theorem patched_none (r : PlanResult) : patched r (fun _ => none) = r :=
  PlanResult.ext (List.mapIdx_eq_zipIdx_map.trans (List.zipIdx_map_fst ..)) <| by
    refine (List.map_congr_left fun x _ => ?_).trans (List.map_id _)
    exact Prod.ext rfl (List.mapIdx_eq_zipIdx_map.trans (List.zipIdx_map_fst ..))

theorem modify_mapIdx (items : List Dict) (g : Nat → Option Footprint) (i : Nat)
    (geo : Footprint) :
    (items.mapIdx fun j d => putAt (g j) d).modify i (setFootprint geo) =
      items.mapIdx fun j d => putAt (if i = j then some geo else g j) d := by
  apply List.ext_getElem
  · simp
  · intro j hj _
    rw [List.getElem_modify, List.getElem_mapIdx, List.getElem_mapIdx]
    by_cases h : i = j
    · rw [if_pos h, if_pos h]
      cases g j with
      | none => rfl
      | some geo' => exact setFootprint_setFootprint geo' geo _
    · rw [if_neg h, if_neg h]

theorem applyPatch_patched (r : PlanResult) (g : Path → Option Footprint) (p : Patch) :
    applyPatch (patched r g) p =
      patched r fun q => if p.path = q then some p.footprint else g q := by
  obtain ⟨path, geo⟩ := p
  cases path with
  | selected i =>
    refine PlanResult.ext ?_ rfl
    refine (modify_mapIdx r.selected (fun j => g (.selected j)) i geo).trans ?_
    simp only [patched, Path.selected.injEq]
  | swap key j =>
    refine PlanResult.ext rfl ?_
    simp only [applyPatch, modifyAlts, patched, List.map_map]
    refine List.map_congr_left fun x _ => Prod.ext rfl ?_
    by_cases hkey : x.1 = key
    · subst hkey
      refine (if_pos rfl).trans ((modify_mapIdx x.2 (fun j => g (.swap x.1 j)) j geo).trans ?_)
      simp only [Path.swap.injEq, true_and]
    · refine (if_neg hkey).trans ?_
      simp only [Path.swap.injEq, Ne.symm hkey, false_and, if_false]

theorem geoAt_cons (p : Patch) (ps : List Patch) (q : Path) :
    geoAt (p :: ps) q = (geoAt ps q).or (if p.path = q then some p.footprint else none) := by
  unfold geoAt
  rw [List.reverse_cons, List.find?_append, Option.map_or]
  congr 1
  by_cases h : p.path = q <;> simp [h]

theorem applyPatches_patched (r : PlanResult) (g : Path → Option Footprint) (ps : List Patch) :
    applyFootprintDisplayPatches (patched r g) ps = patched r fun q => (geoAt ps q).or (g q) := by
  induction ps generalizing g with
  | nil => rfl
  | cons p ps ih =>
    rw [applyFootprintDisplayPatches, List.foldl_cons, applyPatch_patched]
    refine (ih _).trans (congrArg (patched r) (funext fun q => ?_))
    rw [geoAt_cons, Option.or_assoc]
    congr 1
    by_cases h : p.path = q <;> simp [h]

theorem applyPatches_eq (r : PlanResult) (ps : List Patch) :
    applyFootprintDisplayPatches r ps = patched r (geoAt ps) := by
  have h := applyPatches_patched r (fun _ => none) ps
  rw [patched_none] at h
  rw [h]
  exact congrArg (patched r) (funext fun q => Option.or_none)

theorem geoAt_eq_some {ps : List Patch}
    (hps : ∀ p ∈ ps, ∀ p' ∈ ps, p.path = p'.path → p = p') {q : Path} {geo : Footprint} :
    geoAt ps q = some geo ↔ ⟨q, geo⟩ ∈ ps := by
  constructor
  · intro h
    obtain ⟨p, hp, rfl⟩ := Option.map_eq_some_iff.mp h
    have hpath : p.path = q := by simpa using List.find?_some hp
    have hmem := List.mem_reverse.mp (List.mem_of_find?_eq_some hp)
    rw [← hpath]
    exact hmem
  · intro h
    have hsome : (ps.reverse.find? fun p => p.path = q).isSome := by
      rw [List.find?_isSome]
      exact ⟨⟨q, geo⟩, List.mem_reverse.mpr h, by simp⟩
    obtain ⟨p, hp⟩ := Option.isSome_iff_exists.mp hsome
    have hpath : p.path = q := by simpa using List.find?_some hp
    have hmem := List.mem_reverse.mp (List.mem_of_find?_eq_some hp)
    rw [geoAt, hp, Option.map_some, hps p hmem _ h hpath]

/-- Patches of which no two are different for one entry have the same effect in any order and any
number of times. -/
theorem applyPatches_congr {ps ps' : List Patch}
    (hps : ∀ p ∈ ps, ∀ p' ∈ ps, p.path = p'.path → p = p') (hsub : ps' ⊆ ps) (hsup : ps ⊆ ps')
    (r : PlanResult) :
    applyFootprintDisplayPatches r ps' = applyFootprintDisplayPatches r ps := by
  rw [applyPatches_eq, applyPatches_eq]
  refine congrArg (patched r) (funext fun q => Option.ext fun geo => ?_)
  rw [geoAt_eq_some hps, geoAt_eq_some fun p hp p' hp' => hps p (hsub hp) p' (hsub hp')]
  exact ⟨fun h => hsub h, fun h => hsup h⟩

theorem patchesOf_functional {specs : List Spec} (hspecs : (specs.map Spec.path).Nodup) :
    ∀ p ∈ patchesOf im specs, ∀ p' ∈ patchesOf im specs, p.path = p'.path → p = p' := by
  intro p hp p' hp' hpath
  obtain ⟨spec, hspec, hspecpath, hgeo⟩ := mem_patchesOf.mp hp
  obtain ⟨spec', hspec', hspecpath', hgeo'⟩ := mem_patchesOf.mp hp'
  have hsame : spec = spec' :=
    List.inj_on_of_nodup_map hspecs hspec hspec' (by rw [hspecpath, hspecpath', hpath])
  rw [← hsame, hgeo] at hgeo'
  obtain ⟨path, geo⟩ := p
  obtain ⟨path', geo'⟩ := p'
  cases hpath
  cases Option.some.inj hgeo'
  rfl

/-! ## The same specs again -/

theorem text?_setFootprint (geo : Footprint) (d : Dict) (key : String)
    (hkey : key.toList ≠ "footprint_display".toList) :
    text? (setFootprint geo d) key = text? d key := by
  rw [text?, setFootprint, Json.get_setKey, if_neg hkey]
  rfl

theorem workSpec_setFootprint (features : List Item) (path : Path) (geo : Footprint) (d : Dict) :
    workSpec im features path (setFootprint geo d) = workSpec im features path d := by
  have hkey := text?_setFootprint geo d "key" (by decide)
  have hstac := text?_setFootprint geo d "stac_item_id" (by decide)
  have hid := text?_setFootprint geo d "id" (by decide)
  simp only [workSpec, resolveFeatureForItem, itemId, hkey, hstac, hid]

theorem listSpecs_modify (features : List Item) (path : Nat → Path) (items : List Dict) (i : Nat)
    (geo : Footprint) :
    listSpecs im features path (items.modify i (setFootprint geo)) =
      listSpecs im features path items := by
  have hzip : ∀ n, ((items.modify i (setFootprint geo)).zipIdx n).filterMap
      (fun x => workSpec im features (path x.2) x.1) =
        (items.zipIdx n).filterMap fun x => workSpec im features (path x.2) x.1 := by
    induction items generalizing i with
    | nil => intro n; simp
    | cons d items ih =>
      intro n
      cases i with
      | zero =>
        rw [List.modify_zero_cons, List.zipIdx_cons, List.zipIdx_cons, List.filterMap_cons,
          List.filterMap_cons, workSpec_setFootprint]
      | succ i =>
        rw [List.modify_succ_cons, List.zipIdx_cons, List.zipIdx_cons, List.filterMap_cons,
          List.filterMap_cons, ih]
  exact hzip 0

theorem specs_applyPatch (result : PlanResult) (p : Patch) (features : List Item)
    (maxItems : Nat) :
    buildFootprintDisplayWorkSpecs im (applyPatch result p) features maxItems =
      buildFootprintDisplayWorkSpecs im result features maxItems := by
  obtain ⟨path, geo⟩ := p
  unfold buildFootprintDisplayWorkSpecs applyPatch
  cases path with
  | selected i => simp only [listSpecs_modify]
  | swap key j =>
    have hswap : ((modifyAlts key j geo result.swapOptions).flatMap fun x =>
        listSpecs im features (.swap x.1) x.2) =
          result.swapOptions.flatMap fun x => listSpecs im features (.swap x.1) x.2 := by
      rw [modifyAlts, List.flatMap_map]
      refine List.flatMap_congr fun x _ => ?_
      dsimp only
      split
      · exact listSpecs_modify ..
      · rfl
    simp only [hswap]

/-- Footprints that are there do not change what is fetched. -/
theorem specs_applyPatches (result : PlanResult) (ps : List Patch) (features : List Item)
    (maxItems : Nat) :
    buildFootprintDisplayWorkSpecs im (applyFootprintDisplayPatches result ps) features maxItems =
      buildFootprintDisplayWorkSpecs im result features maxItems := by
  induction ps generalizing result with
  | nil => rfl
  | cons p ps ih => exact (ih (applyPatch result p)).trans (specs_applyPatch ..)

theorem applyPatches_append (result : PlanResult) (ps ps' : List Patch) :
    applyFootprintDisplayPatches result (ps ++ ps') =
      applyFootprintDisplayPatches (applyFootprintDisplayPatches result ps) ps' :=
  List.foldl_append

/-- A plan with some of its footprints gets the same ones as without. -/
theorem attach_applyPatches (s : Settings) {result : PlanResult} {features : List Item}
    {ps : List Patch}
    (hps : ps ⊆
      patchesOf im (buildFootprintDisplayWorkSpecs im result features (localMaxItems s))) :
    attachFootprintDisplays im s (applyFootprintDisplayPatches result ps) features =
      attachFootprintDisplays im s result features := by
  rw [attach_eq, attach_eq, specs_applyPatches, ← applyPatches_append]
  refine applyPatches_congr (patchesOf_functional (nodup_specs ..)) ?_ ?_ result
  · exact List.append_subset.mpr ⟨hps, List.Subset.refl _⟩
  · exact List.subset_append_right ..

end Preview
end Mosaic
end Geofastmap
