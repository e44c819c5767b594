import Geofastmap.Interleave.Refine
import Geofastmap.Items.Logical

/-!
# Geofastmap.Items.Effects

Each request to `crud/features.py` does what the map of features says.

* `draftOf_ok` : whichever way a feature is inserted, its rows make up its geometry.
* `crud_trace` : every sequence of requests is one of writes to the map.
* `featureCount_exact` : the cached count of a collection stays the number of its features.
-/

namespace Geofastmap
namespace Items
namespace Crud

open Import Bulk Interleave

/-! ## What is inserted -/

section
variable {G : Type} {S : Shapely G ℚ} {D : Postgis} {lim : Limits} {L : Reader}
  {region : G → Set (ℚ × ℚ)} {stored : Text → Set (ℚ × ℚ)} {canon : Json → Json}

/-- A geometry that is not empty, or none. -/
theorem geometryOf_nonempty {geomDict : Option Json} {g : G}
    (h : geometryOf S lim geomDict = .ok (some g)) : S.isEmpty g = false := by
  cases geomDict with
  | none => cases h
  | some geomDict =>
    obtain ⟨g₀, -, h⟩ := Db.Catalog.bind_eq_ok.mp h
    obtain ⟨repaired, -, h⟩ := Db.Catalog.bind_eq_ok.mp h
    cases repaired with
    | none => cases h
    | some g' =>
      dsimp only at h
      split at h
      · cases h
      · rename_i hempty
        split at h
        · cases h
        · cases h
          simpa using hempty

variable (S lim) in
theorem subdivided_eq (depth : Nat) {g : G} (hg : S.isEmpty g = false) :
    subdivided S lim depth g ≠ [] ∧ subdivided S lim depth g =
      subdivideGeometryByVertices S lim.featuresSubdivideMaxVertices.toNat depth g := by
  obtain ⟨hne, hall⟩ := subdivide_nonempty (S := S) lim.featuresSubdivideMaxVertices.toNat depth g hg
  have heq : subdivided S lim depth g = subdivideGeometryByVertices S
      lim.featuresSubdivideMaxVertices.toNat depth g :=
    List.filter_eq_self.mpr fun p hp => by simp [hall p hp]
  exact ⟨heq ▸ hne, heq⟩

/-- A feature is inserted as at least one row. -/
theorem draftOf_some {depth : Nat} {geom : Option G} (hgeom : ∀ g ∈ geom, S.isEmpty g = false)
    {props : Props} {draft : Option Draft} (h : draftOf S D lim depth geom props = .ok draft) :
    ∃ d, draft = some d := by
  cases geom with
  | none =>
    obtain ⟨d, -, h⟩ := Db.Catalog.bind_eq_ok.mp h
    cases h
    exact ⟨d, rfl⟩
  | some g =>
    unfold draftOf at h
    dsimp only at h
    split at h
    · split at h
      · rename_i hnone
        exact absurd (List.map_eq_nil_iff.mp hnone) (subdivided_eq S lim depth (hgeom g rfl)).1
      · obtain ⟨d, -, h⟩ := Db.Catalog.bind_eq_ok.mp h
        cases h
        exact ⟨d, rfl⟩
    · obtain ⟨d, -, h⟩ := Db.Catalog.bind_eq_ok.mp h
      cases h
      exact ⟨d, rfl⟩

variable (F : Faithful S D L region stored canon)

section
include F

/-- The points of a geometry that is read back from the database. -/
theorem geometryOf_geojson {text : Text} {geomDict : Option Json} {geom : Option G}
    (hgeojson : L.geometryToGeojson text = .ok geomDict)
    (h : geometryOf S lim geomDict = .ok geom) : regionOf region geom = stored text := by
  cases geomDict with
  | none =>
    cases h
    exact (F.geojson_none text hgeojson).symm
  | some geomDict =>
    obtain ⟨g₀, hshape, h⟩ := Db.Catalog.bind_eq_ok.mp h
    have hg₀ : region g₀ = stored text := F.geojson text geomDict g₀ hgeojson hshape
    obtain ⟨repaired, hrepaired, h⟩ := Db.Catalog.bind_eq_ok.mp h
    cases repaired with
    | none => cases h
    | some g' =>
      have hg' : region g' = region g₀ := by
        unfold validGeometry at hrepaired
        split at hrepaired
        · cases hrepaired
          rfl
        · exact F.makeValid g₀ g' hrepaired
      dsimp only at h
      split at h
      · rename_i hempty
        cases h
        rw [← hg₀, ← hg', (F.exact.isEmpty g').mp hempty]
        rfl
      · split at h
        · cases h
        · cases h
          exact hg'.trans hg₀

theorem propertiesColumn_loads {props : Props} {column : Text}
    (h : propertiesColumn D props = .ok column) (k : Text) :
    (L.loads column).lookup k = (props.lookup k).map canon := by
  unfold propertiesColumn at h
  split at h
  · rename_i hempty
    cases h
    rw [F.null, List.isEmpty_iff.mp hempty]
    rfl
  · cases hjsonb : D.jsonb (Json.dumps (.obj props)) with
    | error e =>
      rw [hjsonb] at h
      cases h
    | ok v =>
      rw [hjsonb] at h
      cases h
      exact F.jsonb props v hjsonb k

/-- The row of a feature without a geometry. -/
theorem insertSubdivided_none {props : Props} {d : Draft}
    (h : insertSubdivided D lim none props = .ok d) :
    draftRegion stored d = ∅ ∧
      ∀ k, (L.loads d.properties).lookup k = (props.lookup k).map canon := by
  obtain ⟨column, hcolumn, h⟩ := Db.Catalog.bind_eq_ok.mp h
  cases h
  exact ⟨by simp [draftRegion], propertiesColumn_loads F hcolumn⟩

theorem insertSubdivided_some {props : Props} {g : G} (hg : S.isEmpty g = false) {d : Draft}
    (h : insertSubdivided D lim (some (S.wkt g)) props = .ok d) :
    draftRegion stored d = region g ∧
      ∀ k, (L.loads d.properties).lookup k = (props.lookup k).map canon := by
  obtain ⟨column, hcolumn, h⟩ := Db.Catalog.bind_eq_ok.mp h
  simp only [S.wkt_nonempty g hg, Bool.false_eq_true, if_false] at h
  obtain ⟨rows, hrows, h⟩ := Db.Catalog.bind_eq_ok.mp h
  cases h
  refine ⟨?_, propertiesColumn_loads F hcolumn⟩
  rw [← F.subdivide g _ rows hrows]
  simp [draftRegion, List.filterMap_map]

theorem force2d_all {gs : List G} {texts : List Text}
    (h : (gs.map S.wkt).mapM D.force2d = .ok texts) :
    {x | ∃ t ∈ texts, x ∈ stored t} = {x | ∃ g ∈ gs, x ∈ region g} := by
  induction gs generalizing texts with
  | nil =>
    cases h
    simp
  | cons g gs ih =>
    rw [List.map_cons, List.mapM_cons] at h
    obtain ⟨first, hfirst, h⟩ := Db.Catalog.bind_eq_ok.mp h
    obtain ⟨rest, hrest, h⟩ := Db.Catalog.bind_eq_ok.mp h
    cases h
    have hrest := Set.ext_iff.mp (ih hrest)
    simp only [Set.mem_ofPred_eq] at hrest
    ext x
    simp only [Set.mem_ofPred_eq, List.exists_mem_cons_iff, F.force2d g first hfirst, hrest x]

/-- The rows of a geometry that is subdivided before it is sent. -/
theorem insertFeatureParts_ok {props : Props} {g : G} {gs : List G} {d : Draft}
    (h : insertFeatureParts D (S.wkt g) (gs.map S.wkt) props = .ok d) :
    draftRegion stored d = {x | ∃ p ∈ g :: gs, x ∈ region p} ∧
      ∀ k, (L.loads d.properties).lookup k = (props.lookup k).map canon := by
  obtain ⟨column, hcolumn, h⟩ := Db.Catalog.bind_eq_ok.mp h
  obtain ⟨first, hfirst, h⟩ := Db.Catalog.bind_eq_ok.mp h
  obtain ⟨rest, hrest, h⟩ := Db.Catalog.bind_eq_ok.mp h
  cases h
  refine ⟨?_, propertiesColumn_loads F hcolumn⟩
  have hall : ((g :: gs).map S.wkt).mapM D.force2d = .ok (first :: rest) := by
    rw [List.map_cons, List.mapM_cons, hfirst, hrest]
    rfl
  rw [← force2d_all F hall]
  simp [draftRegion, List.filterMap_map]

/-- Whichever way a feature is inserted, its rows make up the geometry. -/
theorem draftOf_ok {depth : Nat} {geom : Option G} (hgeom : ∀ g ∈ geom, S.isEmpty g = false)
    {props : Props} {draft : Option Draft} (h : draftOf S D lim depth geom props = .ok draft) :
    ∃ d, draft = some d ∧ draftRegion stored d = regionOf region geom ∧
      ∀ k, (L.loads d.properties).lookup k = (props.lookup k).map canon := by
  cases geom with
  | none =>
    obtain ⟨d, hd, h⟩ := Db.Catalog.bind_eq_ok.mp h
    cases h
    exact ⟨d, rfl, insertSubdivided_none F hd⟩
  | some g =>
    have hg := hgeom g rfl
    unfold draftOf at h
    dsimp only at h
    split at h
    · obtain ⟨hne, hpieces⟩ := subdivided_eq S lim depth hg
      have hunion := subdivide_union F.exact lim.featuresSubdivideMaxVertices.toNat depth hg
      rw [← hpieces] at hunion
      cases hlist : subdivided S lim depth g with
      | nil => exact absurd hlist hne
      | cons p ps =>
        rw [hlist] at h hunion
        obtain ⟨d, hd, h⟩ := Db.Catalog.bind_eq_ok.mp h
        cases h
        obtain ⟨hregion, hprops⟩ := insertFeatureParts_ok F hd
        exact ⟨d, rfl, hregion.trans hunion, hprops⟩
    · obtain ⟨d, hd, h⟩ := Db.Catalog.bind_eq_ok.mp h
      cases h
      exact ⟨d, rfl, insertSubdivided_some F hg hd⟩

/-! ## One request -/

variable {depth : Nat} {hidden : Text → List Text} {t : Tables}

/-- A feature that is inserted where there is none. -/
theorem insert_cells (ht : Sound t) {c i : Text} {now : Int} {d : Draft} {t' : Tables}
    (h : t.insert c i now (some d) = .ok t') :
    cells L stored t c i = none ∧ Sound t' ∧
      cells L stored t' = (cells L stored t).set c i (some (none, draftLogical L stored now d)) := by
  obtain ⟨hparts, -, rfl⟩ := insert_ok ht h
  exact ⟨cells_eq_none.mpr hparts, ht.insert hparts, cells_insert F.union hparts⟩

omit F in
theorem draftLogical_written {now : Int} {d : Draft} {geom : Option G} {props : Props}
    (hregion : draftRegion stored d = regionOf region geom)
    (hprops : ∀ k, (L.loads d.properties).lookup k = (props.lookup k).map canon) :
    draftLogical L stored now d = written region canon geom props now := by
  unfold draftLogical written
  rw [hregion, funext hprops]

theorem prepare_ok {geomDict : Option Json} {props : Option Props} {draft : Option Draft}
    (h : prepare S D lim L depth geomDict props = .ok draft) (now : Int) :
    ∃ geom d, geometryOf S lim geomDict = .ok geom ∧ draft = some d ∧
      draftLogical L stored now d =
        written region canon geom ((propertiesWithoutReadonly props).getD []) now := by
  obtain ⟨geom, hgeom, h⟩ := Db.Catalog.bind_eq_ok.mp h
  obtain ⟨-, -, h⟩ := Db.Catalog.bind_eq_ok.mp h
  have hnonempty : ∀ g ∈ geom, S.isEmpty g = false := by
    rintro g rfl
    exact geometryOf_nonempty hgeom
  obtain ⟨d, hd, hregion, hprops⟩ := draftOf_ok F hnonempty h
  exact ⟨geom, d, hgeom, hd, draftLogical_written hregion hprops⟩

omit F in
theorem bind_eq_error {α β : Type} {x : Except Raised α} {f : α → Except Raised β} {e : Raised}
    (h : x >>= f = .error e) : x = .error e ∨ ∃ a, x = .ok a ∧ f a = .error e := by
  cases x with
  | error e' =>
    cases h
    exact Or.inl rfl
  | ok a => exact Or.inr ⟨a, rfl, h⟩

omit F in
/-- A feature whose rows are deleted can be inserted again. -/
theorem rewrite_error {c i : Text} {now : Int} {draft : Option Draft} {e : Raised}
    (h : (t.delete c i).insert c i now draft = .error e) : e = foreignKeyViolation := by
  rcases insert_error h with he | ⟨-, hne⟩
  · exact he
  · rw [parts_delete, if_pos ⟨rfl, rfl⟩] at hne
    exact absurd rfl hne

theorem create_effect (ht : Sound t) (data : FeatureCreate) (id : Text) (now : Int) :
    ∃ m, Effect S D lim L region stored canon depth hidden (cells L stored t) (.create data id now)
        (see L stored (createFeatureWithId S D lim L depth hidden t data id now).1) m ∧
      Sound (createFeatureWithId S D lim L depth hidden t data id now).2 ∧
      cells L stored (createFeatureWithId S D lim L depth hidden t data id now).2 = m := by
  unfold createFeatureWithId
  split
  · rename_i e he
    refine ⟨_, .raised ?_, ht, rfl⟩
    rcases bind_eq_error he with he | ⟨draft, -, he⟩
    · exact .create he
    · rcases insert_error he with rfl | ⟨rfl, hne⟩
      · exact .collection (by simp)
      · exact .taken fun hnone => hne (cells_eq_none.mp hnone)
  · rename_i inserted hinserted
    obtain ⟨draft, hdraft, hinsert⟩ := Db.Catalog.bind_eq_ok.mp hinserted
    obtain ⟨geom, d, hgeom, rfl, hnew⟩ := prepare_ok F hdraft now
    obtain ⟨hfree, hsound, hcells⟩ := insert_cells F ht hinsert
    rw [hnew] at hcells
    have hsound' : Sound (inserted.count data.collectionId (· + 1)) := hsound.count _
    have hcells' : cells L stored (inserted.count data.collectionId (· + 1)) = _ :=
      (cells_count _).trans hcells
    obtain ⟨f, hf, hc, hi, hlogical⟩ := getFeature_written
      hsound' (hidden data.collectionId) (by rw [hcells', set_same])
    simp only [hf, see, hc, hi, hlogical]
    exact ⟨_, .created hfree hgeom rfl, hsound', hcells'⟩

theorem replace_effect (ht : Sound t) (c i : Text) (data : FeatureReplace) (now : Int) :
    ∃ m, Effect S D lim L region stored canon depth hidden (cells L stored t) (.replace c i data now)
        (see L stored (replaceFeature S D lim L depth hidden t c i data now).1) m ∧
      Sound (replaceFeature S D lim L depth hidden t c i data now).2 ∧
      cells L stored (replaceFeature S D lim L depth hidden t c i data now).2 = m := by
  unfold replaceFeature
  split
  · rename_i hnone
    refine ⟨_, .missing ?_ (by simp), ht, rfl⟩
    rcases getFeature_none stored ht hnone with h | ⟨job, v, hv, hs⟩
    · exact Or.inl h
    · exact Or.inr ⟨job, v, hv, hs, by simp⟩
  · rename_i f hf
    obtain ⟨-, -, job, hs, hold⟩ := getFeature_some stored ht hf
    split
    · rename_i e he
      refine ⟨_, .raised ?_, ht, rfl⟩
      rcases bind_eq_error he with he | ⟨draft, -, he⟩
      · exact .replace he
      · rw [rewrite_error he]
        exact .collection (by simp)
    · rename_i t' ht'
      obtain ⟨draft, hdraft, hinsert⟩ := Db.Catalog.bind_eq_ok.mp ht'
      obtain ⟨geom, d, hgeom, rfl, hnew⟩ := prepare_ok F hdraft now
      obtain ⟨-, hsound, hcells⟩ := insert_cells F ht.delete hinsert
      rw [hnew, cells_delete, set_set] at hcells
      exact ⟨_, .replaced hold hs hgeom rfl, hsound, hcells⟩

theorem patchedGeometry_ok {f : Feature} {data : FeaturePatch} {geomDict : Option Json}
    (h : patchedGeometry L f data = .ok geomDict) {geom : Option G}
    (hgeom : geometryOf S lim geomDict = .ok geom) :
    PatchedRegion S lim region (logical L stored f).region data (regionOf region geom) := by
  unfold PatchedRegion logical
  unfold patchedGeometry at h
  cases hdata : data.geometry with
  | some geometry =>
    simp only [hdata] at h
    cases h
    exact ⟨geom, hgeom, rfl⟩
  | none =>
    simp only [hdata] at h
    cases hf : f.geometry with
    | none =>
      simp only [hf] at h
      cases h
      cases hgeom
      rfl
    | some text =>
      simp only [hf] at h
      exact geometryOf_geojson F h hgeom

theorem patchedProperties_lookup (f : Feature) (data : FeaturePatch) :
    (fun k => ((patchedProperties L f data).lookup k).map canon) =
      patchedProps canon (logical L stored f).props data := by
  funext k
  unfold patchedProps patchedProperties
  rw [lookup_mergeProps]
  cases ((data.properties.bind propertiesWithoutReadonly).getD []).lookup k with
  | some v => rfl
  | none =>
    -- what is read back is written as it is
    cases hold : (L.loads f.properties).lookup k with
    | none => simp [logical, hold]
    | some v => simp [logical, hold, F.loads _ _ _ hold]

theorem update_effect (ht : Sound t) (c i : Text) (data : FeaturePatch) (now : Int) :
    ∃ m, Effect S D lim L region stored canon depth hidden (cells L stored t) (.update c i data now)
        (see L stored (updateFeature S D lim L depth hidden t c i data now).1) m ∧
      Sound (updateFeature S D lim L depth hidden t c i data now).2 ∧
      cells L stored (updateFeature S D lim L depth hidden t c i data now).2 = m := by
  unfold updateFeature
  split
  · rename_i hnone
    refine ⟨_, .missing ?_ (by simp), ht, rfl⟩
    rcases getFeature_none stored ht hnone with h | ⟨job, v, hv, hs⟩
    · exact Or.inl h
    · exact Or.inr ⟨job, v, hv, hs, by simp⟩
  · rename_i f hf
    obtain ⟨-, -, job, hs, hold⟩ := getFeature_some stored ht hf
    split
    · rename_i e he
      refine ⟨_, .raised ?_, ht, rfl⟩
      rcases bind_eq_error he with he | ⟨draft, -, he⟩
      · exact .update hold he
      · rw [rewrite_error he]
        exact .collection (by simp)
    · rename_i t' ht'
      obtain ⟨draft, hprepare, hinsert⟩ := Db.Catalog.bind_eq_ok.mp ht'
      obtain ⟨geomDict, hpatched, hprepare⟩ := Db.Catalog.bind_eq_ok.mp hprepare
      obtain ⟨-, -, hprepare⟩ := Db.Catalog.bind_eq_ok.mp hprepare
      obtain ⟨geom, hgeom, hdraft⟩ := Db.Catalog.bind_eq_ok.mp hprepare
      have hnonempty : ∀ g ∈ geom, S.isEmpty g = false := by
        rintro g rfl
        exact geometryOf_nonempty hgeom
      obtain ⟨d, rfl, hregion, hprops⟩ := draftOf_ok F hnonempty hdraft
      obtain ⟨-, hsound, hcells⟩ := insert_cells F ht.delete hinsert
      rw [cells_delete, set_set, draftLogical_written hregion hprops] at hcells
      obtain ⟨f', hf', hc, hi, hlogical⟩ := getFeature_written hsound (hidden c)
        (by rw [hcells, set_same])
      simp only [hf', see, hc, hi, hlogical]
      exact ⟨_, .patched hold hs (patchedGeometry_ok F hpatched hgeom)
        (patchedProperties_lookup F f data) ⟨rfl, rfl⟩, hsound, hcells⟩

omit F in
theorem delete_effect (ht : Sound t) (c i : Text) :
    ∃ m, Effect S D lim L region stored canon depth hidden (cells L stored t) (.delete c i)
        (see L stored (deleteFeature t c i).1) m ∧
      Sound (deleteFeature t c i).2 ∧ cells L stored (deleteFeature t c i).2 = m := by
  unfold deleteFeature
  split
  · rename_i hparts
    exact ⟨_, .missing (Or.inl (cells_eq_none.mpr hparts)) (by simp), ht, rfl⟩
  · rename_i r rs hparts
    have hcell : ∃ cell, cells L stored t c i = some cell := by
      simp only [cells, hparts, Option.some.injEq, exists_eq']
    obtain ⟨cell, hcell⟩ := hcell
    exact ⟨_, .deleted hcell, ht.delete.count _, (cells_count _).trans cells_delete⟩

/-- Every request does to the map what `Effect` says. -/
theorem crud_refines :
    Refines (step S D lim L depth hidden) (Effect S D lim L region stored canon depth hidden) (fun _ _ => True)
      (fun t m => Sound t ∧ cells L stored t = m) (see L stored) where
  step := by
    rintro t m op ⟨ht, rfl⟩ -
    cases op with
    | create data id now => exact create_effect F ht data id now
    | replace c i data now => exact replace_effect F ht c i data now
    | update c i data now => exact update_effect F ht c i data now
    | delete c i => exact delete_effect ht c i

end

end

/-! ## A square -/

def square : Rect := ⟨(0, 0), (1, 1), 0⟩

def squareWkt : Text := "POLYGON ((0 0, 1 0, 1 1, 0 1, 0 0))".toList

def squareJson : Json := .obj [("type".toList, .str "Polygon".toList)]

/-- Rectangles, of which only the unit square is written out. -/
def squares : Shapely Rect ℚ where
  __ := rectangles fun _ => false
  shape _ := .ok square
  wkt r := if r = square then squareWkt else (rectangles fun _ => false).wkt r
  wkt_nonempty r hr := by
    split
    · decide
    · exact (rectangles fun _ => false).wkt_nonempty r hr

/-- What PostGIS and PostgreSQL make of a text that they cannot read. -/
def invalidGeometry : Raised := ("InternalError".toList, "parse error - invalid geometry".toList)

/-- A database for that square and features without properties. -/
def squarePostgis : Postgis where
  subdivide text _ :=
    if text = squareWkt then .ok ⟨[text], List.cons_ne_nil text []⟩ else .error invalidGeometry
  force2d text := if text = squareWkt then .ok text else .error invalidGeometry
  jsonb _ := .error invalidGeometry

def squareReader : Reader where
  union texts := if squareWkt ∈ texts then squareWkt else "GEOMETRYCOLLECTION EMPTY".toList
  geometryToGeojson text := .ok (if text = squareWkt then some squareJson else none)
  loads _ := []
  resolveStoredCogPath path := .ok path

open Classical in
noncomputable def squareStored (text : Text) : Set (ℚ × ℚ) :=
  if text = squareWkt then square.region else ∅

theorem squares_wkt {r : Rect} (h : squares.wkt r = squareWkt) : r = square := by
  by_contra hne
  simp only [squares, rectangles, if_neg hne] at h
  split at h
  · exact absurd h (by decide)
  · exact absurd h (by decide)

theorem squares_faithful :
    Faithful squares squarePostgis squareReader Rect.region squareStored id where
  exact :=
    have h := rectangles_exact fun _ => false
    ⟨h.isEmpty, h.bounds, h.box, h.intersection, h.parts, h.polygonal_iff, h.polygons⟩
  makeValid g g' h := by
    cases h
    rfl
  subdivide g n rows h := by
    simp only [squarePostgis] at h
    split at h
    · rename_i htext
      cases h
      obtain rfl := squares_wkt htext
      simp [htext, squareStored]
    · cases h
  force2d g t h := by
    simp only [squarePostgis] at h
    split at h
    · rename_i htext
      cases h
      rw [squareStored, if_pos htext, squares_wkt htext]
    · cases h
  union ts := by
    have hempty : "GEOMETRYCOLLECTION EMPTY".toList ≠ squareWkt := by decide
    simp only [squareReader, squareStored]
    by_cases h : squareWkt ∈ ts
    · ext x
      simp only [if_pos h, if_true, Set.mem_ofPred_eq]
      exact ⟨fun hx => ⟨squareWkt, h, by rwa [if_pos rfl]⟩, fun ⟨t, _, hx⟩ => by
        split at hx
        · exact hx
        · cases hx⟩
    · ext x
      simp only [if_neg h, if_neg hempty, Set.mem_ofPred_eq]
      refine ⟨fun hx => absurd hx (Set.notMem_empty x), fun ⟨t, ht, hx⟩ => ?_⟩
      split at hx
      · rename_i htext
        exact absurd (htext ▸ ht) h
      · exact hx
  geojson t geomDict g h hg := by
    cases hg
    simp only [squareReader, Except.ok.injEq] at h
    split at h
    · rename_i htext
      rw [squareStored, if_pos htext]
    · cases h
  geojson_none t h := by
    simp only [squareReader, Except.ok.injEq] at h
    split at h
    · cases h
    · rename_i htext
      exact if_neg htext
  null := rfl
  jsonb props v h := by cases h
  loads _ _ _ h := by cases h

/-- A collection without features. -/
def emptyTables : Tables := ⟨[], fun c => if c = "roads".toList then some 0 else none⟩

theorem emptyTables_sound : Sound emptyTables := ⟨by simp [emptyTables], by simp [emptyTables]⟩

/-- A square is created, patched and deleted. -/
def squareOps : List Op :=
  [.create ⟨"roads".toList, some squareJson, none⟩ "f1".toList 5,
    .update "roads".toList "f1".toList ⟨none, some none⟩ 7,
    .delete "roads".toList "f1".toList]

section
variable {G : Type} {S : Shapely G ℚ} {D : Postgis} {lim : Limits} {L : Reader} {depth : Nat}
  {hidden : Text → List Text} {t : Tables}

theorem prepare_some {geomDict : Option Json} {props : Option Props} {draft : Option Draft}
    (h : prepare S D lim L depth geomDict props = .ok draft) : ∃ d, draft = some d := by
  obtain ⟨geom, hgeom, h⟩ := Db.Catalog.bind_eq_ok.mp h
  obtain ⟨-, -, h⟩ := Db.Catalog.bind_eq_ok.mp h
  refine draftOf_some ?_ h
  rintro g rfl
  exact geometryOf_nonempty hgeom

theorem getFeature_parts {job : List Text} {c i : Text} {f : Feature}
    (h : getFeature job t L c i = some f) : t.parts c i ≠ [] := by
  intro hnone
  rw [getFeature, hnone] at h
  cases h

/-- The ids in a collection. -/
def Tables.featureIds (t : Tables) (c : Text) : Finset Text :=
  ((t.rows.filter fun r => r.collectionId = c).map FeatureRow.id).toFinset

/-- `feature_count` is the number of features. -/
def Counted (t : Tables) : Prop :=
  ∀ c n, t.featureCount c = some n → n = ((t.featureIds c).card : Int)

theorem mem_featureIds {c i : Text} : i ∈ t.featureIds c ↔ t.parts c i ≠ [] := by
  simp only [Tables.featureIds, List.mem_toFinset, List.mem_map, List.mem_filter,
    decide_eq_true_eq]
  constructor
  · rintro ⟨r, ⟨hr, hc⟩, hi⟩
    exact List.ne_nil_of_mem (mem_parts.mpr ⟨hr, hc, hi⟩)
  · intro hne
    obtain ⟨r, hr⟩ := List.exists_mem_of_ne_nil _ hne
    obtain ⟨hr, hc, hi⟩ := mem_parts.mp hr
    exact ⟨r, ⟨hr, hc⟩, hi⟩

theorem featureIds_insert {c i : Text} {now : Int} {d : Draft} (hparts : t.parts c i = [])
    (c' : Text) :
    ({ t with rows := t.rows ++ rowsOf c i now d } : Tables).featureIds c' =
      if c' = c then insert i (t.featureIds c) else t.featureIds c' := by
  have hne : rowsOf c i now d ≠ [] := fun h => d.nonempty (List.mapIdx_eq_nil_iff.mp h)
  ext i'
  rw [mem_featureIds, parts_insert hparts]
  by_cases hc : c' = c
  · subst hc
    by_cases hi : i' = i
    · simp [hi, hne]
    · simp [hi, mem_featureIds]
  · simp [hc, mem_featureIds]

theorem featureIds_delete (c i c' : Text) :
    (t.delete c i).featureIds c' =
      if c' = c then (t.featureIds c).erase i else t.featureIds c' := by
  ext i'
  rw [mem_featureIds, parts_delete]
  by_cases hc : c' = c
  · subst hc
    by_cases hi : i' = i
    · simp [hi]
    · simp [hi, mem_featureIds]
  · simp [hc, mem_featureIds]

/-- The rows are sound and `feature_count` is the number of features. -/
structure Tidy (t : Tables) : Prop extends Sound t where
  counted : Counted t

/-- A write that changes the ids of one collection, and its count with them. -/
theorem counted_count {t' : Tables} {c : Text} {f : Int → Int} (h : Counted t)
    (hcounts : t'.featureCount = t.featureCount)
    (hc : f (t.featureIds c).card = ((t'.featureIds c).card : Int))
    (hother : ∀ c', c' ≠ c → t'.featureIds c' = t.featureIds c') : Counted (t'.count c f) := by
  intro c' n hn
  change n = ((t'.featureIds c').card : Int)
  simp only [Tables.count, hcounts] at hn
  split at hn
  · rename_i hsame
    subst hsame
    obtain ⟨n₀, hn₀, rfl⟩ := Option.map_eq_some_iff.mp hn
    rw [h c' n₀ hn₀, hc]
  · rename_i hne
    rw [hother c' hne]
    exact h c' n hn

theorem tidy_create (h : Tidy t) (data : FeatureCreate) (id : Text) (now : Int) :
    Tidy (createFeatureWithId S D lim L depth hidden t data id now).2 := by
  unfold createFeatureWithId
  split
  · exact h
  · rename_i inserted hinserted
    obtain ⟨draft, hdraft, hinsert⟩ := Db.Catalog.bind_eq_ok.mp hinserted
    obtain ⟨d, rfl⟩ := prepare_some hdraft
    obtain ⟨hparts, -, rfl⟩ := insert_ok h.toSound hinsert
    have hnew : id ∉ t.featureIds data.collectionId := by
      rw [mem_featureIds]
      simpa using hparts
    have htidy : Tidy (({ t with rows := t.rows ++ rowsOf data.collectionId id now d } :
        Tables).count data.collectionId (· + 1)) := by
      refine ⟨(h.toSound.insert hparts).count _, counted_count h.counted rfl ?_ ?_⟩
      · rw [featureIds_insert hparts, if_pos rfl, Finset.card_insert_of_notMem hnew]
        push_cast
        rfl
      · intro c hc
        rw [featureIds_insert hparts, if_neg hc]
    dsimp only
    split
    · exact htidy
    · exact htidy

/-- A feature that is deleted and inserted again is counted as before. -/
theorem tidy_rewrite (h : Tidy t) {c i : Text} (hi : t.parts c i ≠ []) {now : Int} {d : Draft}
    {t' : Tables} (h' : (t.delete c i).insert c i now (some d) = .ok t') : Tidy t' := by
  obtain ⟨hparts, -, rfl⟩ := insert_ok h.toSound.delete h'
  refine ⟨h.toSound.delete.insert hparts, fun c' n hn => ?_⟩
  have hids : ({ t.delete c i with rows := (t.delete c i).rows ++ rowsOf c i now d } :
      Tables).featureIds c' = t.featureIds c' := by
    rw [featureIds_insert hparts, featureIds_delete, if_pos rfl,
      Finset.insert_erase (mem_featureIds.mpr hi), featureIds_delete]
    by_cases hc : c' = c
    · rw [if_pos hc, hc]
    · rw [if_neg hc, if_neg hc]
  rw [hids]
  exact h.counted c' n hn

theorem tidy_replace (h : Tidy t) (c i : Text) (data : FeatureReplace) (now : Int) :
    Tidy (replaceFeature S D lim L depth hidden t c i data now).2 := by
  unfold replaceFeature
  split
  · exact h
  · rename_i f hf
    split
    · exact h
    · rename_i t' ht'
      obtain ⟨draft, hdraft, hinsert⟩ := Db.Catalog.bind_eq_ok.mp ht'
      obtain ⟨d, rfl⟩ := prepare_some hdraft
      exact tidy_rewrite h (getFeature_parts hf) hinsert

theorem tidy_update (h : Tidy t) (c i : Text) (data : FeaturePatch) (now : Int) :
    Tidy (updateFeature S D lim L depth hidden t c i data now).2 := by
  unfold updateFeature
  split
  · exact h
  · rename_i f hf
    split
    · exact h
    · rename_i t' ht'
      obtain ⟨draft, hprepare, hinsert⟩ := Db.Catalog.bind_eq_ok.mp ht'
      obtain ⟨geomDict, -, hprepare⟩ := Db.Catalog.bind_eq_ok.mp hprepare
      obtain ⟨-, -, hprepare⟩ := Db.Catalog.bind_eq_ok.mp hprepare
      obtain ⟨geom, hgeom, hdraft⟩ := Db.Catalog.bind_eq_ok.mp hprepare
      have hnonempty : ∀ g ∈ geom, S.isEmpty g = false := by
        rintro g rfl
        exact geometryOf_nonempty hgeom
      obtain ⟨d, rfl⟩ := draftOf_some hnonempty hdraft
      have htidy := tidy_rewrite h (getFeature_parts hf) hinsert
      split
      · exact htidy
      · exact htidy

theorem tidy_delete (h : Tidy t) (c i : Text) : Tidy (deleteFeature t c i).2 := by
  unfold deleteFeature
  split
  · exact h
  · rename_i r rs hparts
    have hi : i ∈ t.featureIds c := by
      rw [mem_featureIds, hparts]
      simp
    have hpos := Finset.card_pos.mpr ⟨i, hi⟩
    refine ⟨h.toSound.delete.count _, counted_count h.counted rfl ?_ ?_⟩
    · rw [featureIds_delete, if_pos rfl, Finset.card_erase_of_mem hi]
      omega
    · intro c' hc
      rw [featureIds_delete, if_neg hc]

theorem step_tidy (h : Tidy t) (op : Op) : Tidy (step S D lim L depth hidden t op).2 := by
  cases op with
  | create data id now => exact tidy_create h data id now
  | replace c i data now => exact tidy_replace h c i data now
  | update c i data now => exact tidy_update h c i data now
  | delete c i => exact tidy_delete h c i

/-- Over every sequence of requests `feature_count` stays the number of features, each counted once
however many rows it has. -/
theorem featureCount_exact (ht : Sound t) (h : Counted t) (ops : List Op) (c : Text) (n : Int)
    (hn : (after (step S D lim L depth hidden) t ops).featureCount c = some n) :
    n = (((after (step S D lim L depth hidden) t ops).featureIds c).card : Int) := by
  have hall : Allowed (step S D lim L depth hidden) (fun _ _ => True) t ops :=
    allowed_of_forall (fun _ _ => trivial) t ops
  have htidy : Tidy (after (step S D lim L depth hidden) t ops) :=
    after_inv (I := Tidy) (fun _ op hs _ => step_tidy hs op) ⟨ht, h⟩ hall
  exact htidy.counted c n hn

end

theorem featureCount_square :
    (1 : Int) = ((after (step squares squarePostgis Limits.default squareReader 1000 fun _ => [])
      emptyTables (squareOps.take 2)).featureIds "roads".toList).card :=
  featureCount_exact emptyTables_sound (fun c n hn => by
    simp only [emptyTables] at hn
    split at hn
    · cases hn
      rfl
    · cases hn) (squareOps.take 2) "roads".toList 1 (by decide +kernel)

end Crud
end Items
end Geofastmap
