import Geofastmap.Import.Subdivide
import Geofastmap.Items.Crud

/-!
# Geofastmap.Items.Logical

The features of a collection as a map from ids to regions and properties (`cells`), and what the
writes of `crud/features.py` may do to that map (`Effect`).

* `Faithful` : what is documented of Shapely, PostGIS and `jsonb`, for the points of a geometry.
* `Sound`    : the invariant of the rows; `Sound.insert` and `Sound.delete` keep it.
* `cells_insert`, `cells_delete`, `getFeature_written` : the rows against the map.
-/

namespace Geofastmap
namespace Items
namespace Crud

open Import Bulk

/-- What a feature is, however it is cut into rows. The region is empty where there is no
geometry. -/
structure Logical where
  region : Set (ℚ × ℚ)
  props : Text → Option Json
  createdAt : Int
  updatedAt : Int

/-- The features, with the import that they belong to. -/
abbrev Cells := Text → Text → Option (Option Text × Logical)

def Cells.set (m : Cells) (collectionId id : Text) (v : Option (Option Text × Logical)) : Cells :=
  fun c i => if c = collectionId ∧ i = id then v else m c i

def jobShown (hidden : List Text) : Option Text → Bool
  | none => true
  | some job => !hidden.contains job

/-- An outcome, with the feature that is returned as a region and properties. -/
inductive Seen where
  | raised (e : Raised)
  | feature (collectionId id : Text) (v : Logical)
  | missing
  | done

section
variable {G : Type} (S : Shapely G ℚ) (D : Postgis) (lim : Limits) (L : Reader)
  (region : G → Set (ℚ × ℚ)) (stored : Text → Set (ℚ × ℚ)) (canon : Json → Json)

/-- What is documented of the programs around: `region` are the points of a geometry, `stored`
those of a text in the database, and `canon` is how `jsonb` keeps a value. -/
structure Faithful : Prop where
  exact : ExactPlane S region
  makeValid : ∀ g g', S.makeValid g = .ok (some g') → region g' = region g
  subdivide : ∀ g n rows, D.subdivide (S.wkt g) n = .ok rows →
    {x | ∃ t ∈ rows.1, x ∈ stored t} = region g
  force2d : ∀ g t, D.force2d (S.wkt g) = .ok t → stored t = region g
  union : ∀ ts, stored (L.union ts) = {x | ∃ t ∈ ts, x ∈ stored t}
  geojson : ∀ t geomDict g, L.geometryToGeojson t = .ok (some geomDict) →
    S.shape geomDict = .ok g → region g = stored t
  geojson_none : ∀ t, L.geometryToGeojson t = .ok none → stored t = ∅
  null : L.loads [] = []
  jsonb : ∀ props v, D.jsonb (Json.dumps (.obj props)) = .ok v →
    ∀ k, (L.loads v).lookup k = (props.lookup k).map canon
  loads : ∀ column k v, (L.loads column).lookup k = some v → canon v = v

def regionOf : Option G → Set (ℚ × ℚ)
  | none => ∅
  | some g => region g

def logical (f : Feature) : Logical where
  region :=
    match f.geometry with
    | none => ∅
    | some text => stored text
  props k := (L.loads f.properties).lookup k
  createdAt := f.createdAt
  updatedAt := f.updatedAt

/-- The tables as a map. -/
def cells (t : Tables) : Cells := fun c i =>
  match t.parts c i with
  | [] => none
  | r :: rs => some (r.bulkImportJobId, logical L stored (aggregate L r rs))

def see : Outcome → Seen
  | .raised e => .raised e
  | .feature f => .feature f.collectionId f.id (logical L stored f)
  | .missing => .missing
  | .done => .done

/-- What is written for a geometry and properties. -/
def written (geom : Option G) (props : Props) (now : Int) : Logical :=
  ⟨regionOf region geom, fun k => (props.lookup k).map canon, now, now⟩

/-- The properties of a patch over those of the feature. The id is not set. -/
def patchedProps (old : Text → Option Json) (data : FeaturePatch) : Text → Option Json := fun k =>
  match (((data.properties.bind propertiesWithoutReadonly).getD []).lookup k) with
  | some v => some (canon v)
  | none => old k

/-- The region of a patch, or that of the feature. -/
def PatchedRegion (old : Set (ℚ × ℚ)) (data : FeaturePatch) (new : Set (ℚ × ℚ)) : Prop :=
  match data.geometry with
  | none => new = old
  | some geomDict => ∃ geom, geometryOf S lim geomDict = .ok geom ∧ new = regionOf region geom

variable (depth : Nat) (hidden : Text → List Text)

def Op.target : Op → Text × Text
  | .create data featureId _ => (data.collectionId, featureId)
  | .replace collectionId featureId _ _ => (collectionId, featureId)
  | .update collectionId featureId _ _ => (collectionId, featureId)
  | .delete collectionId featureId => (collectionId, featureId)

/-- What refuses a request: its payload, a feature under its id, or a collection that does not exist.
Nothing refuses to delete. -/
inductive Refused (m : Cells) : Op → Raised → Prop where
  | create {data : FeatureCreate} {id : Text} {now : Int} {e : Raised}
      (h : prepare S D lim L depth data.geometry data.properties = .error e) :
      Refused m (.create data id now) e
  | taken {data : FeatureCreate} {id : Text} {now : Int} (h : m data.collectionId id ≠ none) :
      Refused m (.create data id now) uniqueViolation
  | replace {c id : Text} {data : FeatureReplace} {now : Int} {e : Raised}
      (h : prepare S D lim L depth data.geometry data.properties = .error e) :
      Refused m (.replace c id data now) e
  | update {c id : Text} {data : FeaturePatch} {now : Int} {e : Raised} {job : Option Text}
      {f : Feature} (hold : m c id = some (job, logical L stored f))
      (h : preparePatch S D lim L depth f data = .error e) : Refused m (.update c id data now) e
  | collection {op : Op} (h : ∀ c id, op ≠ .delete c id) : Refused m op foreignKeyViolation

/-- What a request may do. A feature of an import that is hidden is not found, except to be
deleted. -/
inductive Effect (m : Cells) : Op → Seen → Cells → Prop where
  | raised {op : Op} {e : Raised} (h : Refused S D lim L stored depth m op e) :
      Effect m op (.raised e) m
  | created {data : FeatureCreate} {id : Text} {now : Int} {geom : Option G} {new : Logical}
      (hfree : m data.collectionId id = none) (hgeom : geometryOf S lim data.geometry = .ok geom)
      (hnew : new = written region canon geom ((propertiesWithoutReadonly data.properties).getD [])
        now) :
      Effect m (.create data id now) (.feature data.collectionId id new)
        (m.set data.collectionId id (some (none, new)))
  | replaced {c id : Text} {data : FeatureReplace} {now : Int} {geom : Option G}
      {job : Option Text} {old new : Logical} (hold : m c id = some (job, old))
      (hshown : jobShown (hidden c) job = true) (hgeom : geometryOf S lim data.geometry = .ok geom)
      (hnew : new = written region canon geom ((propertiesWithoutReadonly data.properties).getD [])
        now) :
      Effect m (.replace c id data now) .done (m.set c id (some (none, new)))
  | patched {c id : Text} {data : FeaturePatch} {now : Int} {job : Option Text}
      {old new : Logical} (hold : m c id = some (job, old))
      (hshown : jobShown (hidden c) job = true)
      (hregion : PatchedRegion S lim region old.region data new.region)
      (hprops : new.props = patchedProps canon old.props data)
      (hnow : new.createdAt = now ∧ new.updatedAt = now) :
      Effect m (.update c id data now) (.feature c id new) (m.set c id (some (none, new)))
  | deleted {c id : Text} {cell : Option Text × Logical} (hold : m c id = some cell) :
      Effect m (.delete c id) .done (m.set c id none)
  | missing {op : Op} (h : m op.target.1 op.target.2 = none ∨
        ∃ job v, m op.target.1 op.target.2 = some (job, v) ∧
          jobShown (hidden op.target.1) job = false ∧ ∀ c id, op ≠ .delete c id)
      (hop : ∀ data id now, op ≠ .create data id now) : Effect m op .missing m

end

/-- The rows of a feature come from one write: the first part is there, and all belong to one
import. -/
structure Sound (t : Tables) : Prop where
  first : ∀ r ∈ t.rows, ∃ r' ∈ t.rows, r'.of r.collectionId r.id ∧ r'.partIndex = 0
  job : ∀ r ∈ t.rows, ∀ r' ∈ t.rows, r'.of r.collectionId r.id →
    r'.bulkImportJobId = r.bulkImportJobId

/-! ## The rows of one feature -/

section
variable {t : Tables} {c i c' i' : Text}

@[simp] theorem mem_parts {r : FeatureRow} : r ∈ t.parts c i ↔ r ∈ t.rows ∧ r.of c i := by
  simp [Tables.parts]

theorem parts_delete :
    (t.delete c i).parts c' i' = if c' = c ∧ i' = i then [] else t.parts c' i' := by
  unfold Tables.delete Tables.parts
  rw [List.filter_filter]
  split
  · rename_i h
    rw [h.1, h.2]
    simp
  · rename_i h
    refine List.filter_congr fun r _ => ?_
    by_cases hr : r.of c' i'
    · have hne : ¬ r.of c i := fun hof => h ⟨hr.1.symm.trans hof.1, hr.2.symm.trans hof.2⟩
      simp [hr, hne]
    · simp [hr]

theorem rowsOf_of {now : Int} {d : Draft} {r : FeatureRow} (h : r ∈ rowsOf c i now d) : r.of c i := by
  obtain ⟨n, hn, rfl⟩ := List.mem_mapIdx.mp h
  exact ⟨rfl, rfl⟩

theorem parts_rowsOf {now : Int} {d : Draft} :
    (rowsOf c i now d).filter (fun r => r.of c' i') =
      if c' = c ∧ i' = i then rowsOf c i now d else [] := by
  split
  · rename_i h
    rw [h.1, h.2]
    exact List.filter_eq_self.mpr fun r hr => by simpa using rowsOf_of hr
  · rename_i h
    refine List.filter_eq_nil_iff.mpr fun r hr => ?_
    have hof := rowsOf_of hr
    simp only [decide_eq_true_eq]
    rintro ⟨hc, hi⟩
    exact h ⟨hc.symm.trans hof.1, hi.symm.trans hof.2⟩

theorem insert_error {now : Int} {draft : Option Draft} {e : Raised}
    (h : t.insert c i now draft = .error e) :
    e = foreignKeyViolation ∨ (e = uniqueViolation ∧ t.parts c i ≠ []) := by
  unfold Tables.insert at h
  cases draft with
  | none => cases h
  | some d =>
    dsimp only at h
    split at h
    · cases h
      exact Or.inl rfl
    · split at h
      · rename_i hany
        cases h
        refine Or.inr ⟨rfl, fun hnone => ?_⟩
        rw [hnone] at hany
        cases hany
      · cases h

/-- An `INSERT` that is not refused adds a feature that was not there. -/
theorem insert_ok (ht : Sound t) {now : Int} {d : Draft} {t' : Tables}
    (h : t.insert c i now (some d) = .ok t') :
    t.parts c i = [] ∧ (t.featureCount c).isSome ∧
      t' = { t with rows := t.rows ++ rowsOf c i now d } := by
  unfold Tables.insert at h
  cases hc : t.featureCount c with
  | none => simp [hc] at h
  | some n =>
    simp only [hc] at h
    split at h
    · cases h
    · rename_i hany
      cases h
      refine ⟨?_, by simp, rfl⟩
      -- the first part of a feature would have the index of the first row
      by_contra hne
      obtain ⟨r, hr⟩ := List.exists_mem_of_ne_nil _ hne
      obtain ⟨hrow, hof⟩ := mem_parts.mp hr
      obtain ⟨r', hr', hof', hzero⟩ := ht.first r hrow
      rw [hof.1, hof.2] at hof'
      refine hany (List.any_eq_true.mpr ⟨r', mem_parts.mpr ⟨hr', hof'⟩, ?_⟩)
      rw [hzero]
      simpa using List.length_pos_of_ne_nil d.nonempty

theorem parts_insert {now : Int} {d : Draft} (h : t.parts c i = []) :
    ({ t with rows := t.rows ++ rowsOf c i now d } : Tables).parts c' i' =
      if c' = c ∧ i' = i then rowsOf c i now d else t.parts c' i' := by
  have happ : ({ t with rows := t.rows ++ rowsOf c i now d } : Tables).parts c' i' =
      t.parts c' i' ++ (rowsOf c i now d).filter (fun r => r.of c' i') := List.filter_append ..
  rw [happ, parts_rowsOf]
  split
  · rename_i heq
    rw [heq.1, heq.2, h, List.nil_append]
  · exact List.append_nil _

end

/-! ## The invariant -/

section
variable {t : Tables} {c i : Text}

theorem Sound.delete (h : Sound t) : Sound (t.delete c i) where
  first r hr := by
    obtain ⟨hr, hne⟩ := List.mem_filter.mp hr
    obtain ⟨r', hr', hof, hzero⟩ := h.first r hr
    refine ⟨r', List.mem_filter.mpr ⟨hr', ?_⟩, hof, hzero⟩
    simp only [Bool.not_eq_true', decide_eq_false_iff_not] at hne ⊢
    exact fun hof' => hne ⟨hof.1.symm.trans hof'.1, hof.2.symm.trans hof'.2⟩
  job r hr r' hr' hof := h.job r (List.mem_filter.mp hr).1 r' (List.mem_filter.mp hr').1 hof

theorem Sound.count (h : Sound t) (f : Int → Int) : Sound (t.count c f) := ⟨h.first, h.job⟩

theorem Sound.insert (h : Sound t) {now : Int} {d : Draft} (hparts : t.parts c i = []) :
    Sound { t with rows := t.rows ++ rowsOf c i now d } := by
  have hold : ∀ r ∈ t.rows, ¬ r.of c i := by
    intro r hr hof
    have hmem := mem_parts.mpr ⟨hr, hof⟩
    rw [hparts] at hmem
    cases hmem
  have hfirst : ∃ r' ∈ rowsOf c i now d, r'.partIndex = 0 := by
    cases hg : d.geometries with
    | nil => exact absurd hg d.nonempty
    | cons g gs => exact ⟨_, by rw [rowsOf, hg, List.mapIdx_cons]; exact List.mem_cons_self, rfl⟩
  constructor
  · intro r hr
    rcases List.mem_append.mp hr with hr | hr
    · obtain ⟨r', hr', hof, hzero⟩ := h.first r hr
      exact ⟨r', List.mem_append_left _ hr', hof, hzero⟩
    · obtain ⟨r', hr', hzero⟩ := hfirst
      have hof := rowsOf_of hr
      have hof' := rowsOf_of hr'
      exact ⟨r', List.mem_append_right _ hr',
        ⟨hof'.1.trans hof.1.symm, hof'.2.trans hof.2.symm⟩, hzero⟩
  · intro r hr r' hr' hof
    rcases List.mem_append.mp hr with hr | hr
    · rcases List.mem_append.mp hr' with hr' | hr'
      · exact h.job r hr r' hr' hof
      · have hof' := rowsOf_of hr'
        exact absurd ⟨hof.1.symm.trans hof'.1, hof.2.symm.trans hof'.2⟩ (hold r hr)
    · have hof₀ := rowsOf_of hr
      rcases List.mem_append.mp hr' with hr' | hr'
      · exact absurd ⟨hof.1.trans hof₀.1, hof.2.trans hof₀.2⟩ (hold r' hr')
      · obtain ⟨n, hn, rfl⟩ := List.mem_mapIdx.mp hr
        obtain ⟨n', hn', rfl⟩ := List.mem_mapIdx.mp hr'
        rfl

end

/-! ## What is read back -/

theorem firstPart_mem (r : FeatureRow) (rs : List FeatureRow) : firstPart r rs ∈ r :: rs := by
  induction rs generalizing r with
  | nil => simp [firstPart]
  | cons r' rs ih =>
    rw [firstPart]
    split
    · exact List.mem_cons_of_mem _ (ih r')
    · rcases List.mem_cons.mp (ih r) with h | h
      · rw [h]
        exact List.mem_cons_self
      · exact List.mem_cons_of_mem _ (List.mem_cons_of_mem _ h)

/-- An aggregate that keeps one of two equal values. -/
theorem foldl_const {f : Int → FeatureRow → Int} {now : Int} {rs : List FeatureRow}
    (h : ∀ r ∈ rs, f now r = now) : rs.foldl f now = now := by
  induction rs with
  | nil => rfl
  | cons r rs ih =>
    obtain ⟨hr, hrs⟩ := List.forall_mem_cons.mp h
    rw [List.foldl_cons, hr]
    exact ih hrs

theorem geometries_rowsOf (c i : Text) (now : Int) (d : Draft) :
    (rowsOf c i now d).filterMap FeatureRow.geometry = d.geometries.filterMap id := by
  have hmap : (rowsOf c i now d).map FeatureRow.geometry = d.geometries := by
    refine List.ext_getElem (by simp [rowsOf]) fun n hn hn' => ?_
    simp [rowsOf]
  rw [← hmap, List.filterMap_map]
  rfl

section
variable {L : Reader} {stored : Text → Set (ℚ × ℚ)} {t : Tables} {c i : Text} {now : Int}
  {d : Draft}

/-- The points of the rows of an `INSERT`. -/
def draftRegion (stored : Text → Set (ℚ × ℚ)) (d : Draft) : Set (ℚ × ℚ) :=
  {x | ∃ text ∈ d.geometries.filterMap id, x ∈ stored text}

/-- The feature that the rows of an `INSERT` are. -/
def draftLogical (L : Reader) (stored : Text → Set (ℚ × ℚ)) (now : Int) (d : Draft) : Logical :=
  ⟨draftRegion stored d, fun k => (L.loads d.properties).lookup k, now, now⟩

theorem logical_rowsOf (hunion : ∀ ts, stored (L.union ts) = {x | ∃ t ∈ ts, x ∈ stored t})
    {r : FeatureRow} {rs : List FeatureRow} (h : rowsOf c i now d = r :: rs) :
    r.bulkImportJobId = none ∧
      logical L stored (aggregate L r rs) = draftLogical L stored now d := by
  have hrow : ∀ r' ∈ r :: rs, ∃ n geometry,
      r' = ⟨i, c, n, geometry, d.properties, none, now, now⟩ := by
    intro r' hr'
    rw [← h] at hr'
    obtain ⟨n, hn, rfl⟩ := List.mem_mapIdx.mp hr'
    exact ⟨n, _, rfl⟩
  have hgeometries : (r :: rs).filterMap FeatureRow.geometry = d.geometries.filterMap id := by
    rw [← h, geometries_rowsOf]
  have hprops : (firstPart r rs).properties = d.properties := by
    obtain ⟨n, g, hfirst⟩ := hrow _ (firstPart_mem r rs)
    rw [hfirst]
  obtain ⟨n, g, hr⟩ := hrow r List.mem_cons_self
  have htime : ∀ r' ∈ rs, r'.createdAt = now ∧ r'.updatedAt = now := by
    intro r' hr'
    obtain ⟨n', g', rfl⟩ := hrow r' (List.mem_cons_of_mem _ hr')
    exact ⟨rfl, rfl⟩
  have hcreated : rs.foldl (fun least r => min least r.createdAt) r.createdAt = now := by
    rw [hr]
    exact foldl_const fun r' hr' => by rw [(htime r' hr').1, min_self]
  have hupdated : rs.foldl (fun most r => max most r.updatedAt) r.updatedAt = now := by
    rw [hr]
    exact foldl_const fun r' hr' => by rw [(htime r' hr').2, max_self]
  refine ⟨by rw [hr], ?_⟩
  simp only [logical, aggregate, draftLogical, hprops, hcreated, hupdated, hgeometries]
  congr 1
  unfold draftRegion
  cases htexts : d.geometries.filterMap id with
  | nil => simp
  | cons text texts => simp only [hunion]

theorem cells_insert (hunion : ∀ ts, stored (L.union ts) = {x | ∃ t ∈ ts, x ∈ stored t})
    (hparts : t.parts c i = []) :
    cells L stored { t with rows := t.rows ++ rowsOf c i now d } =
      (cells L stored t).set c i (some (none, draftLogical L stored now d)) := by
  funext c' i'
  rw [cells, Cells.set, parts_insert hparts]
  by_cases hsame : c' = c ∧ i' = i
  · simp only [if_pos hsame]
    cases hrows : rowsOf c i now d with
    | nil => exact absurd (List.mapIdx_eq_nil_iff.mp hrows) d.nonempty
    | cons r rs =>
      obtain ⟨hjob, hlogical⟩ := logical_rowsOf hunion hrows
      simp only [hjob, hlogical]
  · simp only [if_neg hsame]
    rfl

theorem cells_delete : cells L stored (t.delete c i) = (cells L stored t).set c i none := by
  funext c' i'
  rw [cells, Cells.set, parts_delete]
  by_cases hsame : c' = c ∧ i' = i
  · simp only [if_pos hsame]
  · simp only [if_neg hsame]
    rfl

@[simp] theorem cells_count (f : Int → Int) : cells L stored (t.count c f) = cells L stored t := rfl

@[simp] theorem set_set (m : Cells) (v v' : Option (Option Text × Logical)) :
    (m.set c i v).set c i v' = m.set c i v' := by
  funext c' i'
  unfold Cells.set
  split
  · rfl
  · rfl

@[simp] theorem set_same (m : Cells) (v : Option (Option Text × Logical)) :
    m.set c i v c i = v := if_pos ⟨rfl, rfl⟩

theorem cells_eq_none : cells L stored t c i = none ↔ t.parts c i = [] := by
  unfold cells
  cases t.parts c i <;> simp

/-- All rows of a feature are shown, or none. -/
theorem shown_parts (ht : Sound t) (hidden : List Text) {r : FeatureRow} {rs : List FeatureRow}
    (h : t.parts c i = r :: rs) :
    (t.parts c i).filter (FeatureRow.shown hidden) =
      if jobShown hidden r.bulkImportJobId then r :: rs else [] := by
  have hmem : ∀ r' ∈ r :: rs, r' ∈ t.rows ∧ r'.of c i := fun r' hr' => mem_parts.mp (h ▸ hr')
  have hshown : ∀ r' ∈ r :: rs, r'.shown hidden = jobShown hidden r.bulkImportJobId := by
    intro r' hr'
    obtain ⟨hrow, hof⟩ := hmem r' hr'
    obtain ⟨hrow₀, hof₀⟩ := hmem r List.mem_cons_self
    have hjob := ht.job r hrow₀ r' hrow ⟨hof.1.trans hof₀.1.symm, hof.2.trans hof₀.2.symm⟩
    change jobShown hidden r'.bulkImportJobId = _
    rw [hjob]
  rw [h]
  split
  · rename_i hs
    exact List.filter_eq_self.mpr fun r' hr' => (hshown r' hr').trans hs
  · rename_i hs
    exact List.filter_eq_nil_iff.mpr fun r' hr' => by rw [hshown r' hr']; exact hs

variable (stored) in
/-- `get_feature` finds the features that are not hidden. -/
theorem getFeature_none (ht : Sound t) {hidden : List Text}
    (h : getFeature hidden t L c i = none) :
    cells L stored t c i = none ∨
      ∃ job v, cells L stored t c i = some (job, v) ∧ jobShown hidden job = false := by
  cases hparts : t.parts c i with
  | nil => exact Or.inl (cells_eq_none.mpr hparts)
  | cons r rs =>
    unfold getFeature at h
    rw [shown_parts ht hidden hparts] at h
    refine Or.inr ⟨r.bulkImportJobId, logical L stored (aggregate L r rs), ?_, ?_⟩
    · simp only [cells, hparts]
    · by_contra hs
      rw [Bool.not_eq_false] at hs
      simp [hs] at h

variable (stored) in
theorem getFeature_some (ht : Sound t) {hidden : List Text} {f : Feature}
    (h : getFeature hidden t L c i = some f) :
    f.collectionId = c ∧ f.id = i ∧ ∃ job, jobShown hidden job = true ∧
      cells L stored t c i = some (job, logical L stored f) := by
  cases hparts : t.parts c i with
  | nil => simp [getFeature, hparts] at h
  | cons r rs =>
    unfold getFeature at h
    rw [shown_parts ht hidden hparts] at h
    have hof := (mem_parts.mp (hparts ▸ List.mem_cons_self : r ∈ t.parts c i)).2
    by_cases hs : jobShown hidden r.bulkImportJobId = true
    · simp only [hs, if_true, Option.some.injEq] at h
      subst h
      exact ⟨hof.1, hof.2, r.bulkImportJobId, hs, by simp only [cells, hparts]⟩
    · simp [hs] at h

/-- A feature that was just written is found. -/
theorem getFeature_written (ht : Sound t) (hidden : List Text) {v : Logical}
    (h : cells L stored t c i = some (none, v)) :
    ∃ f, getFeature hidden t L c i = some f ∧ f.collectionId = c ∧ f.id = i ∧
      logical L stored f = v := by
  cases hf : getFeature hidden t L c i with
  | none =>
    rcases getFeature_none stored ht hf with hnone | ⟨job, v', hcell, hs⟩
    · rw [h] at hnone
      cases hnone
    · rw [h] at hcell
      cases hcell
      cases hs
  | some f =>
    obtain ⟨hc, hi, job, -, hcell⟩ := getFeature_some stored ht hf
    rw [h] at hcell
    cases hcell
    exact ⟨f, rfl, hc, hi, rfl⟩

end

end Crud
end Items
end Geofastmap
