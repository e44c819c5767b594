import Mathlib.Algebra.Order.Ring.Rat
import Geofastmap.Import.Parts
import Geofastmap.Items.Rows

/-!
# Geofastmap.Items.Crud

The writes of `crud/features.py`: `create_feature`, `create_feature_with_id`, `replace_feature`,
`update_feature` and `delete_feature` on the rows of `features`, and `get_feature`, which puts the
rows of a feature together again.

A request that raises before its commit leaves the tables as they were.
-/

namespace Geofastmap
namespace Items
namespace Crud

open Import Bulk

/-- A row of `features`. No properties are the empty text, which stands for `NULL`. -/
structure FeatureRow where
  id : Text
  collectionId : Text
  partIndex : Nat
  geometry : Option Text
  properties : Text
  bulkImportJobId : Option Text
  createdAt : Int
  updatedAt : Int
deriving DecidableEq

/-- The table of features and `feature_count` of the collections that exist. -/
structure Tables where
  rows : List FeatureRow
  featureCount : Text → Option Int

abbrev Props := List (Text × Json)

/-- What is stored of a feature, read back by the driver. -/
structure Feature where
  id : Text
  collectionId : Text
  /-- `ST_AsText(ST_Union(geometry))`. -/
  geometry : Option Text
  properties : Text
  createdAt : Int
  updatedAt : Int

structure FeatureCreate where
  collectionId : Text
  geometry : Option Json
  properties : Option Props

structure FeatureReplace where
  geometry : Option Json
  properties : Option Props

/-- The members that a patch sets. -/
structure FeaturePatch where
  geometry : Option (Option Json)
  properties : Option (Option Props)

/-- What the driver and the database make of a stored column. -/
structure Reader where
  /-- `ST_AsText(ST_Union(geometry))`. -/
  union : List Text → Text
  /-- `geometry_to_geojson`. -/
  geometryToGeojson : Text → Except Raised (Option Json)
  /-- The mapping in a `jsonb` column. -/
  loads : Text → Props
  /-- `resolve_stored_cog_path`, for `raster_storage_path`. -/
  resolveStoredCogPath : Text → Except Raised Text

/-- `_properties_without_readonly`. -/
def propertiesWithoutReadonly (props : Option Props) : Option Props :=
  props.map fun members => members.filter fun m => m.1 != "id".toList

/-- `{**existing, **incoming}`. -/
def mergeProps (existing incoming : Props) : Props :=
  existing.map (fun m => (m.1, (incoming.lookup m.1).getD m.2)) ++
    incoming.filter fun m => (existing.lookup m.1).isNone

theorem lookup_mapValue (f : Text → Json → Json) (members : Props) (k : Text) :
    (members.map fun m => (m.1, f m.1 m.2)).lookup k = (members.lookup k).map (f k) := by
  induction members with
  | nil => rfl
  | cons m ms ih =>
    rw [List.map_cons, List.lookup_cons, List.lookup_cons, ih]
    cases hk : k == m.1 with
    | true => simp [eq_of_beq hk]
    | false => rfl

theorem lookup_filterKey (p : Text → Bool) (members : Props) (k : Text) :
    (members.filter fun m => p m.1).lookup k = if p k then members.lookup k else none := by
  induction members with
  | nil => simp
  | cons m ms ih =>
    rw [List.filter_cons, List.lookup_cons]
    cases hk : k == m.1 with
    | true =>
      obtain rfl := eq_of_beq hk
      cases hp : p m.1 with
      | true => rw [if_pos rfl, List.lookup_cons, beq_self_eq_true, if_pos rfl]
      | false => simpa [hp] using ih
    | false =>
      cases hp : p m.1 with
      | true => rw [if_pos rfl, List.lookup_cons, hk, ih]
      | false => simpa using ih

/-- What is set is over what was there. -/
theorem lookup_mergeProps (existing incoming : Props) (k : Text) :
    (mergeProps existing incoming).lookup k = (incoming.lookup k).or (existing.lookup k) := by
  unfold mergeProps
  rw [List.lookup_append, lookup_mapValue (fun key v => (incoming.lookup key).getD v),
    lookup_filterKey fun key => (existing.lookup key).isNone]
  cases existing.lookup k with
  | none => simp
  | some v => cases incoming.lookup k <;> simp

section
variable {G : Type} (S : Shapely G ℚ) (D : Postgis) (lim : Limits) (L : Reader)

/-- `_validate_raster_cog_path_in_properties`. -/
def validateRasterCogPath (props : Props) : Except Raised Unit :=
  match props.lookup "raster".toList with
  | some (.obj raster) =>
    match raster.lookup "cog_path".toList with
    | some (.str path) =>
      if strip path = [] then .ok () else (L.resolveStoredCogPath path).map fun _ => ()
    | _ => .ok ()
  | _ => .ok ()

/-- `f"{max_bytes / (1024 * 1024):.0f}"`. -/
def mebibytes (maxBytes : Nat) : Nat :=
  let whole := maxBytes / 1048576
  let rest := maxBytes % 1048576
  if 524288 < rest ∨ (rest = 524288 ∧ whole % 2 = 1) then whole + 1 else whole

/-- `GeometryTooLargeError`. -/
def geometryTooLarge (wkbBytes maxBytes : Nat) : Raised :=
  ("GeometryTooLargeError".toList, "Geometry exceeds maximum size (".toList ++
    Sql.digits (mebibytes maxBytes) ++ " MiB): WKB is ".toList ++ Sql.digits wkbBytes ++
    " bytes, limit is ".toList ++ Sql.digits maxBytes ++ " bytes.".toList)

/-- `if not geom.is_valid: geom = make_valid(geom)`. -/
def validGeometry (geom : G) : Except Raised (Option G) :=
  if S.isValid geom then .ok (some geom) else S.makeValid geom

/-- `shape`, `make_valid` and the limit on the size; an empty geometry is none. -/
def geometryOf : Option Json → Except Raised (Option G)
  | none => .ok none
  | some geomDict => do
    let geom ← S.shape geomDict
    let valid ← validGeometry S geom
    match valid with
    | none =>
      .error ("AttributeError".toList, "'NoneType' object has no attribute 'is_empty'".toList)
    | some geom =>
      if S.isEmpty geom then return none
      else if exceedsLimit S lim geom then
        .error (geometryTooLarge (S.wkbLength geom) lim.featuresMaxGeometryBytes.toNat)
      else return some geom

/-- `insert_feature_subdivided_sql` with the setting as it is. -/
def insertSubdivided (wkt : Option Text) (props : Props) : Except Raised Draft := do
  let properties ← propertiesColumn D props
  match wkt with
  | none => return ⟨properties, [none], oneNull_nonempty⟩
  | some text =>
    if isEmptyOrNullWkt text then return ⟨properties, [none], oneNull_nonempty⟩
    else
      let rows ← D.subdivide text lim.featuresSubdivideMaxVertices.toNat
      return ⟨properties, rows.1.map some, mt List.map_eq_nil_iff.mp rows.2⟩

/-- The pieces of a geometry that is subdivided before it is sent. -/
def subdivided (depth : Nat) (geom : G) : List G :=
  (subdivideGeometryByVertices S lim.featuresSubdivideMaxVertices.toNat depth geom).filter fun p =>
    !S.isEmpty p

/-- The rows that a geometry and properties are inserted as: none where there are no pieces. -/
def draftOf (depth : Nat) (geom : Option G) (props : Props) : Except Raised (Option Draft) :=
  match geom with
  | some geom =>
    if maxCoordsForDbSubdivide < coordCount S depth geom then
      match (subdivided S lim depth geom).map S.wkt with
      | [] => .ok none
      | text :: texts => do return some (← insertFeatureParts D text texts props)
    else do return some (← insertSubdivided D lim (some (S.wkt geom)) props)
  | none => do return some (← insertSubdivided D lim none props)

end

section
variable (hidden : List Text) (t : Tables)

def FeatureRow.of (collectionId id : Text) (r : FeatureRow) : Prop :=
  r.collectionId = collectionId ∧ r.id = id
deriving Decidable

/-- `bulk_import_job_id IS NULL OR bulk_import_job_id != ALL(:shadow_exclude_jobs)`. -/
def FeatureRow.shown (r : FeatureRow) : Bool :=
  match r.bulkImportJobId with
  | none => true
  | some job => !hidden.contains job

/-- The rows of a feature. -/
def Tables.parts (collectionId id : Text) : List FeatureRow :=
  t.rows.filter fun r => r.of collectionId id

/-- The part with the least index. -/
def firstPart : FeatureRow → List FeatureRow → FeatureRow
  | r, [] => r
  | r, r' :: rs => firstPart (if r'.partIndex < r.partIndex then r' else r) rs

/-- The aggregates over the rows of a group. -/
def aggregate (L : Reader) (r : FeatureRow) (rs : List FeatureRow) : Feature where
  id := r.id
  collectionId := r.collectionId
  geometry :=
    match (r :: rs).filterMap FeatureRow.geometry with
    | [] => none
    | texts => some (L.union texts)
  properties := (firstPart r rs).properties
  createdAt := rs.foldl (fun least r => min least r.createdAt) r.createdAt
  updatedAt := rs.foldl (fun most r => max most r.updatedAt) r.updatedAt

/-- `get_feature`, where the active imports of the collection are hidden. -/
def getFeature (L : Reader) (collectionId id : Text) : Option Feature :=
  match (t.parts collectionId id).filter (FeatureRow.shown hidden) with
  | [] => none
  | r :: rs => some (aggregate L r rs)

/-- The rows of an `INSERT`. -/
def rowsOf (collectionId id : Text) (now : Int) (d : Draft) : List FeatureRow :=
  d.geometries.mapIdx fun i geometry =>
    ⟨id, collectionId, i, geometry, d.properties, none, now, now⟩

def Tables.delete (collectionId id : Text) : Tables :=
  { t with rows := t.rows.filter fun r => !decide (r.of collectionId id) }

def uniqueViolation : Raised :=
  ("IntegrityError".toList, "duplicate key value violates unique constraint".toList)

def foreignKeyViolation : Raised :=
  ("IntegrityError".toList, "insert or update violates foreign key constraint".toList)

/-- The primary key is `(id, collection_id, part_index)`, and `collection_id` refers to a row of
`collections`. A collection without a partition has its rows in `features_default`. -/
def Tables.insert (collectionId id : Text) (now : Int) : Option Draft → Except Raised Tables
  | none => .ok t
  | some d =>
    match t.featureCount collectionId with
    | none => .error foreignKeyViolation
    | some _ =>
      if (t.parts collectionId id).any fun r => decide (r.partIndex < d.geometries.length) then
        .error uniqueViolation
      else .ok { t with rows := t.rows ++ rowsOf collectionId id now d }

/-- `feature_count` of a collection, if it exists. -/
def Tables.count (collectionId : Text) (f : Int → Int) : Tables :=
  { t with featureCount := fun c =>
      if c = collectionId then (t.featureCount c).map f else t.featureCount c }

end

/-! ## The operations -/

/-- What a request returns. -/
inductive Outcome where
  | raised (e : Raised)
  | feature (f : Feature)
  /-- `None` or `False`. -/
  | missing
  /-- `True`. -/
  | done

def assertionError : Raised := ("AssertionError".toList, [])

section
variable {G : Type} (S : Shapely G ℚ) (D : Postgis) (lim : Limits) (L : Reader) (depth : Nat)
  (hidden : Text → List Text) (t : Tables)

/-- From the geometry to the rows of the `INSERT`. -/
def prepare (geomDict : Option Json) (props : Option Props) : Except Raised (Option Draft) := do
  let geom ← geometryOf S lim geomDict
  let props := (propertiesWithoutReadonly props).getD []
  validateRasterCogPath L props
  draftOf S D lim depth geom props

/-- `create_feature_with_id`; `create_feature` takes the id from `uuid7`. -/
def createFeatureWithId (data : FeatureCreate) (featureId : Text) (now : Int) : Outcome × Tables :=
  match (do
    let draft ← prepare S D lim L depth data.geometry data.properties
    t.insert data.collectionId featureId now draft) with
  | .error e => (.raised e, t)
  | .ok inserted =>
    let t' := inserted.count data.collectionId (· + 1)
    match getFeature (hidden data.collectionId) t' L data.collectionId featureId with
    | none => (.raised assertionError, t')
    | some feature => (.feature feature, t')

/-- `replace_feature`. -/
def replaceFeature (collectionId featureId : Text) (data : FeatureReplace) (now : Int) :
    Outcome × Tables :=
  match getFeature (hidden collectionId) t L collectionId featureId with
  | none => (.missing, t)
  | some _ =>
    match (do
      let draft ← prepare S D lim L depth data.geometry data.properties
      (t.delete collectionId featureId).insert collectionId featureId now draft) with
    | .error e => (.raised e, t)
    | .ok t' => (.done, t')

/-- The geometry of a patched feature. -/
def patchedGeometry (feature : Feature) (data : FeaturePatch) : Except Raised (Option Json) :=
  match data.geometry, feature.geometry with
  | some geometry, _ => .ok geometry
  | none, none => .ok none
  | none, some text => L.geometryToGeojson text

/-- The properties of a patched feature. -/
def patchedProperties (feature : Feature) (data : FeaturePatch) : Props :=
  mergeProps (L.loads feature.properties)
    ((data.properties.bind propertiesWithoutReadonly).getD [])

/-- The rows of a patched feature. -/
def preparePatch (feature : Feature) (data : FeaturePatch) : Except Raised (Option Draft) := do
  let geomDict ← patchedGeometry L feature data
  let props := patchedProperties L feature data
  validateRasterCogPath L props
  let geom ← geometryOf S lim geomDict
  draftOf S D lim depth geom props

/-- `update_feature`. -/
def updateFeature (collectionId featureId : Text) (data : FeaturePatch) (now : Int) :
    Outcome × Tables :=
  match getFeature (hidden collectionId) t L collectionId featureId with
  | none => (.missing, t)
  | some feature =>
    match (do
      let draft ← preparePatch S D lim L depth feature data
      (t.delete collectionId featureId).insert collectionId featureId now draft) with
    | .error e => (.raised e, t)
    | .ok t' =>
      match getFeature (hidden collectionId) t' L collectionId featureId with
      | none => (.missing, t')
      | some feature => (.feature feature, t')

/-- `delete_feature`. -/
def deleteFeature (collectionId featureId : Text) : Outcome × Tables :=
  match t.parts collectionId featureId with
  | [] => (.missing, t)
  | _ :: _ =>
    (.done, (t.delete collectionId featureId).count collectionId fun n => max 0 (n - 1))

inductive Op where
  | create (data : FeatureCreate) (featureId : Text) (now : Int)
  | replace (collectionId featureId : Text) (data : FeatureReplace) (now : Int)
  | update (collectionId featureId : Text) (data : FeaturePatch) (now : Int)
  | delete (collectionId featureId : Text)

/-- One request. -/
def step (t : Tables) : Op → Outcome × Tables
  | .create data featureId now => createFeatureWithId S D lim L depth hidden t data featureId now
  | .replace collectionId featureId data now =>
    replaceFeature S D lim L depth hidden t collectionId featureId data now
  | .update collectionId featureId data now =>
    updateFeature S D lim L depth hidden t collectionId featureId data now
  | .delete collectionId featureId => deleteFeature t collectionId featureId

end

end Crud
end Items
end Geofastmap
