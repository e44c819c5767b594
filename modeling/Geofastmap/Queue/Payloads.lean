import Geofastmap.Bulk.State
import Geofastmap.Process.ResultIds
import Geofastmap.Queue.Fields

/-!
# Geofastmap.Queue.Payloads

The payloads of the four queues with all their fields: `BulkJobPayload`, `BulkFinalizePayload`,
`ProcessJobPayload`, and `TileBuildPayload` with its options.

What a worker reads is the payload in its normal form, in which an optional value that is empty is
`None` (`codecs_lossless`).
-/

namespace Geofastmap
namespace Queue

open Import

/-! ## Bulk imports -/

/-- `job_kind`. -/
def kindText : Bulk.JobKind → Text
  | .single => "single".toList
  | .parent => "parent".toList
  | .shard => "shard".toList
  | .rasterBatch => "raster_batch".toList

/-- A kind by its text; any other text is kept by Python. -/
def kindOf (s : Text) : Except Raised Bulk.JobKind :=
  match [Bulk.JobKind.single, .parent, .shard, .rasterBatch].find? fun k => kindText k == s with
  | some k => .ok k
  | none => .error otherType

/-- `str(d.get("job_kind") or "single")`. -/
def readKind (x : Json) : Except Raised Bulk.JobKind :=
  if x.truthy then readStr x >>= kindOf else .ok .single

/-- The paths in a ZIP file; what is not a list is dropped. -/
def readPaths : Json → Except Raised (Option (List Text))
  | .arr items => (readList readStr (.arr items)).map some
  | _ => .ok none

theorem readKind_text (k : Bulk.JobKind) :
    readKind ((if k = .single then none else some (.str (kindText k))).getD .null) = .ok k := by
  cases k <;> decide

theorem readPaths_map (xs : Option (List Text)) :
    readPaths ((xs.map ofStrs).getD .null) = .ok xs := by
  cases xs with
  | none => rfl
  | some xs =>
    show (readList readStr (ofStrs xs)).map some = _
    rw [readList_strs]
    rfl

/-- A flag that is written only when it is `False`. -/
theorem truthy_unless_false (b : Bool) :
    ((if b then none else some (Json.bool false) : Option Json).getD (.bool true)).truthy = b := by
  cases b <;> rfl

theorem ok_bind {α β : Type} (a : α) (f : α → Except Raised β) : (Except.ok a >>= f) = f a := rfl

structure BulkJobPayload where
  jobId : Text
  collectionId : Text
  storageKey : Text
  mode : Text
  batchSize : Int
  ownerId : Option Int
  queueComputeTiles : Bool
  zipInnerShpPaths : Option (List Text)
  jobKind : Bulk.JobKind
  parentJobId : Option Text
  shardIndex : Option Int
  shardTotal : Option Int
  finalizeCollection : Bool
  replaceFilters : Option (List Text)

namespace BulkJobPayload

/-- The object that `to_json` writes. -/
def dict (p : BulkJobPayload) : Dict :=
  written [
    ("job_id", some (.str p.jobId)),
    ("collection_id", some (.str p.collectionId)),
    ("owner_id", some ((p.ownerId.map ofInt).getD .null)),
    ("storage_key", some (.str p.storageKey)),
    ("mode", some (.str p.mode)),
    ("batch_size", some (ofInt p.batchSize)),
    ("queue_compute_tiles", some (.bool p.queueComputeTiles)),
    ("zip_inner_shp_paths", (given p.zipInnerShpPaths).map ofStrs),
    ("job_kind", if p.jobKind = .single then none else some (.str (kindText p.jobKind))),
    ("parent_job_id", (given p.parentJobId).map .str),
    ("shard_index", p.shardIndex.map ofInt),
    ("shard_total", p.shardTotal.map ofInt),
    ("finalize_collection", if p.finalizeCollection then none else some (.bool false)),
    ("replace_filters", (given p.replaceFilters).map ofStrs)]

/-- What `from_json` makes of an object. -/
def ofDict (d : Dict) : Except Raised BulkJobPayload := do
  let jobId ← item d "job_id" >>= readStr
  let collectionId ← item d "collection_id" >>= readStr
  let ownerId ← readOption readInt (get d "owner_id")
  let storageKey ← item d "storage_key" >>= readStr
  let mode ← item d "mode" >>= readStr
  let batchSize ← item d "batch_size" >>= readInt
  let zipInnerShpPaths ← readPaths (get d "zip_inner_shp_paths")
  let jobKind ← readKind (get d "job_kind")
  let parentJobId ← readOption readStr (get d "parent_job_id")
  let shardIndex ← readOption readInt (get d "shard_index")
  let shardTotal ← readOption readInt (get d "shard_total")
  let replaceFilters ← readOption (readList readStr) (get d "replace_filters")
  return {
    jobId, collectionId, storageKey, mode, batchSize, ownerId, zipInnerShpPaths, jobKind
    parentJobId, shardIndex, shardTotal, replaceFilters
    queueComputeTiles := readFlag ((lookup d "queue_compute_tiles").getD (.bool false))
    finalizeCollection := ((lookup d "finalize_collection").getD (.bool true)).truthy }

def normal (p : BulkJobPayload) : BulkJobPayload :=
  { p with
    zipInnerShpPaths := given p.zipInnerShpPaths
    parentJobId := given p.parentJobId
    replaceFilters := given p.replaceFilters }

theorem ofDict_dict (p : BulkJobPayload) : ofDict p.dict = .ok p.normal := by
  have hjob : item p.dict "job_id" = .ok (.str p.jobId) := by simp [item, dict, find]
  have hcollection : item p.dict "collection_id" = .ok (.str p.collectionId) := by
    simp [item, dict, find]
  have howner : readOption readInt (get p.dict "owner_id") = .ok p.ownerId := by
    simp [get, dict, find]
  have hkey : item p.dict "storage_key" = .ok (.str p.storageKey) := by simp [item, dict, find]
  have hmode : item p.dict "mode" = .ok (.str p.mode) := by simp [item, dict, find]
  have hbatch : item p.dict "batch_size" = .ok (ofInt p.batchSize) := by simp [item, dict, find]
  have hpaths : readPaths (get p.dict "zip_inner_shp_paths") = .ok (given p.zipInnerShpPaths) := by
    simp [get, dict, find, readPaths_map]
  have hkind : readKind (get p.dict "job_kind") = .ok p.jobKind := by
    simp [get, dict, find, readKind_text]
  have hparent : readOption readStr (get p.dict "parent_job_id") = .ok (given p.parentJobId) := by
    simp [get, dict, find]
  have hindex : readOption readInt (get p.dict "shard_index") = .ok p.shardIndex := by
    simp [get, dict, find]
  have htotal : readOption readInt (get p.dict "shard_total") = .ok p.shardTotal := by
    simp [get, dict, find]
  have hfilters : readOption (readList readStr) (get p.dict "replace_filters") =
      .ok (given p.replaceFilters) := by
    simp [get, dict, find]
  have hqueue : lookup p.dict "queue_compute_tiles" = some (.bool p.queueComputeTiles) := by
    simp [dict, find]
  have hfinalize : ((lookup p.dict "finalize_collection").getD (.bool true)).truthy =
      p.finalizeCollection := by
    simp [dict, find, truthy_unless_false]
  rw [ofDict, hjob, ok_bind, readStr_str, ok_bind, hcollection, ok_bind, readStr_str, ok_bind,
    howner, ok_bind, hkey, ok_bind, readStr_str, ok_bind, hmode, ok_bind, readStr_str, ok_bind,
    hbatch, ok_bind, readInt_ofInt, ok_bind]
  rw [hpaths, ok_bind, hkind, ok_bind, hparent, ok_bind, hindex, ok_bind, htotal, ok_bind, hfilters,
    ok_bind, hqueue, hfinalize]
  rfl

end BulkJobPayload

/-! ## Partition swaps -/

structure BulkFinalizePayload where
  jobId : Text
  collectionId : Text
  mode : Text
  itemsCreated : Int
  itemsFailed : Int
  ownerId : Option Int
  queueComputeTiles : Bool
  attempt : Int
  mode_ne : mode ≠ []

namespace BulkFinalizePayload

def dict (p : BulkFinalizePayload) : Dict :=
  written [
    ("job_id", some (.str p.jobId)),
    ("collection_id", some (.str p.collectionId)),
    ("mode", some (.str p.mode)),
    ("items_created", some (ofInt p.itemsCreated)),
    ("items_failed", some (ofInt p.itemsFailed)),
    ("owner_id", some ((p.ownerId.map ofInt).getD .null)),
    ("queue_compute_tiles", some (.bool p.queueComputeTiles)),
    ("attempt", some (ofInt p.attempt))]

/-- `str(d.get("mode") or "append")`. -/
def readMode (x : Json) : Except Raised { mode : Text // mode ≠ [] } :=
  match x with
  | .str (ch :: s) => .ok ⟨ch :: s, by simp⟩
  | x => if x.truthy then .error otherType else .ok ⟨"append".toList, by decide⟩

/-- `int(x or 0)`. -/
def readCount (x : Json) : Except Raised Int := if x.truthy then readInt x else .ok 0

def ofDict (d : Dict) : Except Raised BulkFinalizePayload := do
  let jobId ← item d "job_id" >>= readStr
  let collectionId ← item d "collection_id" >>= readStr
  let mode ← readMode (get d "mode")
  let itemsCreated ← readCount (get d "items_created")
  let itemsFailed ← readCount (get d "items_failed")
  let ownerId ← readOption readInt (get d "owner_id")
  let attempt ← readCount (get d "attempt")
  return {
    jobId, collectionId, itemsCreated, itemsFailed, ownerId, attempt
    mode := mode.1
    mode_ne := mode.2
    queueComputeTiles := (get d "queue_compute_tiles").truthy }

theorem readCount_ofInt (n : Int) : readCount (ofInt n) = .ok n := by
  unfold readCount
  split
  · exact readInt_ofInt n
  · rename_i hzero
    rw [ofInt_falsy (n := n) (by simpa using hzero)]

theorem readMode_str {mode : Text} (h : mode ≠ []) : readMode (.str mode) = .ok ⟨mode, h⟩ := by
  cases mode with
  | nil => exact absurd rfl h
  | cons ch s => rfl

theorem ofDict_dict (p : BulkFinalizePayload) : ofDict p.dict = .ok p := by
  simp [ofDict, dict, item, get, find, readCount_ofInt, readMode_str p.mode_ne, Json.truthy, bind,
    Except.bind, pure, Except.pure]

end BulkFinalizePayload

/-! ## Processes -/

structure ProcessJobPayload extends Process.ProcessJobPayload Text where
  jobId : Text
  measureOp : Option Text
  measureUnit : Option Text
  measureField : Option Text
  queueComputeTiles : Bool
  tileBuildOptions : Option Dict

def ofRef (ref : Text × Text) : Json :=
  .obj [("collection_id".toList, .str ref.1), ("feature_id".toList, .str ref.2)]

def readRef : Json → Except Raised (Text × Text)
  | .obj d => do
    let c ← item d "collection_id" >>= readStr
    let f ← item d "feature_id" >>= readStr
    return (c, f)
  | _ => .error otherType

/-- `d.get(key) or []`. -/
def readStrs (x : Json) : Except Raised (List Text) :=
  if x.truthy then readList readStr x else .ok []

def readNum : Json → Except Raised Text
  | .num text => .ok text
  | _ => .error otherType

def readBool : Json → Except Raised Bool
  | .bool b => .ok b
  | _ => .error otherType

/-- A JSON value as it stands. -/
def readAny (x : Json) : Except Raised Json := .ok x

theorem readOption_map_ref (ref : Option (Text × Text)) :
    readOption readRef ((ref.map ofRef).getD .null) = .ok ref := by
  cases ref <;> rfl

theorem readOption_map_num (x : Option Text) :
    readOption readNum ((x.map .num).getD .null) = .ok x := by
  cases x <;> rfl

theorem readOption_map_bool (b : Option Bool) :
    readOption readBool ((b.map .bool).getD .null) = .ok b := by
  cases b <;> rfl

/-- A flag that is written only when it is `False`. -/
theorem readBool_unless (b : Bool) :
    readBool ((if b then none else some (Json.bool false) : Option Json).getD (.bool true)) =
      .ok b := by
  cases b <;> rfl

/-- A flag that is written only when it is `True`. -/
theorem readBool_when (b : Bool) :
    readBool ((if b then some (Json.bool true) else none : Option Json).getD (.bool false)) =
      .ok b := by
  cases b <;> rfl

theorem readStrs_given (xs : List Text) :
    readStrs (((given (some xs)).map ofStrs).getD .null) = .ok xs := by
  cases xs with
  | nil => rfl
  | cons x xs =>
    have htruthy : (ofStrs (x :: xs)).truthy = true := rfl
    show readStrs (ofStrs (x :: xs)) = _
    unfold readStrs
    rw [if_pos htruthy, readList_strs]

/-- A document that is not empty. -/
def givenDoc (doc : Option Json) : Option Json := doc.filter Json.truthy

theorem readOption_givenDoc (doc : Option Json) :
    readOption readAny ((givenDoc doc).getD .null) = .ok (givenDoc doc) := by
  unfold givenDoc
  cases h : doc.filter Json.truthy with
  | none => rfl
  | some x =>
    have hx : x.truthy = true := (Option.filter_eq_some_iff.mp h).2
    cases x <;> first | rfl | cases hx

namespace ProcessJobPayload

def dict (p : ProcessJobPayload) : Dict :=
  written [
    ("job_id", some (.str p.jobId)),
    ("process_id", some (.str p.processId)),
    ("collection_id_a", some (.str p.collectionIdA)),
    ("collection_id_b", some (.str p.collectionIdB)),
    ("collection_ids", (given (some p.collectionIds)).map ofStrs),
    -- a feature is written only next to the layers
    ("feature_ref", if p.collectionIds.isEmpty then none else p.featureRef.map ofRef),
    ("feature_geojson", if p.collectionIds.isEmpty then none else givenDoc p.featureGeojson),
    ("feature_ids", (given (some p.featureIds)).map ofStrs),
    ("buffer_distance_degrees", p.bufferDistanceDegrees.map .num),
    ("group_by_property", p.groupByProperty.map .str),
    ("measure_op", p.measureOp.map .str),
    ("measure_unit", p.measureUnit.map .str),
    ("measure_field", p.measureField.map .str),
    ("queue_compute_tiles", if p.queueComputeTiles then none else some (.bool false)),
    ("tile_build_options", (given p.tileBuildOptions).map .obj),
    ("result_collection_id", (given p.resultCollectionId).map .str),
    ("update_existing", if p.updateExisting then some (.bool true) else none)]

def ofDict (d : Dict) : Except Raised ProcessJobPayload := do
  let jobId ← item d "job_id" >>= readStr
  let processId ← item d "process_id" >>= readStr
  let collectionIdA ← readStr ((lookup d "collection_id_a").getD (.str []))
  let collectionIdB ← readStr ((lookup d "collection_id_b").getD (.str []))
  let featureRef ← readOption readRef (get d "feature_ref")
  let featureGeojson ← readOption readAny (get d "feature_geojson")
  let collectionIds ← readStrs (get d "collection_ids")
  let featureIds ← readStrs (get d "feature_ids")
  let bufferDistanceDegrees ← readOption readNum (get d "buffer_distance_degrees")
  let groupByProperty ← readOption readStr (get d "group_by_property")
  let measureOp ← readOption readStr (get d "measure_op")
  let measureUnit ← readOption readStr (get d "measure_unit")
  let measureField ← readOption readStr (get d "measure_field")
  let queueComputeTiles ← readBool ((lookup d "queue_compute_tiles").getD (.bool true))
  let tileBuildOptions ← readOption readDict (get d "tile_build_options")
  let resultCollectionId ← readOption readStr (get d "result_collection_id")
  let updateExisting ← readBool ((lookup d "update_existing").getD (.bool false))
  return {
    jobId, processId, collectionIdA, collectionIdB, featureRef, featureGeojson, collectionIds
    featureIds, bufferDistanceDegrees, groupByProperty, measureOp, measureUnit, measureField
    queueComputeTiles, tileBuildOptions, resultCollectionId, updateExisting }

def normal (p : ProcessJobPayload) : ProcessJobPayload :=
  { p with
    featureGeojson := givenDoc p.featureGeojson
    tileBuildOptions := given p.tileBuildOptions
    resultCollectionId := given p.resultCollectionId }

/-- A feature is compared with at least one layer. -/
def HasLayers (p : ProcessJobPayload) : Prop :=
  p.featureRef.isSome ∨ p.featureGeojson.isSome → p.collectionIds ≠ []

theorem readRef_dict {p : ProcessJobPayload} (h : p.HasLayers) :
    readOption readRef (get p.dict "feature_ref") = .ok p.featureRef := by
  have hread : readOption readRef ((if p.collectionIds.isEmpty then none
      else p.featureRef.map ofRef : Option Json).getD .null) = .ok p.featureRef := by
    split
    · rename_i hnone
      cases hr : p.featureRef with
      | none => rfl
      | some ref => exact absurd (List.isEmpty_iff.mp hnone) (h (Or.inl (by simp [hr])))
    · exact readOption_map_ref _
  simpa [get, dict, find] using hread

theorem readDoc_dict {p : ProcessJobPayload} (h : p.HasLayers) :
    readOption readAny (get p.dict "feature_geojson") = .ok (givenDoc p.featureGeojson) := by
  have hread : readOption readAny ((if p.collectionIds.isEmpty then none
      else givenDoc p.featureGeojson : Option Json).getD .null) = .ok (givenDoc p.featureGeojson) := by
    split
    · rename_i hnone
      cases hr : p.featureGeojson with
      | none => rfl
      | some doc => exact absurd (List.isEmpty_iff.mp hnone) (h (Or.inr (by simp [hr])))
    · exact readOption_givenDoc _
  simpa [get, dict, find] using hread

theorem ofDict_dict {p : ProcessJobPayload} (h : p.HasLayers) : ofDict p.dict = .ok p.normal := by
  have hjob : item p.dict "job_id" = .ok (.str p.jobId) := by simp [item, dict, find]
  have hprocess : item p.dict "process_id" = .ok (.str p.processId) := by
    simp [item, dict, find]
  have ha : lookup p.dict "collection_id_a" = some (.str p.collectionIdA) := by simp [dict, find]
  have hb : lookup p.dict "collection_id_b" = some (.str p.collectionIdB) := by simp [dict, find]
  have hids : readStrs (get p.dict "collection_ids") = .ok p.collectionIds := by
    simpa [get, dict, find] using readStrs_given p.collectionIds
  have hfeatures : readStrs (get p.dict "feature_ids") = .ok p.featureIds := by
    simpa [get, dict, find] using readStrs_given p.featureIds
  have hdistance : readOption readNum (get p.dict "buffer_distance_degrees") =
      .ok p.bufferDistanceDegrees := by
    simpa [get, dict, find] using readOption_map_num p.bufferDistanceDegrees
  have hgroup : readOption readStr (get p.dict "group_by_property") = .ok p.groupByProperty := by
    simp [get, dict, find]
  have hop : readOption readStr (get p.dict "measure_op") = .ok p.measureOp := by
    simp [get, dict, find]
  have hunit : readOption readStr (get p.dict "measure_unit") = .ok p.measureUnit := by
    simp [get, dict, find]
  have hfield : readOption readStr (get p.dict "measure_field") = .ok p.measureField := by
    simp [get, dict, find]
  have hoptions : readOption readDict (get p.dict "tile_build_options") =
      .ok (given p.tileBuildOptions) := by
    simp [get, dict, find]
  have hresult : readOption readStr (get p.dict "result_collection_id") =
      .ok (given p.resultCollectionId) := by
    simp [get, dict, find]
  have hqueue : readBool ((lookup p.dict "queue_compute_tiles").getD (.bool true)) =
      .ok p.queueComputeTiles := by
    simpa [dict, find] using readBool_unless p.queueComputeTiles
  have hupdate : readBool ((lookup p.dict "update_existing").getD (.bool false)) =
      .ok p.updateExisting := by
    simpa [dict, find] using readBool_when p.updateExisting
  rw [ofDict, hjob, ok_bind, readStr_str, ok_bind, hprocess, ok_bind, readStr_str, ok_bind, ha,
    Option.getD_some, readStr_str, ok_bind, hb, Option.getD_some, readStr_str, ok_bind]
  rw [readRef_dict h, ok_bind, readDoc_dict h, ok_bind, hids, ok_bind, hfeatures, ok_bind,
    hdistance, ok_bind, hgroup, ok_bind, hop, ok_bind, hunit, ok_bind, hfield, ok_bind]
  rw [hqueue, ok_bind, hoptions, ok_bind, hresult, ok_bind, hupdate, ok_bind]
  rfl

theorem isFeatureVsLayers_normal (p : ProcessJobPayload) :
    p.normal.isFeatureVsLayers = p.isFeatureVsLayers := by
  unfold normal Process.ProcessJobPayload.isFeatureVsLayers givenDoc
  cases p.featureGeojson with
  | none => rfl
  | some doc =>
    rw [Option.filter_some]
    cases hdoc : doc.truthy <;> simp [hdoc]

/-- What the routes submit for a request. -/
def ofRequest (jobId : Text) (r : Process.Request Text) (resultCollectionId : Option Text)
    (updateExisting queueComputeTiles : Bool) (tileBuildOptions : Option Dict) :
    ProcessJobPayload :=
  { r.payload with
    resultCollectionId := given resultCollectionId
    updateExisting, jobId, queueComputeTiles, tileBuildOptions
    measureOp := none
    measureUnit := none
    measureField := none }

/-- `execute_measure_layer`. -/
def ofMeasure (jobId collectionId : Text) (featureIds : List Text)
    (measureOp measureUnit measureField : Text) (queueComputeTiles : Bool)
    (tileBuildOptions : Option Dict) : ProcessJobPayload where
  jobId := jobId
  processId := "measure".toList
  collectionIdA := collectionId
  collectionIdB := collectionId
  featureRef := none
  featureGeojson := none
  collectionIds := []
  featureIds := featureIds
  bufferDistanceDegrees := none
  groupByProperty := none
  measureOp := some measureOp
  measureUnit := some measureUnit
  measureField := some measureField
  -- in place
  resultCollectionId := some collectionId
  updateExisting := true
  queueComputeTiles := queueComputeTiles
  tileBuildOptions := tileBuildOptions

/-- The payloads that the routes build. -/
inductive Submitted : ProcessJobPayload → Prop where
  | request (jobId : Text) (r : Process.Request Text) (resultCollectionId : Option Text)
      (updateExisting queueComputeTiles : Bool) (tileBuildOptions : Option Dict) :
      Submitted (ofRequest jobId r resultCollectionId updateExisting queueComputeTiles
        tileBuildOptions)
  | measure (jobId collectionId : Text) (featureIds : List Text)
      (measureOp measureUnit measureField : Text) (queueComputeTiles : Bool)
      (tileBuildOptions : Option Dict) :
      Submitted (ofMeasure jobId collectionId featureIds measureOp measureUnit measureField
        queueComputeTiles tileBuildOptions)

theorem Submitted.hasLayers {p : ProcessJobPayload} (h : Submitted p) : p.HasLayers := by
  intro hfeature
  cases h with
  | request jobId r =>
    cases r with
    | pair => simp [ofRequest, Process.Request.payload] at hfeature
    | layer => simp [ofRequest, Process.Request.payload] at hfeature
    | feature op source layers hlayers => cases source <;> exact hlayers
  | measure =>
    rcases hfeature with hfeature | hfeature
    · cases hfeature
    · cases hfeature

end ProcessJobPayload

/-! ## Tile builds -/

structure TileBuildOptions where
  minZoom : Option Int
  maxZoom : Option Int
  includeAttributes : Option (List Text)
  excludeAttributes : Option (List Text)
  densest : Option Text
  smallest : Option Text
  noLineSimplification : Option Bool
  simplifyOnlyLowZooms : Option Bool
  noSharedNodeSimplification : Option Bool
  noTinyPolygonReduction : Option Bool
  noPointDropping : Option Bool

namespace TileBuildOptions

/-- `TileBuildOptions()`. -/
def default : TileBuildOptions :=
  ⟨none, none, none, none, none, none, none, none, none, none, none⟩

/-- `to_dict`. -/
def dict (o : TileBuildOptions) : Dict :=
  written [
    ("min_zoom", o.minZoom.map ofInt),
    ("max_zoom", o.maxZoom.map ofInt),
    ("include_attributes", o.includeAttributes.map ofStrs),
    ("exclude_attributes", o.excludeAttributes.map ofStrs),
    ("densest", o.densest.map .str),
    ("smallest", o.smallest.map .str),
    ("no_line_simplification", o.noLineSimplification.map .bool),
    ("simplify_only_low_zooms", o.simplifyOnlyLowZooms.map .bool),
    ("no_shared_node_simplification", o.noSharedNodeSimplification.map .bool),
    ("no_tiny_polygon_reduction", o.noTinyPolygonReduction.map .bool),
    ("no_point_dropping", o.noPointDropping.map .bool)]

def ofDict (d : Dict) : Except Raised TileBuildOptions := do
  let minZoom ← readOption readInt (get d "min_zoom")
  let maxZoom ← readOption readInt (get d "max_zoom")
  let includeAttributes ← readOption (readList readStr) (get d "include_attributes")
  let excludeAttributes ← readOption (readList readStr) (get d "exclude_attributes")
  let densest ← readOption readStr (get d "densest")
  let smallest ← readOption readStr (get d "smallest")
  let noLineSimplification ← readOption readBool (get d "no_line_simplification")
  let simplifyOnlyLowZooms ← readOption readBool (get d "simplify_only_low_zooms")
  let noSharedNodeSimplification ← readOption readBool (get d "no_shared_node_simplification")
  let noTinyPolygonReduction ← readOption readBool (get d "no_tiny_polygon_reduction")
  let noPointDropping ← readOption readBool (get d "no_point_dropping")
  return {
    minZoom, maxZoom, includeAttributes, excludeAttributes, densest, smallest
    noLineSimplification, simplifyOnlyLowZooms, noSharedNodeSimplification
    noTinyPolygonReduction, noPointDropping }

/-- `from_dict`. -/
def ofJson (x : Json) : Except Raised TileBuildOptions :=
  if x.truthy then readDict x >>= ofDict else .ok default

theorem ofDict_dict (o : TileBuildOptions) : ofDict o.dict = .ok o := by
  have hmin : readOption readInt (get o.dict "min_zoom") = .ok o.minZoom := by
    simp [get, dict, find]
  have hmax : readOption readInt (get o.dict "max_zoom") = .ok o.maxZoom := by
    simp [get, dict, find]
  have hinclude : readOption (readList readStr) (get o.dict "include_attributes") =
      .ok o.includeAttributes := by
    simp [get, dict, find]
  have hexclude : readOption (readList readStr) (get o.dict "exclude_attributes") =
      .ok o.excludeAttributes := by
    simp [get, dict, find]
  have hdensest : readOption readStr (get o.dict "densest") = .ok o.densest := by
    simp [get, dict, find]
  have hsmallest : readOption readStr (get o.dict "smallest") = .ok o.smallest := by
    simp [get, dict, find]
  have hline : readOption readBool (get o.dict "no_line_simplification") =
      .ok o.noLineSimplification := by
    simp [get, dict, find, readOption_map_bool]
  have hlow : readOption readBool (get o.dict "simplify_only_low_zooms") =
      .ok o.simplifyOnlyLowZooms := by
    simp [get, dict, find, readOption_map_bool]
  have hshared : readOption readBool (get o.dict "no_shared_node_simplification") =
      .ok o.noSharedNodeSimplification := by
    simp [get, dict, find, readOption_map_bool]
  have htiny : readOption readBool (get o.dict "no_tiny_polygon_reduction") =
      .ok o.noTinyPolygonReduction := by
    simp [get, dict, find, readOption_map_bool]
  have hpoint : readOption readBool (get o.dict "no_point_dropping") = .ok o.noPointDropping := by
    simp [get, dict, find, readOption_map_bool]
  rw [ofDict, hmin, ok_bind, hmax, ok_bind, hinclude, ok_bind, hexclude, ok_bind, hdensest, ok_bind,
    hsmallest, ok_bind, hline, ok_bind, hlow, ok_bind, hshared, ok_bind, htiny, ok_bind, hpoint,
    ok_bind]
  rfl

/-- Options are left out only when all of them are the defaults. -/
theorem ofJson_dict (o : TileBuildOptions) :
    ofJson (((given (some o.dict)).map .obj).getD .null) = .ok o := by
  have hread := ofDict_dict o
  cases hdict : o.dict with
  | nil =>
    have hdefault : ofDict [] = .ok default := rfl
    rw [hdict, hdefault] at hread
    exact hread
  | cons field d =>
    have htruthy : (Json.obj (field :: d)).truthy = true := rfl
    show ofJson (.obj (field :: d)) = _
    rw [hdict] at hread
    rw [ofJson, if_pos htruthy]
    exact hread

end TileBuildOptions

structure TileBuildPayload where
  collectionId : Text
  jobId : Text
  options : TileBuildOptions
  isComposite : Bool

namespace TileBuildPayload

def dict (p : TileBuildPayload) : Dict :=
  written [
    ("collection_id", some (.str p.collectionId)),
    ("job_id", some (.str p.jobId)),
    ("is_composite", some (.bool p.isComposite)),
    ("options", (given (some p.options.dict)).map .obj)]

def ofDict (d : Dict) : Except Raised TileBuildPayload := do
  let options ← TileBuildOptions.ofJson (get d "options")
  let collectionId ← item d "collection_id" >>= readStr
  let jobId ← item d "job_id" >>= readStr
  return { collectionId, jobId, options, isComposite := (get d "is_composite").truthy }

theorem ofDict_dict (p : TileBuildPayload) : ofDict p.dict = .ok p := by
  simp [ofDict, dict, item, get, find, TileBuildOptions.ofJson_dict, Json.truthy, bind, Except.bind,
    pure, Except.pure]

end TileBuildPayload

/-! ## Texts -/

/-- `json.loads` and what `from_json` makes of an object. -/
def fromJson {P : Type} (loads : Text → Option Json) (ofDict : Dict → Except Raised P)
    (s : Text) : Except Raised P :=
  match loads s with
  | none => .error ("JSONDecodeError".toList, [])
  | some x => readDict x >>= ofDict

/-- `json.dumps` with its separators, and with those of the partition swaps; `json.loads`. -/
structure Codec where
  dumps : Json → Text
  dumpsCompact : Json → Text
  loads : Text → Option Json

namespace Codec

variable (k : Codec)

def bulkJob (p : BulkJobPayload) : Except Raised BulkJobPayload :=
  fromJson k.loads BulkJobPayload.ofDict (k.dumps (.obj p.dict))

def bulkFinalize (p : BulkFinalizePayload) : Except Raised BulkFinalizePayload :=
  fromJson k.loads BulkFinalizePayload.ofDict (k.dumpsCompact (.obj p.dict))

def processJob (p : ProcessJobPayload) : Except Raised ProcessJobPayload :=
  fromJson k.loads ProcessJobPayload.ofDict (k.dumps (.obj p.dict))

def tileBuild (p : TileBuildPayload) : Except Raised TileBuildPayload :=
  fromJson k.loads TileBuildPayload.ofDict (k.dumps (.obj p.dict))

theorem fromJson_of {P : Type} {ofDict : Dict → Except Raised P} {d : Dict} {s : Text} {q : P}
    (hs : k.loads s = some (.obj d)) (hd : ofDict d = .ok q) :
    fromJson k.loads ofDict s = .ok q := by
  rw [fromJson, hs]
  exact hd

end Codec

/-- A worker reads each payload as it was submitted, up to optional values that are not given. -/
theorem codecs_lossless (k : Codec) (b : BulkJobPayload) (f : BulkFinalizePayload)
    (p : ProcessJobPayload) (t : TileBuildPayload) (hp : p.Submitted)
    (hloads : ∀ d ∈ [b.dict, p.dict, t.dict], k.loads (k.dumps (.obj d)) = some (.obj d))
    (hcompact : k.loads (k.dumpsCompact (.obj f.dict)) = some (.obj f.dict)) :
    (∃ q, k.bulkJob b = .ok q ∧ q.normal = b.normal ∧ q.mode = b.mode ∧ q.jobKind = b.jobKind ∧
      q.queueComputeTiles = b.queueComputeTiles ∧ q.finalizeCollection = b.finalizeCollection) ∧
    k.bulkFinalize f = .ok f ∧
    (∃ q, k.processJob p = .ok q ∧ q.normal = p.normal ∧
      q.isFeatureVsLayers = p.isFeatureVsLayers ∧ q.queueComputeTiles = p.queueComputeTiles ∧
      q.updateExisting = p.updateExisting) ∧
    k.tileBuild t = .ok t := by
  refine ⟨⟨b.normal, ?_, ?_, rfl, rfl, rfl, rfl⟩, ?_, ⟨p.normal, ?_, ?_, ?_, rfl, rfl⟩, ?_⟩
  · exact k.fromJson_of (hloads _ (by simp)) b.ofDict_dict
  · simp [BulkJobPayload.normal]
  · exact k.fromJson_of hcompact f.ofDict_dict
  · exact k.fromJson_of (hloads _ (by simp)) (ProcessJobPayload.ofDict_dict hp.hasLayers)
  · simp [ProcessJobPayload.normal, givenDoc, Option.filter_filter]
  · exact p.isFeatureVsLayers_normal
  · exact k.fromJson_of (hloads _ (by simp)) t.ofDict_dict

/-- Objects whose members have no members themselves, written without blanks. -/
def dumpsFlat : Json → Text
  | .obj members => '\x7b' :: [','].intercalate (members.map fun m =>
      Json.dumpsStr m.1 ++ ':' :: m.2.dumps) ++ ['\x7d']
  | x => x.dumps

def shardJob : BulkJobPayload where
  jobId := "j-1".toList
  collectionId := "roads".toList
  storageKey := "imports/roads.zip".toList
  mode := "replace".toList
  batchSize := 1000
  ownerId := some 7
  queueComputeTiles := false
  zipInnerShpPaths := some []
  jobKind := .shard
  parentJobId := some "j-0".toList
  shardIndex := some 0
  shardTotal := some 2
  finalizeCollection := false
  replaceFilters := none

def shardSwap : BulkFinalizePayload where
  jobId := "j-0".toList
  collectionId := "roads".toList
  mode := "replace".toList
  itemsCreated := 0
  itemsFailed := 12
  ownerId := none
  queueComputeTiles := false
  attempt := 0
  mode_ne := by decide

def eraseJob : ProcessJobPayload :=
  .ofRequest "j-2".toList
    (.feature .erase (.geojson (.obj [("type".toList, .str "Feature".toList)]) rfl)
      ["roads".toList] (by decide))
    (some []) false false none

def compositeTiles : TileBuildPayload where
  collectionId := "all".toList
  jobId := "j-3".toList
  options := { TileBuildOptions.default with noPointDropping := some false }
  isComposite := true

/-- Reads back the four texts. -/
def sampleCodec : Codec where
  dumps := Json.dumps
  dumpsCompact := dumpsFlat
  loads s :=
    [(Json.dumps (.obj shardJob.dict), Json.obj shardJob.dict),
      (dumpsFlat (.obj shardSwap.dict), .obj shardSwap.dict),
      (Json.dumps (.obj eraseJob.dict), .obj eraseJob.dict),
      (Json.dumps (.obj compositeTiles.dict), .obj compositeTiles.dict)].lookup s

set_option maxRecDepth 4000 in
theorem codecs_lossless_sample :
    (∃ q, sampleCodec.processJob eraseJob = .ok q ∧ q.isFeatureVsLayers = true ∧
      q.queueComputeTiles = false) ∧
    sampleCodec.bulkFinalize shardSwap = .ok shardSwap := by
  obtain ⟨-, hswap, ⟨q, hq, -, hfeature, hqueue, -⟩, -⟩ :=
    codecs_lossless sampleCodec shardJob shardSwap eraseJob compositeTiles
      (.request _ _ _ _ _ _)
      (by
        intro d hd
        simp only [List.mem_cons, List.not_mem_nil, or_false] at hd
        rcases hd with rfl | rfl | rfl
        · rfl
        · rfl
        · rfl)
      rfl
  exact ⟨⟨q, hq, hfeature, hqueue⟩, hswap⟩

end Queue
end Geofastmap
