import Geofastmap.Copy.Encode
import Geofastmap.Import.Document

/-!
# Geofastmap.Copy.Rows

`_feature_rows_from_record` and `_parse_line_bytes` of `bulk_copy_ingest.py`: the rows of a line.

Two parses of a line differ in the id that is generated for a feature without one, and in the time
(`parseLineBytes_scrub`).
-/

namespace Geofastmap
namespace Copy

open Import

/-! ## `json.dumps(..., separators=(",", ":"), ensure_ascii=False)` -/

def compactChar (ch : Char) : Text :=
  if ch = '"' ∨ ch = '\\' ∨ ch.toNat < 32 then Json.escapeChar ch else [ch]

def compactStr (s : Text) : Text := '"' :: s.flatMap compactChar ++ ['"']

mutual

def compact : Json → Text
  | .null => "null".toList
  | .bool b => if b then "true".toList else "false".toList
  | .num text => text
  | .str s => compactStr s
  | .arr items => '[' :: compactItems items ++ [']']
  | .obj members => '\x7b' :: compactMembers members ++ ['\x7d']

def compactItems : List Json → Text
  | [] => []
  | [x] => compact x
  | x :: xs => compact x ++ ',' :: compactItems xs

def compactMembers : List (Text × Json) → Text
  | [] => []
  | [(k, v)] => compactStr k ++ ':' :: compact v
  | (k, v) :: ms => compactStr k ++ ':' :: compact v ++ ',' :: compactMembers ms

end

/-! ## Rows -/

/-- The id of a record, or one made by `uuid7`. -/
inductive FeatureId where
  | given (id : Text)
  | uuid7 (id : Text)

def FeatureId.text : FeatureId → Text
  | .given id => id
  | .uuid7 id => id

structure StagingRow where
  id : FeatureId
  collectionId : Text
  partIndex : Nat
  geometry : Text
  properties : Text
  bulkImportJobId : Option Text
  createdAt : Text
  updatedAt : Text

/-- A row without what is generated: the time, and an id that is not given. -/
def StagingRow.scrub (r : StagingRow) : StagingRow :=
  { r with
    id := match r.id with
      | .given id => .given id
      | .uuid7 _ => .uuid7 []
    createdAt := []
    updatedAt := [] }

/-- What the parser calls. -/
structure Parser (G : Type) where
  /-- `orjson.loads`, which raises on what is not JSON. -/
  loads : Text → Option Json
  shapely : Shapely G
  /-- `to_wkb(set_srid(part, 4326), hex=True, include_srid=True)`. -/
  toWkbHex : G → Text
  /-- `str(x)`. -/
  str : Json → Text
  limits : Limits
  depth : Nat

/-- The arguments that are the same for all lines. -/
structure Target where
  collectionId : Text
  jobId : Text
  nowIso : Text

section
variable {G : Type} (P : Parser G) (T : Target)

/-- `props.setdefault("id", fid)`. -/
def setDefaultId (props : List (Text × Json)) (fid : Json) : List (Text × Json) :=
  if (props.lookup "id".toList).isSome then props else props ++ [("id".toList, fid)]

/-- The geometries of a record, none after an exception. -/
def baseGeoms (geom : Json) : List G :=
  match P.shapely.shape geom with
  | .error _ => []
  | .ok base =>
    match explodeToSimpleParts P.shapely P.depth base with
    | .error _ => []
    | .ok geoms => geoms

/-- The parts of a geometry; `none` if there is none that can be stored. -/
def storedParts (g : G) : Option (List G) :=
  if exceedsLimit P.shapely P.limits g then none
  else if maxCoordsForDbSubdivide < coordCount P.shapely P.depth g then
    match (subdivideGeometryByVertices P.shapely P.limits.maxVertices P.depth g).filter fun p =>
        !P.shapely.isEmpty p && !exceedsLimit P.shapely P.limits p with
    | [] => none
    | p :: ps => some (p :: ps)
  else some [g]

/-- The parts of all geometries, and how many geometries failed. -/
def allParts (geoms : List G) : List G × Nat :=
  let kept := geoms.filter fun g => !P.shapely.isEmpty g
  ((kept.filterMap (storedParts P)).flatten, kept.countP fun g => (storedParts P g).isNone)

/-- `_feature_rows_from_record`. -/
def featureRowsFromRecord (uuid : Text) (rec : List (Text × Json)) :
    Except Raised (List StagingRow × Nat) := do
  let props ← Json.dict (Json.get rec "properties".toList)
  let geom := Json.get rec "geometry".toList
  if !geom.truthy then return ([], 1)
  else
    match baseGeoms P geom with
    | [] => return ([], 1)
    | geoms =>
      let (id, props) := match Json.get rec "id".toList with
        | .null => (FeatureId.uuid7 uuid, props)
        | fid => (FeatureId.given (P.str fid), setDefaultId props fid)
      let (parts, failed) := allParts P geoms
      let rows := parts.zipIdx.map fun (part, partIndex) =>
        { id, collectionId := T.collectionId, partIndex
          geometry := P.toWkbHex part
          properties := compact (.obj props)
          bulkImportJobId := if T.jobId.isEmpty then none else some T.jobId
          createdAt := T.nowIso, updatedAt := T.nowIso }
      return (rows, if rows.isEmpty then max 1 failed else failed)

/-- `_parse_line_bytes`. -/
def parseLineBytes (uuid : Text) (line : Text) : Except Raised (List StagingRow × Nat) :=
  if (stripBytes line).isEmpty then .ok ([], 0)
  else
    match P.loads line with
    | some (.obj rec) => featureRowsFromRecord P T uuid rec
    | _ => .ok ([], 1)

end

/-! ## What a record comes to -/

section
variable {G : Type} (P : Parser G) (T : Target)

/-- The simple parts of a record. -/
def recordGeoms (rec : List (Text × Json)) : List G :=
  let geom := Json.get rec "geometry".toList
  if geom.truthy then baseGeoms P geom else []

/-- The id of the rows of a record. -/
def recordId (uuid : Text) (rec : List (Text × Json)) : FeatureId :=
  match Json.get rec "id".toList with
  | .null => .uuid7 uuid
  | fid => .given (P.str fid)

/-- All that is said of the rows of a record when its properties are a mapping. -/
structure RecordRows (uuid : Text) (rec : List (Text × Json)) (rows : List StagingRow)
    (failed : Nat) : Prop where
  counted : rows ≠ [] ∨ 0 < failed
  geometries : rows.map StagingRow.geometry =
    (allParts P (recordGeoms P rec)).1.map P.toWkbHex
  failures : (allParts P (recordGeoms P rec)).2 ≤ failed
  ids : ∀ r ∈ rows, r.id = recordId P uuid rec
  collections : ∀ r ∈ rows, r.collectionId = T.collectionId
  partIndexes : rows.map StagingRow.partIndex = List.range rows.length

theorem RecordRows.none {uuid : Text} {rec : List (Text × Json)} (h : recordGeoms P rec = []) :
    RecordRows P T uuid rec [] 1 where
  counted := Or.inr Nat.one_pos
  geometries := by simp [h, allParts]
  failures := by simp [h, allParts]
  ids := by simp
  collections := by simp
  partIndexes := rfl

theorem recordGeoms_of_falsy {rec : List (Text × Json)}
    (h : (Json.get rec "geometry".toList).truthy = false) : recordGeoms P rec = [] := by
  unfold recordGeoms
  dsimp only
  rw [h]
  rfl

theorem recordGeoms_of_truthy {rec : List (Text × Json)}
    (h : (Json.get rec "geometry".toList).truthy = true) :
    recordGeoms P rec = baseGeoms P (Json.get rec "geometry".toList) := by
  unfold recordGeoms
  dsimp only
  rw [h]
  rfl

/-- The rows of some parts, numbered in their order. -/
theorem RecordRows.of_parts {uuid : Text} {rec : List (Text × Json)} {geoms : List G}
    {row : G × Nat → StagingRow} (hgeoms : recordGeoms P rec = geoms)
    (hgeometry : ∀ p, (row p).geometry = P.toWkbHex p.1)
    (hid : ∀ p, (row p).id = recordId P uuid rec)
    (hcollection : ∀ p, (row p).collectionId = T.collectionId)
    (hindex : ∀ p, (row p).partIndex = p.2) :
    let parts := allParts P geoms
    let rows := parts.1.zipIdx.map row
    RecordRows P T uuid rec rows (if rows.isEmpty then max 1 parts.2 else parts.2) := by
  subst hgeoms
  intro parts rows
  constructor
  · cases hrows : rows with
    | nil =>
      right
      rw [List.isEmpty_nil, if_pos rfl]
      omega
    | cons r rs => exact Or.inl (by simp)
  · have hmap : rows.map StagingRow.geometry = (parts.1.zipIdx.map Prod.fst).map P.toWkbHex := by
      simp only [rows, List.map_map]
      exact List.map_congr_left fun p _ => hgeometry p
    rw [hmap, List.zipIdx_map_fst]
  · split
    · exact Nat.le_max_right ..
    · exact Nat.le_refl _
  · intro r hr
    obtain ⟨p, -, rfl⟩ := List.mem_map.mp hr
    exact hid p
  · intro r hr
    obtain ⟨p, -, rfl⟩ := List.mem_map.mp hr
    exact hcollection p
  · have hmap : rows.map StagingRow.partIndex = parts.1.zipIdx.map Prod.snd := by
      simp only [rows, List.map_map]
      exact List.map_congr_left fun p _ => hindex p
    rw [hmap, List.zipIdx_map_snd, List.length_map, List.length_zipIdx, List.range_eq_range']

theorem featureRowsFromRecord_ok (uuid : Text) {rec props : List (Text × Json)}
    (hprops : Json.dict (Json.get rec "properties".toList) = .ok props) :
    ∃ rows failed, featureRowsFromRecord P T uuid rec = .ok (rows, failed) ∧
      RecordRows P T uuid rec rows failed := by
  unfold featureRowsFromRecord
  rw [hprops]
  simp only [bind, Except.bind, pure, Except.pure]
  cases hgeom : (Json.get rec "geometry".toList).truthy with
  | false =>
    have hnone := recordGeoms_of_falsy P hgeom
    exact ⟨[], 1, rfl, .none P T hnone⟩
  | true =>
    have hparts := recordGeoms_of_truthy P hgeom
    simp only [Bool.not_true, Bool.false_eq_true, if_false]
    cases hbase : baseGeoms P (Json.get rec "geometry".toList) with
    | nil =>
      have hnone := hparts.trans hbase
      exact ⟨[], 1, rfl, .none P T hnone⟩
    | cons g geoms =>
      refine ⟨_, _, rfl, ?_⟩
      apply RecordRows.of_parts P T (hparts.trans hbase)
      · exact fun _ => rfl
      · intro p
        unfold recordId
        cases Json.get rec "id".toList <;> rfl
      · exact fun _ => rfl
      · exact fun _ => rfl

end

/-! ## What is generated -/

/-- The rows of a line without what is generated. -/
def scrubbed (r : List StagingRow × Nat) : List StagingRow × Nat := (r.1.map StagingRow.scrub, r.2)

/-- Two imports into the same collection for the same job, at different times. -/
def Target.Same (T T' : Target) : Prop := T.collectionId = T'.collectionId ∧ T.jobId = T'.jobId

variable {G : Type} (P : Parser G)

theorem featureRowsFromRecord_scrub {T T' : Target} (hT : T.Same T') (uuid uuid' : Text)
    (rec : List (Text × Json)) :
    (featureRowsFromRecord P T uuid rec).map scrubbed =
      (featureRowsFromRecord P T' uuid' rec).map scrubbed := by
  obtain ⟨hcollection, hjob⟩ := hT
  unfold featureRowsFromRecord
  cases Json.dict (Json.get rec "properties".toList) with
  | error e => rfl
  | ok props =>
    simp only [Except.map, bind, Except.bind, pure, Except.pure]
    cases (Json.get rec "geometry".toList).truthy with
    | false => rfl
    | true =>
      simp only [Bool.not_true, Bool.false_eq_true, if_false]
      cases baseGeoms P (Json.get rec "geometry".toList) with
      | nil => rfl
      | cons g geoms =>
        cases Json.get rec "id".toList <;>
          simp [scrubbed, StagingRow.scrub, Function.comp_def, hcollection, hjob]

theorem parseLineBytes_scrub {T T' : Target} (hT : T.Same T') (uuid uuid' line : Text) :
    (parseLineBytes P T uuid line).map scrubbed = (parseLineBytes P T' uuid' line).map scrubbed := by
  unfold parseLineBytes
  split
  · rfl
  · cases P.loads line with
    | none => rfl
    | some x =>
      cases x with
      | obj rec => exact featureRowsFromRecord_scrub P hT uuid uuid' rec
      | _ => rfl

end Copy
end Geofastmap
