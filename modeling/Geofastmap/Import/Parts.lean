import Geofastmap.Bulk.Session
import Geofastmap.Import.Json

/-!
# Geofastmap.Import.Parts

From the geometry of a record to the `INSERT` of each of its parts:
`_explode_to_simple_parts` of `bulk_import.py`, `feature_subdivide.py` and `geometry_limits.py`.

* `Shapely` is what the code asks of a geometry and `Postgis` what the database makes of the values
  of an `INSERT`; both come with what is documented of them.
* Python stops a recursion at a depth; the exception it raises there is caught or not as the source
  has it.
-/

namespace Geofastmap
namespace Import

open Bulk

/-- `_is_empty_or_null_wkt`. -/
def isEmptyOrNullWkt (wkt : Text) : Bool :=
  let u := (strip wkt).map Char.toUpper
  u.isEmpty || u == "EMPTY".toList || " EMPTY".toList.isSuffixOf u

/-- The classes of geometries that the code tells apart; `other` may have parts. -/
inductive Kind where
  | point | lineString | linearRing | polygon
  | multiPoint | multiLineString | multiPolygon | geometryCollection
  | other (multipart : Bool)
deriving DecidableEq

/-- What the code asks of a geometry with coordinates of a type. -/
structure Shapely (G : Type) (K : Type := Float) where
  shape : Json → Except Raised G
  kind : G → Kind
  isEmpty : G → Bool
  isValid : G → Bool
  makeValid : G → Except Raised (Option G)
  /-- The parts of a geometry that has parts. -/
  geoms : G → List G
  /-- `len(coords)` of a line or a point, of the outer ring and of the inner rings. -/
  coords : G → Nat
  exterior : G → Nat
  interiors : G → List Nat
  bounds : G → K × K × K × K
  box : K → K → K → K → G
  intersection : G → G → Except Raised G
  /-- `len(geom.wkb)`. -/
  wkbLength : G → Nat
  wkt : G → Text
  /-- Only the text of an empty geometry is `EMPTY`. -/
  wkt_nonempty : ∀ g, isEmpty g = false → isEmptyOrNullWkt (wkt g) = false

structure Postgis where
  /-- The rows of `ST_Subdivide(ST_Force2D(ST_GeomFromText(:wkt, 4326)), :max_vertices)`. -/
  subdivide : Text → Nat → Except Raised { rows : List Text // rows ≠ [] }
  /-- `ST_Force2D(ST_GeomFromText(:wkt, 4326))`. -/
  force2d : Text → Except Raised Text
  /-- `CAST(:props AS jsonb)`. -/
  jsonb : Text → Except Raised { value : Text // value ≠ [] }

/-- The settings for geometries. -/
structure Limits where
  featuresSubdivideMaxVertices : Int
  featuresMaxGeometryBytes : Int

/-- The defaults of `app/core/config.py`. -/
def Limits.default : Limits := ⟨256, 52428800⟩

/-- `max(1, int(s.features_subdivide_max_vertices or 256))`. -/
def Limits.maxVertices (lim : Limits) : Nat :=
  if lim.featuresSubdivideMaxVertices = 0 then 256 else max 1 lim.featuresSubdivideMaxVertices.toNat

def maxCoordsForDbSubdivide : Nat := 35000

section
variable {G K : Type} (S : Shapely G K) (D : Postgis) (lim : Limits)

/-- `geometry_exceeds_limit` of a geometry that is there. -/
def exceedsLimit (g : G) : Bool :=
  !S.isEmpty g && decide (0 < lim.featuresMaxGeometryBytes) &&
    decide (lim.featuresMaxGeometryBytes < S.wkbLength g)

/-- The parts that are not empty. -/
def nonemptyGeoms (g : G) : List G := (S.geoms g).filter fun p => !S.isEmpty p

def recursionError : Raised :=
  ("RecursionError".toList, "maximum recursion depth exceeded".toList)

/-- Parts of parts, one after the other. -/
def explodeAll (explode : G → Except Raised (List G)) : List G → Except Raised (List G)
  | [] => .ok []
  | g :: gs => do
    let parts ← explode g
    let rest ← explodeAll explode gs
    return parts ++ rest

/-- `_explode_to_simple_parts` of a geometry that is valid and not empty. -/
def explodeValid (explode : G → Except Raised (List G)) (geom : G) : Except Raised (List G) :=
  match S.kind geom with
  | .point | .lineString | .linearRing | .polygon | .other false => .ok [geom]
  | .multiPoint | .multiLineString | .multiPolygon | .other true => .ok (nonemptyGeoms S geom)
  | .geometryCollection => explodeAll explode (S.geoms geom)

/-- `_explode_to_simple_parts`. -/
def explodeToSimpleParts : Nat → G → Except Raised (List G)
  | 0, _ => .error recursionError
  | depth + 1, geom =>
    if S.isEmpty geom then .ok []
    else if S.isValid geom then explodeValid S (explodeToSimpleParts depth) geom
    else do
      let repaired ← S.makeValid geom
      match repaired with
      | none => return []
      | some g => if S.isEmpty g then return [] else explodeValid S (explodeToSimpleParts depth) g

/-- `_coord_count`: an exception on the way counts as 0. -/
def coordCount : Nat → G → Nat
  | depth, geom =>
    if S.isEmpty geom then 0
    else
      match S.kind geom with
      | .polygon => S.exterior geom + (S.interiors geom).sum
      | .multiPolygon | .geometryCollection =>
        match depth with
        | 0 => 0
        | depth + 1 => ((S.geoms geom).map (coordCount depth)).sum
      | .lineString => S.coords geom
      | .multiLineString | .multiPoint => ((S.geoms geom).map S.coords).sum
      | .point => 1
      | .linearRing | .other _ => 0

section
variable [LE K] [DecidableLE K] [Add K] [Sub K] [Mul K] [OfNat K 0] [OfScientific K]

/-- The two halves of the bounding box along its longer side; a point has none. -/
def halves (geom : G) : List G :=
  let (minx, miny, maxx, maxy) := S.bounds geom
  let dx := maxx - minx
  let dy := maxy - miny
  if dx ≤ 0 ∧ dy ≤ 0 then []
  else if dx ≥ dy then
    let mid := minx + dx * 0.5
    [S.box minx miny mid maxy, S.box mid miny maxx maxy]
  else
    let mid := miny + dy * 0.5
    [S.box minx miny maxx mid, S.box minx mid maxx maxy]

/-- What is left of a geometry in a cell, without empty parts. -/
def cellPieces (inter : G) : List G :=
  if S.kind inter = .geometryCollection then nonemptyGeoms S inter else [inter]

/-- The loop over the cells. Where an exception is raised the whole geometry ends the list; `none`
for the recursive call means that it raises. -/
def cutCells (subdivide : Option (G → List G)) (geom : G) : List G → List G → List G
  | [], out => out
  | cell :: cells, out =>
    match S.intersection geom cell with
    | .error _ => out ++ [geom]
    | .ok inter =>
      if S.isEmpty inter then cutCells subdivide geom cells out
      else
        match subdivide, cellPieces S inter with
        | _, [] => cutCells subdivide geom cells out
        | none, _ :: _ => out ++ [geom]
        | some f, p :: ps => cutCells subdivide geom cells (out ++ (p :: ps).flatMap f)

def subdivideWith (depth maxVertices : Nat) (subdivide : Option (G → List G)) (geom : G) : List G :=
  if S.isEmpty geom then []
  else if coordCount S depth geom ≤ (if maxVertices = 0 then 256 else maxVertices) then [geom]
  else
    match cutCells S subdivide geom (halves S geom) [] with
    | [] => [geom]
    | p :: ps => p :: ps

/-- `subdivide_geometry_by_vertices`. -/
def subdivideGeometryByVertices (maxVertices : Nat) : Nat → G → List G
  | 0 => subdivideWith S 0 maxVertices none
  | depth + 1 =>
    subdivideWith S (depth + 1) maxVertices (some (subdivideGeometryByVertices maxVertices depth))

end

/-! ## The statements -/

/-- The rows of an `INSERT` without its id. No properties are the empty text, which stands for
`NULL`. -/
structure Draft where
  properties : Text
  geometries : List (Option Text)
  nonempty : geometries ≠ []

def Draft.item (id : Text) (d : Draft) : Item := ⟨id, d.properties, d.geometries, d.nonempty⟩

/-- `json.dumps(properties) if properties else None`, as the column has it. -/
def propertiesColumn (props : List (Text × Json)) : Except Raised Text :=
  if props.isEmpty then .ok []
  else (D.jsonb (Json.dumps (.obj props))).map Subtype.val

/-- `insert_feature_subdivided_sql`. -/
def insertFeatureSubdivided (wkt : Option Text) (props : List (Text × Json)) :
    Except Raised Draft := do
  let properties ← propertiesColumn D props
  match wkt with
  | none => return ⟨properties, [none], oneNull_nonempty⟩
  | some text =>
    if isEmptyOrNullWkt text then return ⟨properties, [none], oneNull_nonempty⟩
    else
      let rows ← D.subdivide text lim.maxVertices
      return ⟨properties, rows.1.map some, by simpa using rows.2⟩

/-- `insert_feature_parts_batched` for the texts of pieces that are not empty. -/
def insertFeatureParts (text : Text) (texts : List Text) (props : List (Text × Json)) :
    Except Raised Draft := do
  let properties ← propertiesColumn D props
  let first ← D.force2d text
  let rest ← texts.mapM D.force2d
  return ⟨properties, some first :: rest.map some, by simp⟩

/-- What becomes of a part: over the size limit, cut into pieces of which all `oversize` are over
it, or inserted without `oversize` pieces. -/
inductive Part where
  | tooLarge
  | noPieces (oversize : Nat)
  | insert (oversize : Nat) (draft : Except Raised Draft)

variable [LE K] [DecidableLE K] [Add K] [Sub K] [Mul K] [OfNat K 0] [OfScientific K]

/-- The pieces of a part that is subdivided here and not in the database. -/
def pieces (depth : Nat) (g : G) : List G :=
  (subdivideGeometryByVertices S lim.maxVertices depth g).filter fun p => !S.isEmpty p

/-- A geometry, or none, in `_queue_one_geometry` and in the loop of `_import_one_source`. -/
def partOf (depth : Nat) (props : List (Text × Json)) : Option G → Part
  | none => .insert 0 (insertFeatureSubdivided D lim none props)
  | some g =>
    if exceedsLimit S lim g then .tooLarge
    else if !S.isEmpty g && decide (maxCoordsForDbSubdivide < coordCount S depth g) then
      let oversize := (pieces S lim depth g).countP (exceedsLimit S lim)
      match ((pieces S lim depth g).filter fun p => !exceedsLimit S lim p).map S.wkt with
      | [] => .noPieces oversize
      | text :: texts => .insert oversize (insertFeatureParts D text texts props)
    else
      .insert 0 (insertFeatureSubdivided D lim (if S.isEmpty g then none else some (S.wkt g)) props)

end

def Part.geometry (id : Text) : Part → Geometry
  | .tooLarge => .tooLarge
  | .noPieces oversize => .noParts oversize
  | .insert oversize draft => .parts oversize (draft.map (Draft.item id))

/-- The parts of a record, with the id that `uuid7` returns for each. -/
def geometries (id : Nat → Text) : List Part → List Geometry
  | [] => []
  | p :: ps => p.geometry (id 0) :: geometries (fun i => id (i + 1)) ps

/-! ## No part is empty -/

section
variable {G K : Type} {S : Shapely G K} {lim : Limits}

theorem mem_nonemptyGeoms {g p : G} (h : p ∈ nonemptyGeoms S g) : S.isEmpty p = false := by
  simpa using (List.mem_filter.mp h).2

theorem explodeAll_nonempty {explode : G → Except Raised (List G)}
    (h : ∀ g ps, explode g = .ok ps → ∀ p ∈ ps, S.isEmpty p = false) :
    ∀ gs ps, explodeAll explode gs = .ok ps → ∀ p ∈ ps, S.isEmpty p = false := by
  intro gs
  induction gs with
  | nil =>
    rintro _ ⟨⟩
    simp
  | cons g gs ih =>
    intro ps hps
    obtain ⟨first, hfirst, hps⟩ := Db.Catalog.bind_eq_ok.mp hps
    obtain ⟨rest, hrest, hps⟩ := Db.Catalog.bind_eq_ok.mp hps
    cases hps
    intro p hp
    exact (List.mem_append.mp hp).elim (h g first hfirst p) (ih rest hrest p)

theorem explodeAll_ok {explode : G → Except Raised (List G)} {parts : G → List G} {gs : List G}
    (h : ∀ g ∈ gs, explode g = .ok (parts g)) : explodeAll explode gs = .ok (gs.flatMap parts) := by
  induction gs with
  | nil => rfl
  | cons g gs ih =>
    obtain ⟨hg, hgs⟩ := List.forall_mem_cons.mp h
    rw [explodeAll, hg, ih hgs]
    rfl

theorem explodeValid_nonempty {explode : G → Except Raised (List G)}
    (h : ∀ g ps, explode g = .ok ps → ∀ p ∈ ps, S.isEmpty p = false) {g : G}
    (hg : S.isEmpty g = false) {ps : List G} (hps : explodeValid S explode g = .ok ps) :
    ∀ p ∈ ps, S.isEmpty p = false := by
  unfold explodeValid at hps
  split at hps <;> first
    | (cases hps; exact fun p hp => List.mem_singleton.mp hp ▸ hg)
    | (cases hps; exact fun p hp => mem_nonemptyGeoms hp)
    | exact explodeAll_nonempty h _ ps hps

theorem explodeToSimpleParts_nonempty (depth : Nat) :
    ∀ (g : G) (ps : List G), explodeToSimpleParts S depth g = .ok ps →
      ∀ p ∈ ps, S.isEmpty p = false := by
  induction depth with
  | zero => intro g ps h; cases h
  | succ depth ih =>
    intro g ps h
    rw [explodeToSimpleParts] at h
    split at h
    · cases h
      simp
    · rename_i hg
      split at h
      · exact explodeValid_nonempty ih (by simpa using hg) h
      · obtain ⟨repaired, _, h⟩ := Db.Catalog.bind_eq_ok.mp h
        cases repaired with
        | none =>
          cases h
          simp
        | some g' =>
          dsimp only at h
          split at h
          · cases h
            simp
          · rename_i hg'
            exact explodeValid_nonempty ih (by simpa using hg') h

theorem cutCells_nonempty {subdivide : Option (G → List G)}
    (h : ∀ f ∈ subdivide, ∀ g, S.isEmpty g = false → ∀ p ∈ f g, S.isEmpty p = false) {geom : G}
    (hgeom : S.isEmpty geom = false) (cells out : List G)
    (hout : ∀ p ∈ out, S.isEmpty p = false) :
    ∀ p ∈ cutCells S subdivide geom cells out, S.isEmpty p = false := by
  have hlast : ∀ out : List G, (∀ p ∈ out, S.isEmpty p = false) →
      ∀ p ∈ out ++ [geom], S.isEmpty p = false := by
    intro out hout p hp
    rcases List.mem_append.mp hp with hp | hp
    · exact hout p hp
    · exact List.mem_singleton.mp hp ▸ hgeom
  induction cells generalizing out with
  | nil => exact hout
  | cons cell cells ih =>
    unfold cutCells
    split
    · exact hlast out hout
    · rename_i inter _
      split
      · exact ih out hout
      · rename_i hinter
        split
        · exact ih out hout
        · exact hlast out hout
        · rename_i f p ps hpieces
          refine ih _ fun q hq => ?_
          rcases List.mem_append.mp hq with hq | hq
          · exact hout q hq
          · obtain ⟨r, hr, hq⟩ := List.mem_flatMap.mp hq
            rw [← hpieces, cellPieces] at hr
            refine h f rfl r ?_ q hq
            split at hr
            · exact mem_nonemptyGeoms hr
            · rw [List.mem_singleton.mp hr]
              simpa using hinter

variable [LE K] [DecidableLE K] [Add K] [Sub K] [Mul K] [OfNat K 0] [OfScientific K]

/-- A geometry that is not empty comes apart into at least one piece, and none is empty. -/
theorem subdivide_nonempty (maxVertices depth : Nat) :
    ∀ g : G, S.isEmpty g = false → subdivideGeometryByVertices S maxVertices depth g ≠ [] ∧
      ∀ p ∈ subdivideGeometryByVertices S maxVertices depth g, S.isEmpty p = false := by
  have hwith : ∀ (depth : Nat) (subdivide : Option (G → List G)),
      (∀ f ∈ subdivide, ∀ g, S.isEmpty g = false → ∀ p ∈ f g, S.isEmpty p = false) →
      ∀ g, S.isEmpty g = false → subdivideWith S depth maxVertices subdivide g ≠ [] ∧
        ∀ p ∈ subdivideWith S depth maxVertices subdivide g, S.isEmpty p = false := by
    intro depth subdivide hsub g hg
    have hone : [g] ≠ [] ∧ ∀ p ∈ [g], S.isEmpty p = false :=
      ⟨by simp, fun p hp => List.mem_singleton.mp hp ▸ hg⟩
    unfold subdivideWith
    rw [if_neg (by simp [hg])]
    generalize (if maxVertices = 0 then 256 else maxVertices) = most
    split
    · exact hone
    · split
      · exact hone
      · rename_i p ps hcut
        refine ⟨by simp, ?_⟩
        rw [← hcut]
        exact cutCells_nonempty hsub hg _ [] (by simp)
  induction depth with
  | zero => exact hwith 0 none (by simp)
  | succ depth ih =>
    refine hwith (depth + 1) (some (subdivideGeometryByVertices S maxVertices depth)) ?_
    rintro f ⟨⟩ g hg
    exact (ih g hg).2

/-- A part of which no piece is left has a piece that is too large. -/
theorem partOf_noPieces {D : Postgis} {depth oversize : Nat} {props : List (Text × Json)}
    {geom : Option G} (h : partOf S D lim depth props geom = .noPieces oversize) : 1 ≤ oversize := by
  cases geom with
  | none => cases h
  | some g =>
    rw [partOf] at h
    split at h
    · cases h
    · split at h
      · rename_i hbig
        have hg : S.isEmpty g = false := by
          simp only [Bool.and_eq_true, Bool.not_eq_true'] at hbig
          exact hbig.1
        obtain ⟨hne, hall⟩ := subdivide_nonempty (S := S) lim.maxVertices depth g hg
        obtain ⟨p, hp⟩ := List.exists_mem_of_ne_nil _ hne
        have hpiece : p ∈ pieces S lim depth g := List.mem_filter.mpr ⟨hp, by simp [hall p hp]⟩
        split at h
        · rename_i hnone
          cases h
          rw [List.map_eq_nil_iff, List.filter_eq_nil_iff] at hnone
          exact List.countP_pos_iff.mpr ⟨p, hpiece, by simpa using hnone p hpiece⟩
        · cases h
      · cases h

/-- The rows of a part have a geometry. -/
theorem partOf_geometries {D : Postgis} {depth oversize : Nat} {props : List (Text × Json)} {g : G}
    {draft : Draft} (hg : S.isEmpty g = false)
    (h : partOf S D lim depth props (some g) = .insert oversize (.ok draft)) :
    none ∉ draft.geometries := by
  rw [partOf] at h
  split at h
  · cases h
  · split at h
    · split at h
      · cases h
      · obtain ⟨_, hd⟩ := Part.insert.inj h
        obtain ⟨_, _, hd⟩ := Db.Catalog.bind_eq_ok.mp hd
        obtain ⟨_, _, hd⟩ := Db.Catalog.bind_eq_ok.mp hd
        obtain ⟨_, _, hd⟩ := Db.Catalog.bind_eq_ok.mp hd
        cases hd
        simp
    · obtain ⟨_, hd⟩ := Part.insert.inj h
      rw [hg] at hd
      obtain ⟨_, _, hd⟩ := Db.Catalog.bind_eq_ok.mp hd
      simp only [Bool.false_eq_true, if_false, S.wkt_nonempty g hg] at hd
      obtain ⟨rows, _, hd⟩ := Db.Catalog.bind_eq_ok.mp hd
      cases hd
      simp

theorem propertiesColumn_nil {D : Postgis} {props : List (Text × Json)}
    (h : propertiesColumn D props = .ok []) : props = [] := by
  unfold propertiesColumn at h
  split at h
  · rename_i hp
    exact List.isEmpty_iff.mp hp
  · cases hj : D.jsonb (Json.dumps (.obj props)) with
    | error e => rw [hj] at h; cases h
    | ok v =>
      rw [hj] at h
      exact absurd (Except.ok.inj h) v.2

end

end Import
end Geofastmap
