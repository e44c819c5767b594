import Geofastmap.Import.Json
import Geofastmap.Interleave.Futures

/-!
# Geofastmap.Process.Batches

The processes that handle each feature on its own: `buffer`, `explode` and `make_valid`. A stream
of rows is cut into batches by size, the batches are computed by a pool of workers, and the rows of
a batch are written when its future is harvested. The runs are those of a job that is not
cancelled.

`batches_exact`: neither the cut nor the schedule shows in the rows that are written.
-/

namespace Geofastmap
namespace Process

open Import Interleave

abbrev Props := List (Text × Json)

/-- An element of a batch: `(id, geom_wkb, props)`. -/
abbrev BatchRow := Text × Option Text × Props

inductive AtomKind where
  | point | lineString | polygon | linearRing
deriving DecidableEq, Repr

inductive MultiKind where
  | multiPoint | multiLineString | multiPolygon
deriving DecidableEq, Repr

/-- A Shapely geometry over its single parts. -/
inductive Geom (A : Type) where
  | atom (kind : AtomKind) (part : A)
  | multi (kind : MultiKind) (parts : List A)
  | collection (geoms : List (Geom A))

/-- Shapely, with the type of the distances. `none` stands for an exception or `None`. -/
structure Shapely (A D : Type) where
  loads : Text → Option (Geom A)
  /-- `is_empty` of a single part. -/
  empty : A → Bool
  buffer : Geom A → D → Option (Geom A)
  isValid : Geom A → Bool
  makeValid : Geom A → Option (Geom A)
  /-- `LineString(ring.coords)`. -/
  lineString : A → Option A
  /-- A distance as a JSON value. -/
  number : D → Json

variable {A D : Type} (shp : Shapely A D)

mutual

/-- `geom.is_empty`. -/
def Geom.isEmpty (empty : A → Bool) : Geom A → Bool
  | .atom _ part => empty part
  | .multi _ parts => parts.all empty
  | .collection geoms => Geom.allEmpty empty geoms

def Geom.allEmpty (empty : A → Bool) : List (Geom A) → Bool
  | [] => true
  | g :: geoms => Geom.isEmpty empty g && Geom.allEmpty empty geoms

end

/-- The kind of the parts of a `Multi*` geometry. -/
def MultiKind.part : MultiKind → AtomKind
  | .multiPoint => .point
  | .multiLineString => .lineString
  | .multiPolygon => .polygon

/-- The non-empty parts of a `Multi*` geometry. -/
def multiParts (kind : MultiKind) (parts : List A) : List (Geom A) :=
  (parts.filter fun part => !shp.empty part).map (.atom kind.part)

mutual

/-- `_flatten_make_valid_geometry`. -/
def flattenMakeValidGeometry : Geom A → List (Geom A)
  | .atom kind part =>
    if shp.empty part then []
    else
      match kind with
      | .linearRing => ((shp.lineString part).map (.atom .lineString)).toList
      | _ => [.atom kind part]
  | .multi kind parts => multiParts shp kind parts
  | .collection geoms =>
    if Geom.allEmpty shp.empty geoms then [] else flattenGeoms geoms

def flattenGeoms : List (Geom A) → List (Geom A)
  | [] => []
  | g :: geoms => flattenMakeValidGeometry g ++ flattenGeoms geoms

end

/-- `props.setdefault(key, value)`. -/
def setdefault (props : Props) (key : Text) (value : Json) : Props :=
  if (props.lookup key).isSome then props else props ++ [(key, value)]

def indexed (key idKey : Text) (fid : Text) (props : Props) (idx : Nat) : Props :=
  setdefault (setdefault props idKey (.str fid)) key (.num (Sql.digits idx))

/-- The non-empty geometry of an element of a batch. -/
def loaded (wkb : Option Text) : Option (Geom A) :=
  (wkb.bind shp.loads).filter fun g => !g.isEmpty shp.empty

/-! ## Rows -/

section Rows

variable [LinearOrder D] [Zero D]

/-- One turn of the loop of `_process_buffer_batch`. -/
def bufferRow (distanceDegrees : D) : BatchRow → List (Geom A × Props)
  | (fid, wkb, props) =>
    match loaded shp wkb with
    | none => []
    | some g =>
      match (shp.buffer g distanceDegrees).filter fun buf => !buf.isEmpty shp.empty with
      | none => []
      | some buf =>
        let propsOut := setdefault (setdefault props "_buffer_degrees".toList
          (shp.number distanceDegrees)) "_source_id".toList (.str fid)
        if shp.isValid buf then [(buf, propsOut)]
        else
          match shp.buffer buf 0 with
          | none => []
          | some fixed => [(fixed, propsOut)]

/-- `_process_buffer_batch`. -/
def processBufferBatch (distanceDegrees : D) (batch : List BatchRow) : List (Geom A × Props) :=
  if distanceDegrees ≤ 0 then [] else batch.flatMap (bufferRow shp distanceDegrees)

end Rows

/-- The geometries of a feature in `_process_explode_batch`. -/
def explodeGeoms : Geom A → List (Geom A)
  | .atom kind part => [.atom kind part]
  | .multi kind parts => multiParts shp kind parts
  | .collection geoms => geoms.filter fun g => !g.isEmpty shp.empty

def explodeRow : BatchRow → List (Geom A × Props)
  | (fid, wkb, props) =>
    match loaded shp wkb with
    | none => []
    | some g =>
      (explodeGeoms shp g).zipIdx.filterMap fun (part, idx) =>
        if part.isEmpty shp.empty then none
        else some (part, indexed "_part_index".toList "_parent_id".toList fid props idx)

/-- `_process_explode_batch`. -/
def processExplodeBatch (batch : List BatchRow) : List (Geom A × Props) :=
  batch.flatMap (explodeRow shp)

def makeValidRow : BatchRow → List (Geom A × Props)
  | (fid, wkb, props) =>
    match loaded shp wkb with
    | none => []
    | some g =>
      match (shp.makeValid g).filter fun fixed => !fixed.isEmpty shp.empty with
      | none => []
      | some fixed =>
        (flattenMakeValidGeometry shp fixed).zipIdx.filterMap fun (part, idx) =>
          if part.isEmpty shp.empty then none
          else some (part, indexed "_part_index".toList "_source_id".toList fid props idx)

/-- `_process_make_valid_batch`. -/
def processMakeValidBatch (batch : List BatchRow) : List (Geom A × Props) :=
  batch.flatMap (makeValidRow shp)

/-! ## The stream -/

/-- A row of the result set. -/
structure StreamRow (R : Type) where
  id : Text
  geometry : R
  properties : Option Props

variable {R : Type} (geomToWkbBytes : R → Option Text)

/-- `(row.id, geom_bytes, dict(row.properties) if row.properties else {})`. -/
def batchEntry (row : StreamRow R) : BatchRow :=
  (row.id, geomToWkbBytes row.geometry, row.properties.getD [])

/-- The loop of `_stream_batches_by_size` with the batch that is being filled. -/
def streamFrom (maxBytes maxRows : Int) :
    List (StreamRow R) → List BatchRow → Nat → List (List BatchRow)
  | [], batchA, _ => if batchA.isEmpty then [] else [batchA]
  | row :: rows, batchA, batchBytes =>
    let rowBytes := ((geomToWkbBytes row.geometry).map List.length).getD 0
    if batchA ≠ [] ∧ ((batchBytes + rowBytes : Int) > maxBytes ∨
        (maxRows > 0 ∧ (batchA.length : Int) ≥ maxRows)) then
      batchA :: streamFrom maxBytes maxRows rows [batchEntry geomToWkbBytes row] rowBytes
    else
      streamFrom maxBytes maxRows rows (batchA ++ [batchEntry geomToWkbBytes row])
        (batchBytes + rowBytes)

/-- `_stream_batches_by_size`. -/
def streamBatchesBySize (maxBytes maxRows : Int) (rows : List (StreamRow R)) :
    List (List BatchRow) :=
  streamFrom geomToWkbBytes maxBytes maxRows rows [] 0

/-- A batch leaves no row out and repeats none. -/
theorem flatten_streamFrom (maxBytes maxRows : Int) (rows : List (StreamRow R))
    (batchA : List BatchRow) (batchBytes : Nat) :
    (streamFrom geomToWkbBytes maxBytes maxRows rows batchA batchBytes).flatten =
      batchA ++ rows.map (batchEntry geomToWkbBytes) := by
  induction rows generalizing batchA batchBytes with
  | nil =>
    cases batchA <;> simp [streamFrom]
  | cons row rows ih =>
    unfold streamFrom
    simp only
    split
    · rw [List.flatten_cons, ih]
      simp
    · rw [ih]
      simp

theorem streamFrom_ne_nil (maxBytes maxRows : Int) (rows : List (StreamRow R))
    (batchA : List BatchRow) (batchBytes : Nat) :
    ∀ batch ∈ streamFrom geomToWkbBytes maxBytes maxRows rows batchA batchBytes, batch ≠ [] := by
  induction rows generalizing batchA batchBytes with
  | nil =>
    cases batchA <;> simp [streamFrom]
  | cons row rows ih =>
    unfold streamFrom
    simp only
    split
    next hflush =>
      rw [List.forall_mem_cons]
      exact ⟨hflush.1, ih _ _⟩
    next => exact ih _ _

/-! ## The job -/

inductive BatchProcess (D : Type) where
  | buffer (distanceDegrees : Option D)
  | explode
  | makeValid

section Job

variable [LinearOrder D] [Zero D]

/-- The function that is submitted with each batch. -/
def BatchProcess.batch : BatchProcess D → List BatchRow → List (Geom A × Props)
  | .buffer distance => processBufferBatch shp (distance.getD 0)
  | .explode => processExplodeBatch shp
  | .makeValid => processMakeValidBatch shp

/-- What the process makes of one row. -/
def BatchProcess.row : BatchProcess D → BatchRow → List (Geom A × Props)
  | .buffer distance => fun row =>
    if distance.getD 0 ≤ 0 then [] else bufferRow shp (distance.getD 0) row
  | .explode => explodeRow shp
  | .makeValid => makeValidRow shp

structure JobOutput (A : Type) where
  /-- The lists handed to `_insert_features_sync`. -/
  inserted : List (List (Geom A × Props))
  count : Nat
  itemsIn : Nat

/-- The `buffer`, `explode` and `make_valid` branches of `process_process_job_sync`. -/
def processJob (process : BatchProcess D) (maxBytes maxRows : Int) (maxWorkers : Nat)
    (sched : Futures.Schedule (List BatchRow)) (rows : List (StreamRow R)) : JobOutput A :=
  let batches := (streamBatchesBySize geomToWkbBytes maxBytes maxRows rows).filter
    fun batchA => !batchA.isEmpty
  let s := Futures.run (process.batch shp) sched maxWorkers batches
  ⟨s.inserted, s.itemsOut, (batches.map List.length).sum⟩

theorem batch_eq_flatMap (process : BatchProcess D) (batch : List BatchRow) :
    process.batch shp batch = batch.flatMap (process.row shp) := by
  cases process with
  | buffer distance =>
    by_cases hd : distance.getD 0 ≤ 0
    · simp [BatchProcess.batch, BatchProcess.row, processBufferBatch, hd]
    · simp [BatchProcess.batch, BatchProcess.row, processBufferBatch, hd]
  | explode => rfl
  | makeValid => rfl

theorem flatMap_batches (process : BatchProcess D) (batches : List (List BatchRow)) :
    batches.flatMap (process.batch shp) = batches.flatten.flatMap (process.row shp) := by
  induction batches with
  | nil => rfl
  | cons batch batches ih =>
    rw [List.flatMap_cons, List.flatten_cons, List.flatMap_append, ih, batch_eq_flatMap]

theorem batches_exact (process : BatchProcess D) (maxBytes maxRows : Int) (maxWorkers : Nat)
    (sched : Futures.Schedule (List BatchRow)) (rows : List (StreamRow R)) :
    let out := processJob shp geomToWkbBytes process maxBytes maxRows maxWorkers sched rows
    let expected := rows.flatMap fun row =>
      process.row shp (row.id, geomToWkbBytes row.geometry, row.properties.getD [])
    out.inserted.flatten.Perm expected ∧ out.count = expected.length ∧
      out.itemsIn = rows.length := by
  have hall : (streamBatchesBySize geomToWkbBytes maxBytes maxRows rows).filter
      (fun batchA => !batchA.isEmpty) = streamBatchesBySize geomToWkbBytes maxBytes maxRows rows := by
    rw [List.filter_eq_self]
    intro batch hbatch
    simpa using streamFrom_ne_nil geomToWkbBytes maxBytes maxRows rows [] 0 batch hbatch
  have hflat : (streamBatchesBySize geomToWkbBytes maxBytes maxRows rows).flatten =
      rows.map (batchEntry geomToWkbBytes) :=
    flatten_streamFrom geomToWkbBytes maxBytes maxRows rows [] 0
  have hrun := Futures.run_perm (process.batch shp) sched maxWorkers
    (streamBatchesBySize geomToWkbBytes maxBytes maxRows rows)
  rw [flatMap_batches, hflat, List.flatMap_map] at hrun
  simp only [processJob, hall]
  refine ⟨hrun.1, hrun.2, ?_⟩
  rw [← List.length_flatten, hflat, List.length_map]

end Job

end Process
end Geofastmap
