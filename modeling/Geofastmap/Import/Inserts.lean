import Geofastmap.Import.Parts
import Geofastmap.Upload.Complete

/-!
# Geofastmap.Import.Inserts

The statements that insert a feature (`feature_subdivide.py`), for any texts of its parts.

A batch binds each text under its position, those of empty parts included, and numbers its rows by
the start of the batch and the rows so far. `bound_batched` : what the batches insert together.
-/

namespace Geofastmap
namespace Inserts

open Db Import

/-- `_is_empty_or_null_wkt`. -/
def isEmptyOrNullWkt : Option Text → Bool
  | none => true
  | some wkt => Import.isEmptyOrNullWkt wkt

/-! ## The statements -/

/-- The parameters of every statement. -/
structure Params where
  id : Text
  cid : CollectionId
  props : Option Text
  now : Nat
  bulkJid : Option Text

/-- The parameters for a feature; no properties are `None` or an empty mapping. -/
def params (featureId : Text) (collectionId : CollectionId) (properties : List (Text × Json))
    (now : Nat) (bulkImportJobId : Option Text) : Params :=
  ⟨featureId, collectionId,
    if properties.isEmpty then none else some (Json.dumps (.obj properties)), now, bulkImportJobId⟩

/-- A statement with its parameters. -/
inductive Insert where
  /-- `VALUES`, with the part index of a row and the name of the parameter for its geometry. -/
  | values (params : Params) (wkts : List (Text × Text)) (rows : List (Nat × Text))
  /-- One row without a geometry. -/
  | null (params : Params)
  /-- `SELECT ... FROM ST_Subdivide(...)`. -/
  | subdivide (params : Params) (wkt : Text) (maxVertices : Nat)

/-- `insert_feature_subdivided_sql`. -/
def insertFeatureSubdividedSql (p : Params) (wkt : Option Text) (maxVertices : Nat) : Insert :=
  match wkt with
  | none => .null p
  | some text => if isEmptyOrNullWkt (some text) then .null p else .subdivide p text maxVertices

/-- `f"wkt_{i}"`. -/
def wktKey (i : Nat) : Text := "wkt_".toList ++ Sql.digits i

/-- `params[key] = wkt`. -/
def setItem (key wkt : Text) (wkts : List (Text × Text)) : List (Text × Text) :=
  (key, wkt) :: wkts.filter (·.1 != key)

/-- The loop over the texts of a batch from a position on, with the parameters and the rows so
far. -/
def chunkValues (start : Nat) : Nat → List Text → List (Text × Text) → List (Nat × Text) →
    List (Text × Text) × List (Nat × Text)
  | _, [], wkts, values => (wkts, values)
  | i, wkt :: chunk, wkts, values =>
    if isEmptyOrNullWkt (some wkt) then chunkValues start (i + 1) chunk wkts values
    else
      chunkValues start (i + 1) chunk (setItem (wktKey i) wkt wkts)
        (values ++ [(start + values.length, wktKey i)])

/-- The statement of the batch that starts at a position; a batch without rows has none. -/
def batchInsert (p : Params) (batchSize : Nat) (wktList : List Text) (start : Nat) :
    Option Insert :=
  let chunk := (wktList.drop start).take batchSize
  let (wkts, values) := chunkValues start 0 chunk [] []
  if values.isEmpty then none else some (.values p wkts values)

/-- `range(0, n, step)`. -/
def starts (n step : Nat) : List Nat := List.range' 0 ((n + step - 1) / step) step

/-- `insert_feature_parts_batched`. -/
def insertFeaturePartsBatched (p : Params) (wktList : List Text) (batchSize : Nat) : List Insert :=
  (starts wktList.length batchSize).filterMap (batchInsert p batchSize wktList)

/-- The part index and the text of each row of a `VALUES`. -/
def Insert.bound : Insert → List (Nat × Option Text)
  | .values _ wkts rows => rows.map fun row => (row.1, wkts.lookup row.2)
  | .null _ => []
  | .subdivide _ _ _ => []

/-- The texts that are inserted. -/
def nonEmpty (wktList : List Text) : List Text :=
  wktList.filter fun wkt => !isEmptyOrNullWkt (some wkt)

/-! ## One batch -/

theorem wktKey_inj {i j : Nat} (h : wktKey i = wktKey j) : i = j := by
  have hdigits : Nat.toDigits 10 i = Nat.toDigits 10 j := List.append_cancel_left h
  rw [← Nat.ofDigitChars_ten_toDigits (n := i), hdigits, Nat.ofDigitChars_ten_toDigits]

theorem lookup_setItem_self (key wkt : Text) (wkts : List (Text × Text)) :
    (setItem key wkt wkts).lookup key = some wkt := by
  simp [setItem]

theorem lookup_setItem_ne {key other : Text} (h : other ≠ key) (wkt : Text)
    (wkts : List (Text × Text)) : (setItem key wkt wkts).lookup other = wkts.lookup other := by
  rw [setItem, List.lookup_cons, beq_false_of_ne h]
  change (wkts.filter fun entry => entry.1 != key).lookup other = wkts.lookup other
  induction wkts with
  | nil => rfl
  | cons entry wkts ih =>
    obtain ⟨k, v⟩ := entry
    by_cases hk : k = key
    · subst hk
      rw [List.filter_cons_of_neg (by simp), ih, List.lookup_cons, beq_false_of_ne h]
    · rw [List.filter_cons_of_pos (by simpa using hk), List.lookup_cons, List.lookup_cons, ih]

/-- The rows of a batch with their texts. -/
def boundRows (wkts : List (Text × Text)) (values : List (Nat × Text)) : List (Nat × Option Text) :=
  values.map fun row => (row.1, wkts.lookup row.2)

/-- The rows of the texts that are left, from an index on. -/
def numbered (start : Nat) (wktList : List Text) : List (Nat × Option Text) :=
  ((nonEmpty wktList).map some).zipIdx start |>.map Prod.swap

/-- The texts after a position are bound under names that no row before has. -/
theorem boundRows_chunkValues (start : Nat) (chunk : List Text) (i : Nat)
    (wkts : List (Text × Text)) (values : List (Nat × Text))
    (hkeys : ∀ row ∈ values, ∃ j < i, row.2 = wktKey j) :
    boundRows (chunkValues start i chunk wkts values).1 (chunkValues start i chunk wkts values).2 =
      boundRows wkts values ++ numbered (start + values.length) chunk := by
  induction chunk generalizing i wkts values with
  | nil => simp [chunkValues, numbered, nonEmpty]
  | cons wkt chunk ih =>
    rw [chunkValues]
    split
    · rename_i hempty
      rw [ih (i + 1) wkts values fun row hrow => ?_]
      · simp [numbered, nonEmpty, hempty]
      · obtain ⟨j, hj, hrow⟩ := hkeys row hrow
        exact ⟨j, by omega, hrow⟩
    · rename_i hfull
      rw [ih (i + 1) _ _ fun row hrow => ?_]
      · have hold : boundRows (setItem (wktKey i) wkt wkts) values = boundRows wkts values := by
          refine List.map_congr_left fun row hrow => ?_
          obtain ⟨j, hj, hkey⟩ := hkeys row hrow
          rw [hkey, lookup_setItem_ne fun h => absurd (wktKey_inj h) (by omega)]
        have hnew : boundRows (setItem (wktKey i) wkt wkts)
            (values ++ [(start + values.length, wktKey i)]) =
              boundRows wkts values ++ [(start + values.length, some wkt)] := by
          rw [← hold]
          simp [boundRows, lookup_setItem_self]
        rw [hnew]
        simp [numbered, nonEmpty, hfull, Nat.add_assoc]
      · rcases List.mem_append.mp hrow with hrow | hrow
        · obtain ⟨j, hj, hrow⟩ := hkeys row hrow
          exact ⟨j, by omega, hrow⟩
        · rw [List.mem_singleton.mp hrow]
          exact ⟨i, by omega, rfl⟩

theorem boundRows_chunk (start : Nat) (chunk : List Text) :
    boundRows (chunkValues start 0 chunk [] []).1 (chunkValues start 0 chunk [] []).2 =
      numbered start chunk :=
  boundRows_chunkValues start chunk 0 [] [] (by simp)

/-- The rows of the batch that starts at a position. -/
theorem bound_batchInsert (p : Params) (batchSize : Nat) (wktList : List Text) (start : Nat) :
    (batchInsert p batchSize wktList start).toList.flatMap Insert.bound =
      numbered start ((wktList.drop start).take batchSize) := by
  rw [← boundRows_chunk]
  unfold batchInsert
  dsimp only
  split
  · rename_i hnone
    rw [List.isEmpty_iff.mp hnone]
    rfl
  · simp [Insert.bound, boundRows]

/-! ## All batches -/

theorem numbered_texts (start : Nat) (wktList : List Text) :
    (numbered start wktList).map Prod.snd = (nonEmpty wktList).map some := by
  simp [numbered, Function.comp_def]

theorem numbered_indices (start : Nat) (wktList : List Text) :
    (numbered start wktList).map Prod.fst = List.range' start (nonEmpty wktList).length := by
  simp [numbered, Function.comp_def]

theorem nonEmpty_append (xs ys : List Text) : nonEmpty (xs ++ ys) = nonEmpty xs ++ nonEmpty ys :=
  List.filter_append ..

/-- The indices of a batch lie between its start and the next one. -/
theorem mem_numbered {start batchSize index : Nat} {wktList : List Text}
    (h : index ∈ (numbered start (wktList.take batchSize)).map Prod.fst) :
    start ≤ index ∧ index < start + batchSize := by
  rw [numbered_indices, List.mem_range'_1] at h
  have hkept : (nonEmpty (wktList.take batchSize)).length ≤ batchSize :=
    (List.length_filter_le _ _).trans (by simp)
  omega

/-- The rows of the batches from a position on. -/
def rowsFrom (wktList : List Text) (batchSize start count : Nat) : List (Nat × Option Text) :=
  (List.range' start count batchSize).flatMap fun s =>
    numbered s ((wktList.drop s).take batchSize)

theorem rowsFrom_succ (wktList : List Text) (batchSize start count : Nat) :
    rowsFrom wktList batchSize start (count + 1) =
      numbered start ((wktList.drop start).take batchSize) ++
        rowsFrom wktList batchSize (start + batchSize) count := by
  rw [rowsFrom, List.range'_succ, List.flatMap_cons]
  rfl

theorem rowsFrom_texts (wktList : List Text) (batchSize : Nat) (count : Nat) :
    ∀ start, wktList.length ≤ start + count * batchSize →
      (rowsFrom wktList batchSize start count).map Prod.snd =
        (nonEmpty (wktList.drop start)).map some := by
  induction count with
  | zero =>
    intro start h
    rw [List.drop_eq_nil_of_le (by omega)]
    rfl
  | succ count ih =>
    intro start h
    rw [Nat.succ_mul] at h
    rw [rowsFrom_succ, List.map_append, numbered_texts, ih (start + batchSize) (by omega),
      ← List.map_append, ← nonEmpty_append, ← List.drop_drop, List.take_append_drop]

theorem rowsFrom_increasing (wktList : List Text) (batchSize : Nat) (count : Nat) :
    ∀ start, ((rowsFrom wktList batchSize start count).map Prod.fst).Pairwise (· < ·) ∧
      ∀ index ∈ (rowsFrom wktList batchSize start count).map Prod.fst, start ≤ index := by
  induction count with
  | zero => exact fun start => ⟨List.Pairwise.nil, by simp [rowsFrom]⟩
  | succ count ih =>
    intro start
    obtain ⟨hrest, hfrom⟩ := ih (start + batchSize)
    rw [rowsFrom_succ, List.map_append]
    refine ⟨List.pairwise_append.mpr ⟨?_, hrest, ?_⟩, ?_⟩
    · rw [numbered_indices]
      exact List.pairwise_lt_range'
    · intro index hindex later hlater
      have hin := mem_numbered hindex
      have hout := hfrom later hlater
      omega
    · intro index hindex
      rcases List.mem_append.mp hindex with hindex | hindex
      · exact (mem_numbered hindex).1
      · have hout := hfrom index hindex
        omega

/-- The last batch reaches the end of the list. -/
theorem length_le_starts (n : Nat) {step : Nat} (h : 1 ≤ step) :
    n ≤ (n + step - 1) / step * step := by
  have hdiv := Nat.div_add_mod (n + step - 1) step
  have hmod := Nat.mod_lt (n + step - 1) h
  rw [Nat.mul_comm] at hdiv
  omega

theorem bound_eq_rowsFrom (p : Params) (wktList : List Text) (batchSize : Nat) :
    (insertFeaturePartsBatched p wktList batchSize).flatMap Insert.bound =
      rowsFrom wktList batchSize 0 ((wktList.length + batchSize - 1) / batchSize) := by
  rw [insertFeaturePartsBatched, List.filterMap_eq_flatMap_toList, List.flatMap_assoc]
  simp only [bound_batchInsert]
  rfl

/-- The statements insert the texts that are not empty, in order and with increasing indices. -/
theorem bound_batched (p : Params) (wktList : List Text) {batchSize : Nat} (h : 1 ≤ batchSize) :
    ((insertFeaturePartsBatched p wktList batchSize).flatMap Insert.bound).map Prod.snd =
        (nonEmpty wktList).map some ∧
      (((insertFeaturePartsBatched p wktList batchSize).flatMap Insert.bound).map
        Prod.fst).Pairwise (· < ·) := by
  rw [bound_eq_rowsFrom]
  refine ⟨?_, (rowsFrom_increasing wktList batchSize _ 0).1⟩
  rw [rowsFrom_texts wktList batchSize _ 0 (by
    have hreach := length_le_starts wktList.length h
    omega), List.drop_zero]

/-- A `VALUES` with the parameters of a feature. -/
def IsValues (p : Params) (ins : Insert) : Prop := ∃ wkts rows, ins = .values p wkts rows

theorem isValues_batched {p : Params} {wktList : List Text} {batchSize : Nat} :
    ∀ ins ∈ insertFeaturePartsBatched p wktList batchSize, IsValues p ins := by
  intro ins h
  obtain ⟨start, -, hins⟩ := List.mem_filterMap.mp h
  unfold batchInsert at hins
  dsimp only at hins
  split at hins
  · cases hins
  · cases hins
    exact ⟨_, _, rfl⟩

end Inserts
end Geofastmap
