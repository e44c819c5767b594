import Geofastmap.Process.Permissions
import Geofastmap.Process.ResultIds

/-!
# Geofastmap.Process.Jobs

Process jobs on a store of collections: what a route accepts, what it keeps about the job, and
what the worker does to the store. `Engine` stands for the computation itself: which rows a job
writes is its function of the rows it reads.

A job clears its result collection before it reads its layers. The clearing empties the table that
has the name of the collection's partition, which may be one that was left behind.
-/

namespace Geofastmap
namespace Process

open Db

/-! ## The store -/

structure Store where
  attrs : Collections
  finite : {c | attrs c ≠ none}.Finite
  /-- The live rows. -/
  rows : CollectionId → List Row
  /-- A detached table has the name of the collection's partition. -/
  leftover : CollectionId → Bool
  /-- The collection has no partition, and `CREATE TABLE` would raise. -/
  blocked : CollectionId → Bool

namespace Store

theorem finite_update {cs : Collections} (h : {c | cs c ≠ none}.Finite) (c : CollectionId)
    (a : Option Attrs) : {d | Function.update cs c a d ≠ none}.Finite := by
  apply (h.union (Set.finite_singleton c)).subset
  intro d hd
  by_cases hdc : d = c
  · exact Or.inr hdc
  · exact Or.inl (by simpa [hdc] using hd)

def setRows (s : Store) (c : CollectionId) (rs : List Row) : Store :=
  { s with rows := Function.update s.rows c rs }

/-- The row that the worker inserts into `collections`, unless there is one. -/
def register (s : Store) (c : CollectionId) : Store :=
  match s.attrs c with
  | some _ => s
  | none =>
    { s with
      attrs := Function.update s.attrs c (some ⟨none, .private, false, .vector, []⟩)
      finite := finite_update s.finite c _ }

/-- `_ensure_collection_and_partition_sync`. -/
def ensure (s : Store) (c : CollectionId) : Option Store :=
  if s.blocked c then none else some (s.register c)

/-- `_clear_result_collection_sync`: a `TRUNCATE` of the table with the name of the partition, and
a `DELETE` of the live rows only where there is no such table. -/
def clear (s : Store) (c : CollectionId) : Store :=
  if s.leftover c then s else s.setRows c []

/-- `_cleanup_result_collection_sync`. -/
def remove (s : Store) (c : CollectionId) : Store :=
  { s with
    attrs := Function.update s.attrs c none
    finite := finite_update s.finite c none
    rows := Function.update s.rows c [] }

variable (s : Store) {c d : CollectionId}

@[simp] theorem setRows_attrs (rs : List Row) : (s.setRows c rs).attrs = s.attrs := rfl

@[simp] theorem setRows_leftover (rs : List Row) : (s.setRows c rs).leftover = s.leftover := rfl

@[simp] theorem setRows_rows (rs : List Row) :
    (s.setRows c rs).rows = Function.update s.rows c rs := rfl

@[simp] theorem register_rows : (s.register c).rows = s.rows := by
  unfold register
  split <;> rfl

@[simp] theorem register_leftover : (s.register c).leftover = s.leftover := by
  unfold register
  split <;> rfl

theorem register_attrs :
    (s.register c).attrs c = some ((s.attrs c).getD ⟨none, .private, false, .vector, []⟩) := by
  unfold register
  split
  next a ha => simp [ha]
  next ha => simp [ha]

@[simp] theorem clear_attrs : (s.clear c).attrs = s.attrs := by
  unfold clear
  split <;> rfl

@[simp] theorem clear_leftover : (s.clear c).leftover = s.leftover := by
  unfold clear
  split <;> rfl

theorem clear_rows :
    (s.clear c).rows = if s.leftover c then s.rows else Function.update s.rows c [] := by
  unfold clear
  split <;> rfl

theorem clear_rows_ne (h : d ≠ c) : (s.clear c).rows d = s.rows d := by
  rw [clear_rows]
  split
  · rfl
  · exact Function.update_of_ne h _ _

/-- Clearing is without effect exactly where a table was left behind, or nothing is stored. -/
theorem clear_rows_self_iff :
    (s.clear c).rows c = s.rows c ↔ s.rows c = [] ∨ s.leftover c = true := by
  rw [clear_rows]
  cases s.leftover c with
  | true => simp
  | false =>
    simp only [Bool.false_eq_true, if_false, Function.update_self, or_false]
    exact eq_comm

theorem remove_attrs_ne (h : d ≠ c) : (s.remove c).attrs d = s.attrs d := by simp [remove, h]

theorem remove_rows_ne (h : d ≠ c) : (s.remove c).rows d = s.rows d := by simp [remove, h]

@[simp] theorem remove_attrs_self : (s.remove c).attrs c = none := by simp [remove]

end Store

/-! ## Submissions -/

variable {D : Type}

/-- A request to an execution route. `measure` always names its own layer. -/
inductive Submission (D : Type) where
  | process (request : Request D) (resultCollectionId : Option Text) (updateExisting : Bool)
  | measure (collectionId : CollectionId) (featureIds : List Text)

def measureId : Text := "measure".toList

def Submission.payload : Submission D → ProcessJobPayload D
  | .process request result update =>
    { request.payload with
      resultCollectionId := result.filter fun r => !r.isEmpty
      updateExisting := update }
  | .measure c ids =>
    { processId := measureId
      collectionIdA := c
      collectionIdB := c
      featureRef := none
      featureGeojson := none
      collectionIds := []
      featureIds := ids
      bufferDistanceDegrees := none
      groupByProperty := none
      resultCollectionId := some c
      updateExisting := true }

/-- The layers that the worker reads after it has cleared the result. -/
def ProcessJobPayload.layers (p : ProcessJobPayload D) : List CollectionId :=
  if p.isFeatureVsLayers then p.collectionIds else [p.collectionIdA, p.collectionIdB]

/-- The collection of the feature, which the worker reads first. -/
def ProcessJobPayload.source (p : ProcessJobPayload D) : Option CollectionId :=
  if p.isFeatureVsLayers then p.featureRef.map Prod.fst else none

/-- `payload.result_collection_id` is not empty. -/
def ProcessJobPayload.named (p : ProcessJobPayload D) : Bool :=
  p.resultCollectionId.any fun c => !c.isEmpty

/-- The collections that the route looks up must exist. -/
def Submission.Checked (attrs : Collections) (sub : Submission D) : Prop :=
  (∀ c ∈ sub.payload.layers, attrs c ≠ none) ∧
    (∀ c, sub.payload.source = some c → attrs c ≠ none) ∧
    (sub.payload.updateExisting = true →
      ∃ c, sub.payload.resultCollectionId = some c ∧ attrs c ≠ none)

/-- `get_feature` finds the feature of a reference. -/
def ProcessJobPayload.FeatureFound (p : ProcessJobPayload D) (rows : CollectionId → List Row) :
    Prop :=
  ∀ c fid, p.featureRef = some (c, fid) → ∃ r ∈ rows c, r.id = fid

/-- The checks of the routes. -/
def Submission.Accepted (s : Store) (sub : Submission D) : Prop :=
  sub.Checked s.attrs ∧ sub.payload.FeatureFound s.rows

/-! ## What a job reads -/

/-- `geometry IS NOT NULL`, and `id = ANY(:ids)` where the request names features. -/
def ProcessJobPayload.selected (p : ProcessJobPayload D) (rows : List Row) : List Row :=
  rows.filter fun r => r.geometry.isSome && (p.featureIds.isEmpty || p.featureIds.contains r.id)

/-- The rows of `_get_single_feature_geometry_sync`. -/
def ProcessJobPayload.featureRows (p : ProcessJobPayload D) (rows : CollectionId → List Row) :
    List Row :=
  match p.featureRef with
  | none => []
  | some (c, fid) => (rows c).filter fun r => r.id == fid && r.geometry.isSome

/-- The rows selected of each layer. -/
def ProcessJobPayload.inputs (p : ProcessJobPayload D) (rows : CollectionId → List Row) :
    List (List Row) :=
  p.layers.map fun c => p.selected (rows c)

/-- There is nothing to work on, given which layers are empty: an intersection has no pairs, and
the other processes of layers go through the first. To erase layers from a feature always leaves
something to write. -/
def ProcessJobPayload.idle (p : ProcessJobPayload D) (empty : List Bool) : Bool :=
  if p.isFeatureVsLayers then p.processId == PairOp.intersection.processId && empty.all id
  else if p.processId == PairOp.intersection.processId then empty.any id
  else empty.headD false

/-- The run may read rows that it has written: an erase reads its second layer again for each
batch of the first, and an intersection with a feature writes after each layer. -/
def ProcessJobPayload.Meets (p : ProcessJobPayload D) (rid : CollectionId)
    (layers : List (List Row)) : Prop :=
  if p.isFeatureVsLayers then
    p.processId = PairOp.intersection.processId ∧
      ∃ i j : Nat, i < j ∧ p.collectionIds[j]? = some rid ∧ ∃ rows ∈ layers[i]?, rows ≠ []
  else
    p.processId = PairOp.erase.processId ∧ p.collectionIdB = rid ∧
      ∃ rows ∈ layers.head?, 2 ≤ rows.length

/-! ## The worker -/

/-- The computations of the processes on the rows of the feature and of the layers. -/
structure Engine (D : Type) where
  /-- The feature of the job is empty or invalid. -/
  rejects : ProcessJobPayload D → List Row → Bool
  rejects_nil : ∀ p, p.featureRef.isSome = true → rejects p [] = true
  /-- The process as a function of the rows it is given. -/
  spec : ProcessJobPayload D → List Row → List (List Row) → List Row
  spec_idle : ∀ p feature layers, p.idle (layers.map List.isEmpty) = true →
    spec p feature layers = []
  /-- The rows that the run writes. Where it meets its own output, they need not be those of
  `spec`. -/
  exec : ProcessJobPayload D → (rid : CollectionId) → List Row → List (List Row) → List Row
  exec_idle : ∀ p rid feature layers, p.idle (layers.map List.isEmpty) = true →
    exec p rid feature layers = []
  exec_eq : ∀ p rid feature layers, ¬ p.Meets rid layers →
    exec p rid feature layers = spec p feature layers
  /-- `measure` changes the properties of the rows selected; its metric, unit and field are those
  of the request. -/
  measured : ProcessJobPayload D → List Row → List Row
  measured_idle : ∀ p rows, p.selected rows = [] → measured p rows = rows

variable (hash : Text → Text) (engine : Engine D)

/-- `process_process_job_sync`: the store and the rows written, `none` when it returns an error. -/
def runJob (p : ProcessJobPayload D) (s : Store) : Option (Store × List Row) :=
  let rid := resultId hash p
  let feature := p.featureRows s.rows
  if p.isFeatureVsLayers && engine.rejects p feature then none
  else if p.updateExisting && p.named && (s.attrs rid).isNone then none
  else if p.processId = measureId then
    let out := engine.measured p (s.rows rid)
    some (s.setRows rid out, out)
  else
    (if p.updateExisting then some s else s.ensure rid).map fun s' =>
      let cleared := s'.clear rid
      let out := engine.exec p rid feature (p.inputs cleared.rows)
      (cleared.setRows rid (cleared.rows rid ++ out), out)

/-- The job ends with an error before it changes a row. -/
def Fails (p : ProcessJobPayload D) (s : Store) : Prop :=
  (p.isFeatureVsLayers = true ∧ engine.rejects p (p.featureRows s.rows) = true) ∨
    (p.updateExisting = true ∧ p.named = true ∧ s.attrs (resultId hash p) = none) ∨
    (p.processId ≠ measureId ∧ p.updateExisting = false ∧ s.blocked (resultId hash p) = true)

/-- The rows written by a job that does not fail. -/
def Engine.output (p : ProcessJobPayload D) (s : Store) : List Row :=
  if p.processId = measureId then engine.measured p (s.rows (resultId hash p))
  else engine.exec p (resultId hash p) (p.featureRows s.rows)
    (p.inputs (s.clear (resultId hash p)).rows)

theorem runJob_fails {p : ProcessJobPayload D} {s : Store} (h : Fails hash engine p s) :
    runJob hash engine p s = none := by
  unfold runJob
  rcases h with ⟨hf, hr⟩ | ⟨hu, hr, hs⟩ | ⟨hm, hu, hb⟩
  · simp [hf, hr]
  · simp [hu, hr, hs]
  · simp [hm, hu, Store.ensure, hb]

/-- A job that does not fail writes its output to the result and changes no other rows. -/
theorem runJob_ok {p : ProcessJobPayload D} {s : Store} (h : ¬ Fails hash engine p s) :
    ∃ s', runJob hash engine p s = some (s', engine.output hash p s) ∧
      s'.rows = Function.update s.rows (resultId hash p)
        (if p.processId = measureId then engine.output hash p s
          else (s.clear (resultId hash p)).rows (resultId hash p) ++ engine.output hash p s) ∧
      s'.attrs = (if p.processId = measureId ∨ p.updateExisting = true then s.attrs
        else (s.register (resultId hash p)).attrs) := by
  unfold Fails at h
  push Not at h
  obtain ⟨hreject, htarget, hblocked⟩ := h
  have h1 : (p.isFeatureVsLayers && engine.rejects p (p.featureRows s.rows)) = false := by
    cases hf : p.isFeatureVsLayers with
    | false => rfl
    | true => simpa using hreject hf
  have h2 : (p.updateExisting && p.named && (s.attrs (resultId hash p)).isNone) = false := by
    cases hu : p.updateExisting with
    | false => rfl
    | true =>
      cases hr : p.named with
      | false => rfl
      | true => simpa [Option.isSome_iff_ne_none] using htarget hu hr
  unfold runJob Engine.output
  simp only [h1, h2, Bool.false_eq_true, if_false]
  by_cases hm : p.processId = measureId
  · simp only [hm, if_true, true_or]
    exact ⟨_, rfl, rfl, rfl⟩
  · simp only [hm, if_false, false_or]
    cases hu : p.updateExisting with
    | true =>
      refine ⟨_, rfl, ?_, ?_⟩
      · rw [Store.setRows_rows, Store.clear_rows]
        split <;> simp
      · simp
    | false =>
      have hb : s.blocked (resultId hash p) = false := by simpa using hblocked hm hu
      simp only [Bool.false_eq_true, if_false, Store.ensure, hb, Option.map_some]
      have hrows : ((s.register (resultId hash p)).clear (resultId hash p)).rows =
          (s.clear (resultId hash p)).rows := by
        simp [Store.clear_rows]
      refine ⟨_, by rw [hrows], ?_, ?_⟩
      · rw [Store.setRows_rows, Store.clear_rows]
        split <;> simp
      · simp

end Process
end Geofastmap
