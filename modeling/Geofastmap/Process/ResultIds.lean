import Mathlib.Data.Char
import Mathlib.Data.List.Lex
import Mathlib.Data.List.Sort
import Geofastmap.Import.Json

/-!
# Geofastmap.Process.ResultIds

The collection into which a process writes its result. A request names it, or the worker derives
it from the process and a hash of the ids of the inputs.

`separates_iff` is the exact condition under which two requests with different results get
different collections: the ids of their inputs, sorted, joined by `|` and read back as pieces
between the bars, must differ.
-/

namespace Geofastmap
namespace Process

open Import

/-! ## Requests -/

inductive PairOp where
  | intersection | erase
deriving DecidableEq, Repr

/-- The single-layer tools; `measure` updates its layer in place. -/
inductive LayerOp (D : Type) where
  | buffer (distanceDegrees : D)
  | explode
  | makeValid
  | union (groupByProperty : Option Text)
deriving DecidableEq

def PairOp.processId : PairOp → Text
  | .intersection => "intersection".toList
  | .erase => "erase".toList

def LayerOp.processId {D : Type} : LayerOp D → Text
  | .buffer _ => "buffer".toList
  | .explode => "explode".toList
  | .makeValid => "make_valid".toList
  | .union _ => "union".toList

/-- A feature by reference, or a document that is not empty. -/
inductive FeatureSource where
  | reference (collectionId featureId : Text)
  | geojson (doc : Json) (truthy : doc.truthy = true)

/-- What the routes accept. -/
inductive Request (D : Type) where
  | pair (op : PairOp) (collectionIdA collectionIdB : Text)
  | layer (op : LayerOp D) (collectionId : Text) (featureIds : List Text)
  | feature (op : PairOp) (source : FeatureSource) (collectionIds : List Text)
      (nonempty : collectionIds ≠ [])

structure ProcessJobPayload (D : Type) where
  processId : Text
  collectionIdA : Text
  collectionIdB : Text
  featureRef : Option (Text × Text)
  featureGeojson : Option Json
  collectionIds : List Text
  featureIds : List Text
  bufferDistanceDegrees : Option D
  groupByProperty : Option Text
  resultCollectionId : Option Text
  updateExisting : Bool

variable {D : Type}

def ProcessJobPayload.isFeatureVsLayers (p : ProcessJobPayload D) : Bool :=
  !p.collectionIds.isEmpty && (p.featureRef.isSome || (p.featureGeojson.map Json.truthy).getD false)

/-- The payload of a request without an explicit result. -/
def Request.payload : Request D → ProcessJobPayload D
  | .pair op a b => ⟨op.processId, a, b, none, none, [], [], none, none, none, false⟩
  | .layer op c ids =>
    { processId := op.processId
      collectionIdA := c
      collectionIdB := c
      featureRef := none
      featureGeojson := none
      collectionIds := []
      featureIds := ids
      bufferDistanceDegrees := match op with
        | .buffer d => some d
        | _ => none
      groupByProperty := match op with
        | .union group => group.filter fun g => !g.isEmpty
        | _ => none
      resultCollectionId := none
      updateExisting := false }
  | .feature op (.reference c f) layers _ =>
    ⟨op.processId, [], [], some (c, f), none, layers, [], none, none, none, false⟩
  | .feature op (.geojson doc _) layers _ =>
    ⟨op.processId, [], [], none, some doc, layers, [], none, none, none, false⟩

/-! ## Ids -/

/-- `sorted(texts)`. -/
def sortedTexts (texts : List Text) : List Text := texts.mergeSort fun a b => decide (a ≤ b)

/-- `"|".join(texts)`. -/
def joinBars (texts : List Text) : Text := ['|'].intercalate texts

def maxResultCollectionIdLen : Nat := 60

/-- `s.strip("_")`. -/
def stripUnderscores (s : Text) : Text :=
  ((s.dropWhile (· == '_')).reverse.dropWhile (· == '_')).reverse

/-- `_sanitize_result_collection_id`. -/
def sanitizeResultCollectionId (raw : Text) : Text :=
  let kept := stripUnderscores (raw.map fun ch =>
    if ('a' ≤ ch ∧ ch ≤ 'z') ∨ ('A' ≤ ch ∧ ch ≤ 'Z') ∨ ('0' ≤ ch ∧ ch ≤ '9') ∨ ch = '_' ∨ ch = '-'
    then ch else '_')
  (if kept.isEmpty then "result".toList else kept).take maxResultCollectionIdLen

-- `_hash_for_result`, the first twelve hexadecimal digits of SHA-256
variable (hash : Text → Text)

/-- `_default_result_collection_id`. -/
def defaultResultCollectionId (processId a b : Text) : Text :=
  (processId ++ '_' :: hash (joinBars (sortedTexts [a, b]))).take maxResultCollectionIdLen

/-- `_default_result_collection_id_feature`. -/
def defaultResultCollectionIdFeature (processId featureId : Text) (collectionIds : List Text) :
    Text :=
  (processId ++ '_' :: hash (featureId ++ '|' :: joinBars (sortedTexts collectionIds))).take
    maxResultCollectionIdLen

/-- The `result_id` of `process_process_job_sync`. -/
def resultId (p : ProcessJobPayload D) : Text :=
  match p.resultCollectionId with
  | some (ch :: explicit) =>
    if p.updateExisting then ch :: explicit else sanitizeResultCollectionId (ch :: explicit)
  | _ =>
    if p.isFeatureVsLayers then
      defaultResultCollectionIdFeature hash p.processId
        ((p.featureRef.map Prod.snd).getD "geojson".toList) p.collectionIds
    else defaultResultCollectionId hash p.processId p.collectionIdA p.collectionIdB

theorem take_ne_nil {s : Text} (hs : s ≠ []) {n : Nat} (hn : n ≠ 0) : s.take n ≠ [] := by
  simp [hs, hn]

theorem sanitizeResultCollectionId_ne_nil (raw : Text) : sanitizeResultCollectionId raw ≠ [] := by
  unfold sanitizeResultCollectionId
  apply take_ne_nil _ (by decide)
  split
  · decide
  next h => simpa using h

theorem resultId_ne_nil (p : ProcessJobPayload D) : resultId hash p ≠ [] := by
  unfold resultId
  split
  · split
    · simp
    · exact sanitizeResultCollectionId_ne_nil _
  · split
    · exact take_ne_nil (by simp) (by decide)
    · exact take_ne_nil (by simp) (by decide)

/-! ## What a result depends on -/

/-- Two jobs read the same: the order of the layers does not matter, and of the feature ids only
the set. The collections keep their roles, since the rows hold `_id_a` and `_id_b`. -/
structure SameInputs (p q : ProcessJobPayload D) : Prop where
  processId : p.processId = q.processId
  collectionIdA : p.collectionIdA = q.collectionIdA
  collectionIdB : p.collectionIdB = q.collectionIdB
  featureRef : p.featureRef = q.featureRef
  featureGeojson : p.featureGeojson = q.featureGeojson
  collectionIds : p.collectionIds.Perm q.collectionIds
  featureIds : ∀ id, id ∈ p.featureIds ↔ id ∈ q.featureIds
  bufferDistanceDegrees : p.bufferDistanceDegrees = q.bufferDistanceDegrees
  groupByProperty : p.groupByProperty = q.groupByProperty

/-- Requests with different results get different collections. -/
def Separates (r r' : Request D) : Prop :=
  ¬ SameInputs r.payload r'.payload → resultId hash r.payload ≠ resultId hash r'.payload

/-! ## Pieces between bars -/

/-- `s.split("|")`. -/
def splitBars : Text → List Text
  | [] => [[]]
  | ch :: s =>
    if ch = '|' then [] :: splitBars s
    else
      match splitBars s with
      | [] => [[ch]]
      | piece :: pieces => (ch :: piece) :: pieces

theorem splitBars_ne_nil (s : Text) : splitBars s ≠ [] := by
  induction s with
  | nil => simp [splitBars]
  | cons ch s ih =>
    unfold splitBars
    split
    · simp
    · split <;> simp

theorem splitBars_append (a b : Text) :
    splitBars (a ++ '|' :: b) = splitBars a ++ splitBars b := by
  induction a with
  | nil => simp [splitBars]
  | cons ch a ih =>
    rw [List.cons_append, splitBars, splitBars, ih]
    split
    · rfl
    · rcases h : splitBars a with _ | ⟨piece, pieces⟩
      · exact absurd h (splitBars_ne_nil a)
      · rfl

theorem joinBars_splitBars (s : Text) : joinBars (splitBars s) = s := by
  induction s with
  | nil => rfl
  | cons ch s ih =>
    unfold splitBars
    rcases h : splitBars s with _ | ⟨piece, pieces⟩
    · exact absurd h (splitBars_ne_nil s)
    · rw [h] at ih
      by_cases hbar : ch = '|'
      · rw [if_pos hbar, joinBars, List.intercalate_cons_cons, ← joinBars, ih, hbar]
        rfl
      · rw [if_neg hbar]
        cases pieces with
        | nil =>
          simp only [joinBars, List.intercalate_singleton] at ih ⊢
          rw [ih]
        | cons next rest =>
          simp only [joinBars, List.intercalate_cons_cons, List.cons_append] at ih ⊢
          rw [ih]

theorem splitBars_injective : Function.Injective splitBars :=
  Function.LeftInverse.injective joinBars_splitBars

theorem splitBars_joinBars (texts : List Text) (h : texts ≠ []) :
    splitBars (joinBars texts) = texts.flatMap splitBars := by
  induction texts with
  | nil => exact absurd rfl h
  | cons text texts ih =>
    cases texts with
    | nil => simp [joinBars]
    | cons next rest =>
      rw [joinBars, List.intercalate_cons_cons, List.append_assoc, List.singleton_append,
        splitBars_append, ← joinBars, ih (by simp)]
      simp only [List.flatMap_cons]

/-! ## The text that is hashed -/

def Request.processId : Request D → Text
  | .pair op _ _ => op.processId
  | .layer op _ _ => op.processId
  | .feature op _ _ _ => op.processId

/-- What stands for the feature: its id, or the word `geojson`. -/
def FeatureSource.name : FeatureSource → Text
  | .reference _ featureId => featureId
  | .geojson _ _ => "geojson".toList

/-- The ids that are joined. -/
def Request.names : Request D → List Text
  | .pair _ a b => sortedTexts [a, b]
  | .layer _ c _ => [c, c]
  | .feature _ source layers _ => source.name :: sortedTexts layers

/-- The ids, cut at the bars that they contain. -/
def Request.pieces (r : Request D) : List Text := r.names.flatMap splitBars

theorem sortedTexts_self (c : Text) : sortedTexts [c, c] = [c, c] := by
  have hperm : (sortedTexts [c, c]).Perm (List.replicate 2 c) := List.mergeSort_perm [c, c] _
  exact List.perm_replicate.mp hperm

theorem sortedTexts_pairwise (texts : List Text) : (sortedTexts texts).Pairwise (· ≤ ·) := by
  have hsorted : (sortedTexts texts).Pairwise fun a b => decide (a ≤ b) = true :=
    List.pairwise_mergeSort (fun a b c => by simpa using le_trans)
      (fun a b => by simpa using le_total a b) texts
  exact hsorted.imp fun h => of_decide_eq_true h

theorem sortedTexts_pair {a b : Text} (h : a ≤ b) : sortedTexts [a, b] = [a, b] :=
  List.mergeSort_of_pairwise (by simpa using h)

theorem sortedTexts_ne_nil {texts : List Text} (h : texts ≠ []) : sortedTexts texts ≠ [] := by
  intro hnil
  have hlen : (sortedTexts texts).length = texts.length := List.length_mergeSort _
  rw [hnil] at hlen
  exact h (List.length_eq_zero_iff.mp hlen.symm)

theorem names_ne_nil (r : Request D) : r.names ≠ [] := by
  cases r with
  | pair op a b => exact sortedTexts_ne_nil (by simp)
  | layer op c ids => simp [Request.names]
  | feature op source layers h => simp [Request.names]

theorem joinBars_cons (text : Text) {texts : List Text} (h : texts ≠ []) :
    joinBars (text :: texts) = text ++ '|' :: joinBars texts := by
  cases texts with
  | nil => exact absurd rfl h
  | cons next rest => simp [joinBars, List.intercalate_cons_cons]

theorem isFeatureVsLayers_feature (op : PairOp) (source : FeatureSource) (layers : List Text)
    (h : layers ≠ []) :
    (Request.feature (D := D) op source layers h).payload.isFeatureVsLayers = true := by
  have hlayers : layers.isEmpty = false := by simpa using h
  cases source with
  | reference c f => simp [Request.payload, ProcessJobPayload.isFeatureVsLayers, hlayers]
  | geojson doc truthy =>
    simp [Request.payload, ProcessJobPayload.isFeatureVsLayers, hlayers, truthy]

theorem resultId_payload (r : Request D) :
    resultId hash r.payload =
      (r.processId ++ '_' :: hash (joinBars r.names)).take maxResultCollectionIdLen := by
  cases r with
  | pair op a b => rfl
  | layer op c ids =>
    change (op.processId ++ '_' :: hash (joinBars (sortedTexts [c, c]))).take _ = _
    rw [sortedTexts_self]
    rfl
  | feature op source layers h =>
    have hjoin := joinBars_cons source.name (sortedTexts_ne_nil h)
    rw [Request.names, hjoin]
    have hkind := isFeatureVsLayers_feature (D := D) op source layers h
    cases source with
    | reference c f => exact if_pos hkind
    | geojson doc truthy => exact if_pos hkind

theorem names_eq_iff (r r' : Request D) :
    joinBars r.names = joinBars r'.names ↔ r.pieces = r'.pieces := by
  rw [← splitBars_injective.eq_iff, splitBars_joinBars _ (names_ne_nil r),
    splitBars_joinBars _ (names_ne_nil r')]
  rfl

theorem PairOp.length_processId (op : PairOp) : op.processId.length ≤ 12 := by
  cases op <;> decide

theorem LayerOp.length_processId (op : LayerOp D) : op.processId.length ≤ 12 := by
  cases op <;> exact Nat.le_of_ble_eq_true rfl

theorem length_processId (r : Request D) : r.processId.length ≤ 12 := by
  cases r with
  | pair op a b => exact op.length_processId
  | layer op c ids => exact op.length_processId
  | feature op source layers h => exact op.length_processId

/-! ## Collisions -/

/-- The roles of the collections are not part of the id. -/
theorem resultId_swap (op : PairOp) (a b : Text) :
    resultId hash (Request.pair (D := D) op a b).payload =
      resultId hash (Request.pair (D := D) op b a).payload := by
  have hsort : sortedTexts [a, b] = sortedTexts [b, a] := by
    have hperm : (sortedTexts [a, b]).Perm (sortedTexts [b, a]) :=
      (List.mergeSort_perm _ _).trans ((List.Perm.swap b a []).trans
        (List.mergeSort_perm _ _).symm)
    refine List.Perm.eq_of_pairwise ?_ (sortedTexts_pairwise _) (sortedTexts_pairwise _) hperm
    intro x y _ _ hxy hyx
    exact le_antisymm hxy hyx
  rw [resultId_payload, resultId_payload, Request.names, Request.names, hsort]
  rfl

/-- Neither the feature ids nor a distance or a property to group by is part of the id. -/
theorem resultId_layer {op op' : LayerOp D} (h : op.processId = op'.processId) (c : Text)
    (ids ids' : List Text) :
    resultId hash (Request.layer op c ids).payload =
      resultId hash (Request.layer op' c ids').payload := by
  rw [resultId_payload, resultId_payload]
  simp [Request.processId, Request.names, h]

theorem separates_iff (hlen : ∀ s, (hash s).length = 12) (r r' : Request D)
    (hinj : hash (joinBars r.names) = hash (joinBars r'.names) →
      joinBars r.names = joinBars r'.names) :
    Separates hash r r' ↔
      SameInputs r.payload r'.payload ∨ r.processId ≠ r'.processId ∨ r.pieces ≠ r'.pieces := by
  have hshort : ∀ q : Request D, (q.processId ++ '_' :: hash (joinBars q.names)).take
      maxResultCollectionIdLen = q.processId ++ '_' :: hash (joinBars q.names) := by
    intro q
    apply List.take_of_length_le
    have := length_processId q
    simp only [List.length_append, List.length_cons, hlen, maxResultCollectionIdLen]
    omega
  have hid : resultId hash r.payload = resultId hash r'.payload ↔
      r.processId = r'.processId ∧ r.pieces = r'.pieces := by
    rw [resultId_payload, resultId_payload, hshort, hshort, ← names_eq_iff]
    constructor
    · intro h
      obtain ⟨hp, hrest⟩ := List.append_inj' h (by simp [hlen])
      exact ⟨hp, hinj (List.cons.inj hrest).2⟩
    · rintro ⟨hp, hn⟩
      rw [hp, hn]
  unfold Separates
  rw [ne_eq, hid]
  tauto

/-! ## Some requests -/

/-- The digests of two texts, and zeros. -/
def sampleHash (s : Text) : Text :=
  if s = "a|b".toList then "0eab8a0a3380".toList
  else if s = "a|c".toList then "8b2fc3e128be".toList
  else List.replicate 12 '0'

theorem length_sampleHash (s : Text) : (sampleHash s).length = 12 := by
  unfold sampleHash
  split
  · rfl
  · split <;> rfl

theorem names_ab : (Request.pair (D := Nat) .intersection "a".toList "b".toList).names =
    ["a".toList, "b".toList] := sortedTexts_pair (by decide)

theorem names_ac : (Request.pair (D := Nat) .intersection "a".toList "c".toList).names =
    ["a".toList, "c".toList] := sortedTexts_pair (by decide)

/-- Two intersections of `a` keep apart. -/
theorem separates_intersections :
    Separates (D := Nat) sampleHash (.pair .intersection "a".toList "b".toList)
      (.pair .intersection "a".toList "c".toList) :=
  (separates_iff sampleHash length_sampleHash (.pair .intersection "a".toList "b".toList)
    (.pair .intersection "a".toList "c".toList) (by rw [names_ab, names_ac]; decide)).mpr
    (Or.inr (Or.inr (by rw [Request.pieces, Request.pieces, names_ab, names_ac]; decide)))

/-- `a` minus `b` and `b` minus `a` go to one collection, and so do the buffers of a layer. -/
theorem erase_roles_collide :
    ¬ Separates (D := Nat) sampleHash (.pair .erase "a".toList "b".toList)
        (.pair .erase "b".toList "a".toList) ∧
      ¬ Separates (D := Nat) sampleHash (.layer (.buffer 1) "a".toList [])
        (.layer (.buffer 2) "a".toList []) := by
  constructor
  · intro h
    apply h
    · intro hsame
      exact absurd hsame.collectionIdA (by decide)
    · exact resultId_swap sampleHash .erase _ _
  · intro h
    apply h
    · intro hsame
      exact absurd hsame.bufferDistanceDegrees (by decide)
    · exact resultId_layer sampleHash rfl _ [] []

end Process
end Geofastmap
