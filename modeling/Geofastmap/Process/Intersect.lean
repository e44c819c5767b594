import Mathlib.Data.Finset.Lattice.Fold
import Mathlib.Data.Prod.Lex
import Mathlib.Data.List.Lex
import Mathlib.Order.Lattice
import Geofastmap.Composite.Export
import Geofastmap.Process.Batches

/-!
# Geofastmap.Process.Intersect

The intersection of two collections: PostgreSQL joins the parts of the features into pairs of ids,
the worker takes the pairs in chunks, fetches the features of a chunk and intersects each pair.
Geometries are the elements of a distributive lattice: `⊥` is the empty geometry, `⊓` the
intersection and `⊔` the union. A geometry operation may raise, and its pair is then left out.

`intersection_exact` : one row for each pair of features that meet, whatever the chunks and the
order of the pairs.
-/

namespace Geofastmap
namespace Process

open Composite Db Import

/-- Shapely and PostGIS as far as the intersection uses them; `none` raises. -/
structure Overlay (G : Type) [DistribLattice G] [OrderBot G] where
  /-- `_geom_to_shapely`. -/
  loads : Text → G
  /-- `dict(row.properties) if row.properties else {}`. -/
  props : Text → Props
  unaryUnion : List G → Option G
  unaryUnion_eq : ∀ gs g, unaryUnion gs = some g → g = gs.foldr (· ⊔ ·) ⊥
  intersects : G → G → Option Bool
  intersects_eq : ∀ a b r, intersects a b = some r → (r = true ↔ a ⊓ b ≠ ⊥)
  intersection : G → G → Option G
  intersection_eq : ∀ a b g, intersection a b = some g → g = a ⊓ b
  isValid : G → Bool
  /-- `ST_Intersects`. -/
  stIntersects : G → G → Bool
  stIntersects_eq : ∀ a b, stIntersects a b = true ↔ a ⊓ b ≠ ⊥

/-- The rows of a collection, with the primary key of `features`. -/
structure Layer where
  rows : List Row
  pk : (rows.map fun r => (r.id, r.partIndex)).Nodup

variable {G : Type} [DistribLattice G] [OrderBot G] [DecidableEq G] (O : Overlay G)

/-! ## Features -/

/-- A part that has a geometry which is not empty, with its properties. -/
def part (r : Row) : Option (G × Props) :=
  match r.geometry with
  | none => none
  | some wkb => if O.loads wkb = ⊥ then none else some (O.loads wkb, O.props r.properties)

/-- `ORDER BY id, part_index`; the order of the ids plays no part. -/
def byIdPart' (a b : Row) : Bool :=
  decide (toLex (a.id, a.partIndex) ≤ toLex (b.id, b.partIndex))

def fetchedRows (L : Layer) (ids : List Text) : List Row :=
  (L.rows.filter fun r => ids.contains r.id && r.geometry.isSome).mergeSort byIdPart'

/-- `by_id`, with no entries for an id that is not there. -/
def byId (rows : List Row) : Text → List (G × Props) :=
  rows.foldl (fun d r =>
    match part O r with
    | none => d
    | some x => fun i => if i = r.id then d i ++ [x] else d i) fun _ => []

def unionParts : List (G × Props) → Option (G × Props)
  | [] => none
  | (g, props) :: rest =>
    match O.unaryUnion (g :: rest.map Prod.fst) with
    | none => none
    | some u => if u = ⊥ then none else some (u, props)

/-- `_fetch_logical_features_by_ids`. -/
def fetchLogicalFeaturesByIds (L : Layer) (ids : List Text) (i : Text) : Option (G × Props) :=
  unionParts O (byId O (fetchedRows L ids) i)

/-! ## Pairs -/

/-- What `SELECT DISTINCT a.id, b.id` may return, in any order. -/
structure Joined (A B : Layer) (pairs : List (Text × Text)) : Prop where
  distinct : pairs.Nodup
  mem : ∀ i j, (i, j) ∈ pairs ↔ ∃ a ∈ A.rows, ∃ b ∈ B.rows, a.id = i ∧ b.id = j ∧
    ∃ wa ∈ a.geometry, ∃ wb ∈ b.geometry, O.stIntersects (O.loads wa) (O.loads wb) = true

/-- The loop of `_stream_intersection_pairs_chunks` with the chunk that is being filled. -/
def pairChunks (chunkSize : Nat) :
    List (Text × Text) → List (Text × Text) → List (List (Text × Text))
  | [], chunk => if chunk.isEmpty then [] else [chunk]
  | (i, j) :: rest, chunk =>
    if i ≠ [] ∧ j ≠ [] then
      if chunkSize ≤ chunk.length + 1 then (chunk ++ [(i, j)]) :: pairChunks chunkSize rest []
      else pairChunks chunkSize rest (chunk ++ [(i, j)])
    else pairChunks chunkSize rest chunk

def idAKey : Text := "_id_a".toList

def idBKey : Text := "_id_b".toList

/-- `{**props_a, **props_b, "_id_a": id_a, "_id_b": id_b}`. -/
def pairProps (propsA propsB : Props) (i j : Text) : Props :=
  setKey (setKey (propsB.foldl (fun d kv => setKey d kv.1 kv.2) propsA) idAKey (.str i)) idBKey
    (.str j)

/-- One turn of the loop of `_process_intersection_pairs_chunk`. -/
def pairRow (featuresA featuresB : Text → Option (G × Props)) (pair : Text × Text) :
    Option (G × Props) :=
  match featuresA pair.1, featuresB pair.2 with
  | some (a, propsA), some (b, propsB) =>
    match O.intersects a b, O.intersection a b with
    | some true, some inter =>
      if inter = ⊥ ∨ O.isValid inter = false then none
      else some (inter, pairProps propsA propsB pair.1 pair.2)
    | _, _ => none
  | _, _ => none

/-- `_process_intersection_pairs_chunk`. -/
def processIntersectionPairsChunk (A B : Layer) (pairs : List (Text × Text)) : List (G × Props) :=
  pairs.filterMap (pairRow O (fetchLogicalFeaturesByIds O A (pairs.map Prod.fst))
    (fetchLogicalFeaturesByIds O B (pairs.map Prod.snd)))

/-- The rows that the intersection branch of `process_process_job_sync` writes. -/
def intersectionRows (A B : Layer) (chunkSize : Nat) (pairs : List (Text × Text)) :
    List (G × Props) :=
  (pairChunks chunkSize pairs []).flatMap (processIntersectionPairsChunk O A B)

/-! ## What it is for -/

/-- The rows of a feature that have a geometry, part by part. -/
def partRows (L : Layer) (i : Text) : List Row :=
  (L.rows.filter fun r => r.id == i && r.geometry.isSome).mergeSort fun a b =>
    decide (a.partIndex ≤ b.partIndex)

/-- The logical feature of an id. -/
def logicalFeature (L : Layer) (i : Text) : Option (G × Props) :=
  unionParts O ((partRows L i).filterMap (part O))

/-- Everything that the parts of a feature cover. -/
def region (L : Layer) (i : Text) : G :=
  (((partRows L i).filterMap (part O)).map Prod.fst).foldr (· ⊔ ·) ⊥

/-! ## Chunks -/

/-- Both ids are there. -/
def named (pair : Text × Text) : Bool := !pair.1.isEmpty && !pair.2.isEmpty

theorem flatten_pairChunks (chunkSize : Nat) (pairs chunk : List (Text × Text)) :
    (pairChunks chunkSize pairs chunk).flatten = chunk ++ pairs.filter named := by
  induction pairs generalizing chunk with
  | nil =>
    cases chunk <;> simp [pairChunks]
  | cons pair pairs ih =>
    obtain ⟨i, j⟩ := pair
    unfold pairChunks
    by_cases h : i ≠ [] ∧ j ≠ []
    · have hnamed : named (i, j) = true := by simpa [named] using h
      rw [if_pos h, List.filter_cons_of_pos hnamed]
      split
      · rw [List.flatten_cons, ih]
        simp
      · rw [ih]
        simp
    · have hnamed : ¬ named (i, j) = true := by simpa [named] using h
      rw [if_neg h, ih, List.filter_cons_of_neg hnamed]

/-! ## Fetching a chunk is fetching the collection -/

theorem byId_eq (rows : List Row) (i : Text) :
    byId O rows i = (rows.filter (·.id == i)).filterMap (part O) := by
  have hfold : ∀ (rows : List Row) (d : Text → List (G × Props)),
      rows.foldl (fun d r =>
        match part O r with
        | none => d
        | some x => fun i => if i = r.id then d i ++ [x] else d i) d i =
        d i ++ (rows.filter (·.id == i)).filterMap (part O) := by
    intro rows
    induction rows with
    | nil => simp
    | cons r rows ih =>
      intro d
      rw [List.foldl_cons, ih]
      by_cases hid : r.id = i
      · subst hid
        rw [List.filter_cons_of_pos (by simp), List.filterMap_cons]
        cases hpart : part O r <;> simp
      · rw [List.filter_cons_of_neg (by simpa using hid)]
        cases hpart : part O r with
        | none => simp
        | some x => simp [Ne.symm hid]
  simpa [byId] using hfold rows fun _ => []

theorem byIdPart'_trans (a b c : Row) (hab : byIdPart' a b = true) (hbc : byIdPart' b c = true) :
    byIdPart' a c = true := by
  simp only [byIdPart', decide_eq_true_eq] at *
  exact hab.trans hbc

theorem byIdPart'_total (a b : Row) : (byIdPart' a b || byIdPart' b a) = true := by
  simp only [byIdPart', Bool.or_eq_true, decide_eq_true_eq]
  exact le_total _ _

/-- Two parts of one feature with the same index are one row. -/
theorem Layer.eq_of_part (L : Layer) {a b : Row} (ha : a ∈ L.rows) (hb : b ∈ L.rows)
    (hid : a.id = b.id) (hpart : a.partIndex = b.partIndex) : a = b :=
  List.inj_on_of_nodup_map L.pk ha hb (by simp [hid, hpart])

/-- The rows of a feature come in the order of its parts, whichever ids are fetched with it. -/
theorem filter_fetchedRows (L : Layer) {ids : List Text} {i : Text} (hi : i ∈ ids) :
    (fetchedRows L ids).filter (·.id == i) = partRows L i := by
  have hmem : ∀ {r : Row}, r ∈ partRows L i → r ∈ L.rows ∧ r.id = i := by
    intro r hr
    rw [partRows, List.mem_mergeSort, List.mem_filter] at hr
    simp only [Bool.and_eq_true, beq_iff_eq] at hr
    exact ⟨hr.1, hr.2.1⟩
  have hmem' : ∀ {r : Row}, r ∈ (fetchedRows L ids).filter (·.id == i) → r ∈ L.rows ∧ r.id = i := by
    intro r hr
    rw [List.mem_filter, fetchedRows, List.mem_mergeSort, List.mem_filter] at hr
    simp only [beq_iff_eq] at hr
    exact ⟨hr.1.1, hr.2⟩
  have hperm : ((fetchedRows L ids).filter (·.id == i)).Perm (partRows L i) := by
    refine ((List.mergeSort_perm _ _).filter _).trans (.trans ?_ (List.mergeSort_perm _ _).symm)
    rw [List.filter_filter]
    refine .of_eq (List.filter_congr fun r _ => ?_)
    by_cases hid : r.id = i
    · simp [hid, hi]
    · have hne : (r.id == i) = false := by simpa using hid
      simp [hne]
  have hsorted : ((fetchedRows L ids).filter (·.id == i)).Pairwise
      fun a b => a.partIndex ≤ b.partIndex := by
    have hpair := (List.pairwise_mergeSort byIdPart'_trans byIdPart'_total
      (L.rows.filter fun r => ids.contains r.id && r.geometry.isSome)).filter (·.id == i)
    refine hpair.imp_of_mem fun {a b} ha hb hab => ?_
    have hsame : a.id = b.id := (hmem' ha).2.trans (hmem' hb).2.symm
    rw [byIdPart', decide_eq_true_eq, Prod.Lex.toLex_le_toLex] at hab
    rcases hab with hlt | ⟨-, hle⟩
    · exact absurd hsame (ne_of_lt hlt)
    · exact hle
  have hsorted' : (partRows L i).Pairwise fun a b => a.partIndex ≤ b.partIndex := by
    have hpair := @List.pairwise_mergeSort Row (fun a b => decide (a.partIndex ≤ b.partIndex))
      (fun a b c hab hbc => by simp only [decide_eq_true_eq] at *; omega)
      (fun a b => by simp only [Bool.or_eq_true, decide_eq_true_eq]; omega)
      (L.rows.filter fun r => r.id == i && r.geometry.isSome)
    exact hpair.imp fun hab => of_decide_eq_true hab
  refine hperm.eq_of_pairwise (fun a b ha hb hab hba => ?_) hsorted hsorted'
  exact L.eq_of_part (hmem' ha).1 (hmem hb).1 ((hmem' ha).2.trans (hmem hb).2.symm)
    (Nat.le_antisymm hab hba)

theorem fetch_eq (L : Layer) {ids : List Text} {i : Text} (hi : i ∈ ids) :
    fetchLogicalFeaturesByIds O L ids i = logicalFeature O L i := by
  rw [fetchLogicalFeaturesByIds, byId_eq, filter_fetchedRows L hi, logicalFeature]

/-! ## The rows of the pairs -/

variable {O} {A B : Layer}

theorem pairRow_congr {fA fA' fB fB' : Text → Option (G × Props)} {pair : Text × Text}
    (hA : fA pair.1 = fA' pair.1) (hB : fB pair.2 = fB' pair.2) :
    pairRow O fA fB pair = pairRow O fA' fB' pair := by
  unfold pairRow
  rw [hA, hB]

/-- A chunk is handled as if the whole collections had been fetched. -/
theorem processIntersectionPairsChunk_eq (pairs : List (Text × Text)) :
    processIntersectionPairsChunk O A B pairs =
      pairs.filterMap (pairRow O (logicalFeature O A) (logicalFeature O B)) := by
  refine List.filterMap_congr fun pair hpair => ?_
  exact pairRow_congr (fetch_eq O A (List.mem_map_of_mem hpair))
    (fetch_eq O B (List.mem_map_of_mem hpair))

theorem intersectionRows_eq (chunkSize : Nat) (pairs : List (Text × Text)) :
    intersectionRows O A B chunkSize pairs =
      (pairs.filter named).filterMap (pairRow O (logicalFeature O A) (logicalFeature O B)) := by
  have hflat := flatten_pairChunks chunkSize pairs []
  rw [List.nil_append] at hflat
  rw [intersectionRows, ← hflat]
  generalize pairChunks chunkSize pairs [] = chunks
  induction chunks with
  | nil => rfl
  | cons chunk chunks ih =>
    rw [List.flatMap_cons, List.flatten_cons, List.filterMap_append, ih,
      processIntersectionPairsChunk_eq]

/-- The geometry of a logical feature is what its parts cover. -/
theorem logicalFeature_region {L : Layer} {i : Text} {g : G} {props : Props}
    (h : logicalFeature O L i = some (g, props)) : g = region O L i := by
  unfold logicalFeature at h
  unfold region
  cases hparts : (partRows L i).filterMap (part O) with
  | nil =>
    rw [hparts] at h
    cases h
  | cons x rest =>
    rw [hparts] at h
    simp only [unionParts] at h
    split at h
    · cases h
    · rename_i u hu
      split at h
      · cases h
      · cases h
        exact O.unaryUnion_eq _ _ hu

/-- Unions meet only where two of their members meet. -/
theorem exists_meet {gs hs : List G} (h : gs.foldr (· ⊔ ·) ⊥ ⊓ hs.foldr (· ⊔ ·) ⊥ ≠ ⊥) :
    ∃ g ∈ gs, ∃ k ∈ hs, g ⊓ k ≠ ⊥ := by
  by_contra hnone
  push Not at hnone
  refine h ?_
  have hright : ∀ g ∈ gs, ∀ ks : List G, (∀ k ∈ ks, g ⊓ k = ⊥) → g ⊓ ks.foldr (· ⊔ ·) ⊥ = ⊥ := by
    intro g _ ks hks
    induction ks with
    | nil => simp
    | cons k ks ih =>
      rw [List.foldr_cons, inf_sup_left, hks k List.mem_cons_self,
        ih fun k' hk' => hks k' (List.mem_cons_of_mem k hk'), sup_idem]
  have hleft : ∀ ks : List G, ks ⊆ gs → ks.foldr (· ⊔ ·) ⊥ ⊓ hs.foldr (· ⊔ ·) ⊥ = ⊥ := by
    intro ks hks
    induction ks with
    | nil => simp
    | cons k ks ih =>
      rw [List.foldr_cons, inf_sup_right, ih fun x hx => hks (List.mem_cons_of_mem k hx),
        hright k (hks List.mem_cons_self) hs (hnone k (hks List.mem_cons_self)), sup_idem]
  exact hleft gs fun _ hx => hx

theorem mem_region_parts {L : Layer} {i : Text} {g : G}
    (h : g ∈ ((partRows L i).filterMap (part O)).map Prod.fst) :
    ∃ r ∈ L.rows, r.id = i ∧ ∃ wkb ∈ r.geometry, O.loads wkb = g := by
  obtain ⟨x, hx, rfl⟩ := List.mem_map.mp h
  obtain ⟨r, hr, hpart⟩ := List.mem_filterMap.mp hx
  rw [partRows, List.mem_mergeSort, List.mem_filter] at hr
  simp only [Bool.and_eq_true, beq_iff_eq] at hr
  refine ⟨r, hr.1, hr.2.1, ?_⟩
  unfold part at hpart
  split at hpart
  · cases hpart
  · rename_i wkb hwkb
    split at hpart
    · cases hpart
    · cases hpart
      exact ⟨wkb, hwkb, rfl⟩

/-- Features that meet are joined. -/
theorem mem_pairs_of_meet {pairs : List (Text × Text)} (h : Joined O A B pairs) {i j : Text}
    (hmeet : region O A i ⊓ region O B j ≠ ⊥) : (i, j) ∈ pairs := by
  obtain ⟨g, hg, k, hk, hgk⟩ := exists_meet hmeet
  obtain ⟨a, ha, hai, wa, hwa, rfl⟩ := mem_region_parts hg
  obtain ⟨b, hb, hbj, wb, hwb, rfl⟩ := mem_region_parts hk
  exact (h.mem i j).mpr ⟨a, ha, b, hb, hai, hbj, wa, hwa, wb, hwb, (O.stIntersects_eq _ _).mpr hgk⟩

variable (O A B) in
/-- The row of two features that meet, unless an operation on them raises or what they share is not
valid. -/
structure PairRow (i j : Text) (row : G × Props) : Prop where
  meet : region O A i ⊓ region O B j ≠ ⊥
  geometry : row.1 = region O A i ⊓ region O B j
  valid : O.isValid row.1 = true
  runs : O.intersects (region O A i) (region O B j) = some true ∧
    O.intersection (region O A i) (region O B j) = some row.1
  props : ∃ propsA propsB, logicalFeature O A i = some (region O A i, propsA) ∧
    logicalFeature O B j = some (region O B j, propsB) ∧ row.2 = pairProps propsA propsB i j

theorem pairRow_eq_some {i j : Text} {row : G × Props} :
    pairRow O (logicalFeature O A) (logicalFeature O B) (i, j) = some row ↔
      PairRow O A B i j row := by
  constructor
  · intro h
    unfold pairRow at h
    split at h
    · rename_i a propsA b propsB hA hB
      have ha := logicalFeature_region hA
      have hb := logicalFeature_region hB
      subst ha hb
      split at h
      · rename_i inter hintersects hinter
        split at h
        · cases h
        · rename_i hok
          cases h
          rw [not_or, Bool.not_eq_false] at hok
          exact ⟨(O.intersects_eq _ _ _ hintersects).mp rfl, O.intersection_eq _ _ _ hinter, hok.2,
            ⟨hintersects, hinter⟩, propsA, propsB, hA, hB, rfl⟩
      · cases h
    · cases h
  · rintro ⟨hmeet, hgeometry, hvalid, ⟨hintersects, hinter⟩, propsA, propsB, hA, hB, hprops⟩
    obtain ⟨g, props⟩ := row
    dsimp only at hgeometry hvalid hinter hprops
    have hok : ¬ (g = ⊥ ∨ O.isValid g = false) := by
      rw [not_or, Bool.not_eq_false]
      exact ⟨hgeometry ▸ hmeet, hvalid⟩
    simp only [pairRow, hA, hB, hintersects, hinter, if_neg hok, hprops]

variable (O A B) in
/-- The pairs that become rows, with their rows. -/
def hits (pairs : List (Text × Text)) : List ((Text × Text) × (G × Props)) :=
  (pairs.filter named).filterMap fun pair =>
    (pairRow O (logicalFeature O A) (logicalFeature O B) pair).map (pair, ·)

theorem map_snd_hits (pairs : List (Text × Text)) (chunkSize : Nat) :
    intersectionRows O A B chunkSize pairs = (hits O A B pairs).map Prod.snd := by
  rw [intersectionRows_eq, hits, List.map_filterMap]
  refine List.filterMap_congr fun pair _ => ?_
  cases pairRow O (logicalFeature O A) (logicalFeature O B) pair <;> rfl

theorem nodup_hits {pairs : List (Text × Text)} (h : pairs.Nodup) :
    ((hits O A B pairs).map Prod.fst).Nodup := by
  refine (h.filter named).sublist ?_
  unfold hits
  generalize pairs.filter named = ps
  induction ps with
  | nil => exact .slnil
  | cons p ps ih =>
    rw [List.filterMap_cons]
    cases pairRow O (logicalFeature O A) (logicalFeature O B) p with
    | none => exact ih.cons p
    | some row => exact ih.cons_cons p

theorem mem_hits {pairs : List (Text × Text)} (h : Joined O A B pairs) {i j : Text}
    {row : G × Props} :
    ((i, j), row) ∈ hits O A B pairs ↔ i ≠ [] ∧ j ≠ [] ∧ PairRow O A B i j row := by
  unfold hits
  rw [List.mem_filterMap]
  constructor
  · rintro ⟨pair, hpair, hrow⟩
    obtain ⟨row', hrow', heq⟩ := Option.map_eq_some_iff.mp hrow
    cases heq
    have hnamed := (List.mem_filter.mp hpair).2
    simp only [named, Bool.and_eq_true, Bool.not_eq_true', List.isEmpty_eq_false_iff] at hnamed
    exact ⟨hnamed.1, hnamed.2, pairRow_eq_some.mp hrow'⟩
  · rintro ⟨hi, hj, hrow⟩
    refine ⟨(i, j), List.mem_filter.mpr ⟨mem_pairs_of_meet h hrow.meet, ?_⟩, ?_⟩
    · simpa [named] using ⟨hi, hj⟩
    · rw [pairRow_eq_some.mpr hrow]
      rfl

/-- Whatever the size of the chunks and the order in which the pairs come: there is one row for each
two features that meet and whose operations do not raise, and no other row; its geometry is what the
two features share. -/
theorem intersection_exact {pairs : List (Text × Text)} (h : Joined O A B pairs) (chunkSize : Nat) :
    (∃ rows : List ((Text × Text) × (G × Props)),
      intersectionRows O A B chunkSize pairs = rows.map Prod.snd ∧ (rows.map Prod.fst).Nodup ∧
      ∀ i j row, ((i, j), row) ∈ rows ↔ i ≠ [] ∧ j ≠ [] ∧ PairRow O A B i j row) ∧
      ∀ pairs' chunkSize', Joined O A B pairs' →
        (intersectionRows O A B chunkSize' pairs').Perm (intersectionRows O A B chunkSize pairs) := by
  refine ⟨⟨hits O A B pairs, map_snd_hits pairs chunkSize, nodup_hits h.distinct,
    fun i j row => mem_hits h⟩, fun pairs' chunkSize' h' => ?_⟩
  have hperm : pairs'.Perm pairs := by
    rw [List.perm_ext_iff_of_nodup h'.distinct h.distinct]
    rintro ⟨i, j⟩
    rw [h'.mem, h.mem]
  rw [intersectionRows_eq, intersectionRows_eq]
  exact (hperm.filter named).filterMap _

/-- Geometries as sets of characters. -/
def letters : Overlay (Finset Char) where
  loads w := w.toFinset
  props _ := []
  unaryUnion gs := some (gs.foldr (· ⊔ ·) ⊥)
  unaryUnion_eq _ _ h := (Option.some.inj h).symm
  intersects a b := some (decide (a ⊓ b ≠ ⊥))
  intersects_eq a b r h := by rw [← Option.some.inj h, decide_eq_true_eq]
  intersection a b := some (a ⊓ b)
  intersection_eq _ _ _ h := (Option.some.inj h).symm
  isValid _ := true
  stIntersects a b := decide (a ⊓ b ≠ ⊥)
  stIntersects_eq a b := decide_eq_true_iff

def oneRow (id wkb : Text) : Layer := ⟨[⟨id, [], 0, some wkb, [], none, 0, 0⟩], by simp⟩

theorem joined_oneRow :
    Joined letters (oneRow ['a'] ['x', 'y']) (oneRow ['b'] ['y', 'z']) [(['a'], ['b'])] where
  distinct := by decide
  mem i j := by
    have hmeet : (['x', 'y'].toFinset ⊓ ['y', 'z'].toFinset : Finset Char) ≠ ⊥ := by decide
    constructor
    · intro h
      cases List.mem_singleton.mp h
      exact ⟨_, List.mem_cons_self, _, List.mem_cons_self, rfl, rfl, _, rfl, _, rfl,
        decide_eq_true hmeet⟩
    · rintro ⟨a, ha, b, hb, rfl, rfl, -⟩
      cases List.mem_singleton.mp ha
      cases List.mem_singleton.mp hb
      exact List.mem_cons_self

theorem intersection_exact_oneRow :
    (intersectionRows letters (oneRow ['a'] ['x', 'y']) (oneRow ['b'] ['y', 'z']) 400
      [(['a'], ['b'])]).Perm
    (intersectionRows letters (oneRow ['a'] ['x', 'y']) (oneRow ['b'] ['y', 'z']) 1
      [(['a'], ['b'])]) :=
  (intersection_exact joined_oneRow 1).2 _ 400 joined_oneRow

end Process
end Geofastmap
