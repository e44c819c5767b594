import Mathlib.Data.Prod.Lex
import Geofastmap.Items.Pages
import Geofastmap.Paging.Keyset

/-!
# Geofastmap.Items.Export

`stream_features_geojsonl`: the rows of a collection for the GeoJSONL export, fetched by keyset
pagination. Without a bounding box the stream is one element for each matching row; with one it is
one element for each id that has a matching row, built from all parts of the id.

`export_complete_iff` says when the stream is complete, whatever PostgreSQL chooses.
-/

namespace Geofastmap
namespace Items

open Db Import

/-- The keyword arguments of `stream_features_geojsonl`. -/
structure Export (N : Type) where
  bbox : Option (Bbox N)
  datetimeStart : Option Nat
  datetimeEnd : Option Nat
  propertyFilters : List (Text × Text)
  structuredFilters : List PropertyFilter
  fulltextQ : Option Text
  batchSize : Int

/-- An element of the stream. -/
structure Exported where
  id : Text
  geometry : Option (List Text)
  properties : Text
deriving DecidableEq, Repr

variable {κ N : Type} [LinearOrder κ] [LinearOrder N] (pg : Pg κ N)

def Export.clauses (x : Export N) : List (Clause N) :=
  (x.bbox.map Clause.bbox).toList ++ (x.datetimeStart.map Clause.createdFrom).toList ++
    (x.datetimeEnd.map Clause.createdTo).toList ++
    (x.propertyFilters.map fun kv => Clause.property kv.1 kv.2) ++
    x.structuredFilters.map Clause.structured ++
    ((nonBlank x.fulltextQ).map fun s => Clause.fulltext ('%' :: escapeLike s ++ ['%'])).toList

/-- `max(1, min(batch_size, 2000))`. -/
def Export.batch (x : Export N) : Nat := (max 1 (min x.batchSize 2000)).toNat

/-- `(id, part_index)` of the first row comes before that of the second. -/
def partLt (a b : Row) : Bool :=
  pg.collate a.id < pg.collate b.id || (b.id == a.id && a.partIndex < b.partIndex)

/-- `ORDER BY id, part_index`. -/
def sortParts (rows : List Row) : List Row := rows.mergeSort fun a b => !partLt pg b a

/-- `ORDER BY id`. -/
def sortIds (ids : List Text) : List Text := ids.mergeSort fun a b => pg.collate a ≤ pg.collate b

def idLt (a b : Text) : Bool := pg.collate a < pg.collate b

/-- The statement of the loop over rows. -/
def fetchRows (ch : Nat → Choice N) (rows : List Row) (x : Export N) (k : Nat) (last : Option Row) :
    Except PgError (List Row) :=
  let cursor := (last.map fun r => Clause.afterPart r.id r.partIndex).toList
  match scan pg (ch k) (x.clauses ++ cursor) rows with
  | .error e => .error e
  | .ok rs => .ok ((sortParts pg rs).take x.batch)

/-- The first statement of the loop over ids. -/
def fetchIds (ch : Nat → Choice N) (rows : List Row) (x : Export N) (k : Nat) (last : Option Text) :
    Except PgError (List Text) :=
  let cursor := (last.map Clause.after).toList
  match scan pg (ch k) (x.clauses ++ cursor) rows with
  | .error e => .error e
  | .ok rs => .ok ((sortIds pg (rs.map Row.id).dedup).take x.batch)

def exportRow (r : Row) : Exported := ⟨r.id, r.geometry.map ([·]), r.properties⟩

def exportFeature (f : Feature) : Exported := ⟨f.id, f.geometry, f.properties⟩

/-- The parts of a batch of ids, grouped. -/
def exportBatch (rows : List Row) (ids : List Text) : List Exported :=
  let parts := rows.filter fun r => ids.contains r.id
  ids.filterMap fun i => (logicalFeature true (parts.filter (·.id == i))).map exportFeature

/-- `stream_features_geojsonl`, with at most `fuel` statements of its loop. -/
def streamFeaturesGeojsonl (ch : Nat → Choice N) (rows : List Row) (x : Export N) (fuel : Nat) :
    List Exported × Paging.Ending PgError :=
  match x.bbox with
  | some _ =>
    let (batches, ending) := Paging.drain (fetchIds pg ch rows x) fuel 0 none
    (batches.flatMap (exportBatch rows), ending)
  | none =>
    let (batches, ending) := Paging.drain (fetchRows pg ch rows x) fuel 0 none
    (batches.flatten.map exportRow, ending)

/-! ## The order of rows and of ids -/

section Order

omit [LinearOrder N]

/-- The key of a row inside its collection. -/
def partKey (r : Row) : κ ×ₗ Nat := toLex (pg.collate r.id, r.partIndex)

theorem partLt_iff {a b : Row} : partLt pg a b = true ↔ partKey pg a < partKey pg b := by
  simp only [partLt, partKey, Prod.Lex.toLex_lt_toLex, Bool.or_eq_true, Bool.and_eq_true,
    decide_eq_true_eq, beq_iff_eq, pg.collate_injective.eq_iff, eq_comm (a := b.id)]

omit [LinearOrder κ] in
theorem partKey_eq_iff {a b : Row} :
    partKey pg a = partKey pg b ↔ (a.id, a.partIndex) = (b.id, b.partIndex) := by
  simp [partKey, pg.collate_injective.eq_iff]

theorem partLt_irrefl (a : Row) : partLt pg a a = false := by simp [partLt]

theorem partLt_trans (a b c : Row) (hab : partLt pg a b = true) (hbc : partLt pg b c = true) :
    partLt pg a c = true := by
  rw [partLt_iff] at *
  exact hab.trans hbc

theorem sortParts_perm (rows : List Row) : (sortParts pg rows).Perm rows := List.mergeSort_perm _ _

/-- Rows of different keys are sorted strictly. -/
theorem sortParts_pairwise {rows : List Row}
    (hk : (rows.map fun r => (r.id, r.partIndex)).Nodup) :
    (sortParts pg rows).Pairwise fun a b => partLt pg a b = true := by
  have hle : ∀ {a b : Row}, (!partLt pg b a) = true ↔ partKey pg a ≤ partKey pg b := by
    intro a b
    rw [Bool.not_eq_true', ← Bool.not_eq_true, partLt_iff, not_lt]
  have hsorted : (sortParts pg rows).Pairwise fun a b => (!partLt pg b a) = true := by
    refine List.pairwise_mergeSort ?_ ?_ rows
    · intro a b c hab hbc
      rw [hle] at *
      exact hab.trans hbc
    · intro a b
      rw [Bool.or_eq_true, hle, hle]
      exact le_total _ _
  have hne : (sortParts pg rows).Pairwise fun a b => partKey pg a ≠ partKey pg b := by
    have hk' := ((sortParts_perm pg rows).map fun r => (r.id, r.partIndex)).nodup_iff.mpr hk
    refine (List.pairwise_map.mp hk').imp ?_
    intro a b h he
    exact h ((partKey_eq_iff pg).mp he)
  refine hsorted.imp₂ ?_ hne
  intro a b h1 h2
  exact (partLt_iff pg).mpr (lt_of_le_of_ne (hle.mp h1) h2)

theorem sortIds_pairwise {ids : List Text} (hnd : ids.Nodup) :
    (sortIds pg ids).Pairwise fun a b => idLt pg a b = true := by
  have hsorted : (sortIds pg ids).Pairwise fun a b => decide (pg.collate a ≤ pg.collate b) = true :=
    List.pairwise_mergeSort (fun a b c => by simpa using le_trans)
      (fun a b => by simpa using le_total _ _) ids
  have hne : (sortIds pg ids).Nodup := (List.mergeSort_perm _ _).nodup_iff.mpr hnd
  refine hsorted.imp₂ ?_ hne
  intro a b h1 h2
  simp only [idLt, decide_eq_true_eq] at h1 ⊢
  exact lt_of_le_of_ne h1 fun he => h2 (pg.collate_injective he)

theorem idLt_irrefl (a : Text) : idLt pg a a = false := by simp [idLt]

theorem idLt_trans (a b c : Text) (hab : idLt pg a b = true) (hbc : idLt pg b c = true) :
    idLt pg a c = true := by
  simp only [idLt, decide_eq_true_eq] at *
  exact hab.trans hbc

theorem mem_sortIds {ids : List Text} {i : Text} : i ∈ sortIds pg ids ↔ i ∈ ids :=
  (List.mergeSort_perm _ _).mem_iff

theorem sortIds_filter (ids : List Text) (c : Text) :
    sortIds pg (ids.filter (idLt pg c)).dedup = (sortIds pg ids.dedup).filter (idLt pg c) := by
  have h1 := sortIds_pairwise pg (List.nodup_dedup (ids.filter (idLt pg c)))
  have h2 := (sortIds_pairwise pg (List.nodup_dedup ids)).sublist
    (List.filter_sublist (p := idLt pg c))
  refine Paging.eq_of_sorted (idLt_irrefl pg) (idLt_trans pg) h1 h2 ?_
  have hnodup : ∀ {l : List Text}, l.Pairwise (fun a b => idLt pg a b = true) → l.Nodup := by
    intro l hl
    refine hl.imp fun hab he => ?_
    subst he
    simp [idLt_irrefl] at hab
  refine (List.perm_ext_iff_of_nodup (hnodup h1) (hnodup h2)).mpr fun i => ?_
  simp [mem_sortIds]

end Order

/-! ## What the statements return -/

theorem matching_append (cs ds : List (Clause N)) (rows : List Row) :
    matching pg (cs ++ ds) rows = (matching pg cs rows).filter fun r => ds.all (·.holds pg r) := by
  simp only [matching, List.filter_filter, List.all_append]
  refine List.filter_congr fun r _ => ?_
  exact Bool.and_comm _ _

theorem safe_cursor {cs : List (Clause N)} {rows : List Row} (h : Safe pg cs rows)
    (ds : List (Clause N)) (hb : bindable ds = true) (hd : ∀ r, ∀ c ∈ ds, c.raises pg r = false) :
    Safe pg (cs ++ ds) rows := by
  refine ⟨by rw [bindable, List.all_append, Bool.and_eq_true]; exact ⟨h.1, hb⟩, fun r hr c hc => ?_⟩
  rcases List.mem_append.mp hc with hc | hc
  · exact h.2 r hr c hc
  · exact hd r c hc

theorem nodup_keys_matching (cs : List (Clause N)) {rows : List Row}
    (hk : (rows.map fun r => (r.id, r.partIndex)).Nodup) :
    ((matching pg cs rows).map fun r => (r.id, r.partIndex)).Nodup :=
  hk.sublist (List.filter_sublist.map _)

/-- The statement over rows returns the first matches after the cursor. -/
theorem fetchRows_eq (ch : Nat → Choice N) {rows : List Row} {x : Export N}
    (hk : (rows.map fun r => (r.id, r.partIndex)).Nodup) (hsafe : Safe pg x.clauses rows)
    (k : Nat) (last : Option Row) :
    fetchRows pg ch rows x k last = .ok ((Paging.after (partLt pg) last
      (sortParts pg (matching pg x.clauses rows))).take x.batch) := by
  have hkm := nodup_keys_matching pg x.clauses hk
  cases last with
  | none => simp [fetchRows, scan_ok pg (ch k) hsafe, Paging.after]
  | some c =>
    have hs := safe_cursor pg hsafe [.afterPart c.id c.partIndex] rfl fun r d hd => by
      obtain rfl : d = .afterPart c.id c.partIndex := by simpa using hd
      rfl
    have hm : matching pg (x.clauses ++ [.afterPart c.id c.partIndex]) rows =
        (matching pg x.clauses rows).filter (partLt pg c) := by
      rw [matching_append]
      refine List.filter_congr fun r _ => ?_
      simp [Clause.holds, Clause.eval, partLt]
    have hsort : sortParts pg ((matching pg x.clauses rows).filter (partLt pg c)) =
        (sortParts pg (matching pg x.clauses rows)).filter (partLt pg c) := by
      refine Paging.eq_of_sorted (partLt_irrefl pg) (partLt_trans pg)
        (sortParts_pairwise pg (hkm.sublist (List.filter_sublist.map _)))
        ((sortParts_pairwise pg hkm).sublist List.filter_sublist) ?_
      exact (sortParts_perm pg _).trans ((sortParts_perm pg _).filter _).symm
    simp only [fetchRows, Option.map_some, Option.toList_some, scan_ok pg (ch k) hs, hm, hsort,
      Paging.after]

/-- The statement over ids returns the first matching ids after the cursor. -/
theorem fetchIds_eq (ch : Nat → Choice N) {rows : List Row} {x : Export N}
    (hsafe : Safe pg x.clauses rows) (k : Nat) (last : Option Text) :
    fetchIds pg ch rows x k last = .ok ((Paging.after (idLt pg) last
      (sortIds pg ((matching pg x.clauses rows).map Row.id).dedup)).take x.batch) := by
  cases last with
  | none => simp [fetchIds, scan_ok pg (ch k) hsafe, Paging.after]
  | some c =>
    have hs := safe_cursor pg hsafe [.after c] rfl fun r d hd => by
      obtain rfl : d = .after c := by simpa using hd
      rfl
    have hm : (matching pg (x.clauses ++ [.after c]) rows).map Row.id =
        ((matching pg x.clauses rows).map Row.id).filter (idLt pg c) := by
      rw [matching_append, List.filter_map]
      congr 1
      refine List.filter_congr fun r _ => ?_
      simp [Clause.holds, Clause.eval, idLt]
    simp only [fetchIds, Option.map_some, Option.toList_some, scan_ok pg (ch k) hs, hm,
      sortIds_filter, Paging.after]

/-! ## The whole stream -/

/-- Whatever PostgreSQL chooses, the stream ends. Without a bounding box it holds every matching
row once, in increasing `(id, part_index)` order; with one, an element for each id that has a
matching row, in increasing order and built from all rows of the id. -/
def ExportComplete (rows : List Row) (x : Export N) : Prop :=
  ∀ ch : Nat → Choice N, ∃ bound, ∀ fuel, bound ≤ fuel → ∃ out,
    streamFeaturesGeojsonl pg ch rows x fuel = (out, .done) ∧
      match x.bbox with
      | none => ∃ rs : List Row, out = rs.map exportRow ∧ rs.Perm (matching pg x.clauses rows) ∧
          rs.Pairwise fun a b => partLt pg a b = true
      | some _ => ∃ ids : List Text, ids.Pairwise (fun a b => idLt pg a b = true) ∧
          (∀ i, i ∈ ids ↔ ∃ r ∈ matching pg x.clauses rows, r.id = i) ∧
          out.map some = ids.map fun i =>
            (logicalFeature true (rows.filter (·.id == i))).map exportFeature

omit [LinearOrder κ] [LinearOrder N] in
theorem batch_pos (x : Export N) : 0 < x.batch := by
  unfold Export.batch
  omega

omit [LinearOrder κ] [LinearOrder N] in
/-- A batch of ids yields one element for each id that has a row. -/
theorem map_some_exportBatch {rows : List Row} {ids : List Text}
    (h : ∀ i ∈ ids, ∃ r ∈ rows, r.id = i) :
    (exportBatch rows ids).map some = ids.map fun i =>
      (logicalFeature true (rows.filter (·.id == i))).map exportFeature := by
  have hparts : ∀ i ∈ ids, (rows.filter fun r => ids.contains r.id).filter (·.id == i) =
      rows.filter (·.id == i) := by
    intro i hi
    rw [List.filter_filter]
    refine List.filter_congr fun r _ => ?_
    by_cases hr : r.id = i
    · simp [hr, hi]
    · simp [hr]
  have hone : ∀ i ∈ ids, ∃ f, logicalFeature true (rows.filter (·.id == i)) = some f := by
    intro i hi
    obtain ⟨r, hr, he⟩ := h i hi
    have hne : rows.filter (·.id == i) ≠ [] := List.ne_nil_of_mem (a := r) (by simp [hr, he])
    have hid : ∀ r' ∈ rows.filter (·.id == i), r'.id = i := fun r' hr' => by
      simpa using (List.mem_filter.mp hr').2
    obtain ⟨f, hf, -⟩ := logicalFeature_some (b := true) hne hid
    exact ⟨f, hf⟩
  unfold exportBatch
  rw [List.filterMap_congr (g := fun i =>
    (logicalFeature true (rows.filter (·.id == i))).map exportFeature) fun i hi => by rw [hparts i hi]]
  clear hparts h
  induction ids with
  | nil => rfl
  | cons i ids ih =>
    obtain ⟨f, hf⟩ := hone i (by simp)
    have ih := ih fun i' hi' => hone i' (by simp [hi'])
    simp [hf, ih]

omit [LinearOrder κ] [LinearOrder N] in
theorem map_some_exportBatches {rows : List Row} {batches : List (List Text)}
    (h : ∀ i ∈ batches.flatten, ∃ r ∈ rows, r.id = i) :
    (batches.flatMap (exportBatch rows)).map some = batches.flatten.map fun i =>
      (logicalFeature true (rows.filter (·.id == i))).map exportFeature := by
  rw [List.map_flatMap, List.map_flatten, ← List.flatMap_def]
  refine List.flatMap_congr fun ids hids => ?_
  exact map_some_exportBatch fun i hi => h i (List.mem_flatten.mpr ⟨ids, hids, hi⟩)

/-- A conjunct that raises on a row may end the first statement. -/
theorem stream_hasty {rows : List Row} {x : Export N} (hsafe : ¬ Safe pg x.clauses rows)
    (fuel : Nat) :
    ∃ e, streamFeaturesGeojsonl pg (fun _ => .hasty pg) rows x (fuel + 1) = ([], .raised e) := by
  obtain ⟨e, he⟩ := scan_hasty pg hsafe
  cases hbox : x.bbox with
  | none => exact ⟨e, by simp [streamFeaturesGeojsonl, hbox, Paging.drain, fetchRows, he]⟩
  | some b => exact ⟨e, by simp [streamFeaturesGeojsonl, hbox, Paging.drain, fetchIds, he]⟩

theorem safe_of_exportComplete {rows : List Row} {x : Export N} (h : ExportComplete pg rows x) :
    Safe pg x.clauses rows := by
  by_contra hsafe
  obtain ⟨bound, hb⟩ := h fun _ => .hasty pg
  obtain ⟨out, hout, -⟩ := hb (bound + 1) (by omega)
  obtain ⟨e, he⟩ := stream_hasty pg hsafe bound
  simp [he] at hout

theorem exportComplete_of_safe {rows : List Row} {x : Export N}
    (hk : (rows.map fun r => (r.id, r.partIndex)).Nodup) (hsafe : Safe pg x.clauses rows) :
    ExportComplete pg rows x := by
  intro ch
  cases hbox : x.bbox with
  | none =>
    have hsorted := sortParts_pairwise pg (nodup_keys_matching pg x.clauses hk)
    refine ⟨(sortParts pg (matching pg x.clauses rows)).length + 1, fun fuel hf => ?_⟩
    obtain ⟨batches, hd, hflat⟩ := Paging.drain_sorted (partLt_irrefl pg) (partLt_trans pg)
      hsorted (batch_pos x) (fetchRows pg ch rows x)
      (fun k last _ => fetchRows_eq pg ch hk hsafe k last) (show _ < fuel by omega)
    refine ⟨batches.flatten.map exportRow, ?_, batches.flatten, rfl, ?_, ?_⟩
    · simp only [streamFeaturesGeojsonl, hbox, hd]
    · rw [hflat]
      exact sortParts_perm pg _
    · rw [hflat]
      exact hsorted
  | some b =>
    have hsorted := sortIds_pairwise pg
      (List.nodup_dedup ((matching pg x.clauses rows).map Row.id))
    refine ⟨(sortIds pg ((matching pg x.clauses rows).map Row.id).dedup).length + 1,
      fun fuel hf => ?_⟩
    obtain ⟨batches, hd, hflat⟩ := Paging.drain_sorted (idLt_irrefl pg) (idLt_trans pg)
      hsorted (batch_pos x) (fetchIds pg ch rows x)
      (fun k last _ => fetchIds_eq pg ch hsafe k last) (show _ < fuel by omega)
    have hmem : ∀ i, i ∈ batches.flatten ↔ ∃ r ∈ matching pg x.clauses rows, r.id = i := by
      intro i
      rw [hflat, mem_sortIds, List.mem_dedup, List.mem_map]
    refine ⟨batches.flatMap (exportBatch rows), ?_, batches.flatten, hflat ▸ hsorted, hmem, ?_⟩
    · simp only [streamFeaturesGeojsonl, hbox, hd]
    · refine map_some_exportBatches fun i hi => ?_
      obtain ⟨r, hr, he⟩ := (hmem i).mp hi
      exact ⟨r, (List.mem_filter.mp hr).1, he⟩

/-- The stream is complete exactly when no text of a filter has NUL and no conjunct raises on a row of
the collection. -/
theorem export_complete_iff (rows : List Row) (x : Export N)
    (hk : (rows.map fun r => (r.id, r.partIndex)).Nodup) :
    ExportComplete pg rows x ↔ Safe pg x.clauses rows :=
  ⟨safe_of_exportComplete pg, exportComplete_of_safe pg hk⟩

/-- A complete stream is empty only where no row matches. -/
theorem stream_nil_iff {rows : List Row} {x : Export N} (h : ExportComplete pg rows x)
    (ch : Nat → Choice N) :
    ∃ bound, ∀ fuel, bound ≤ fuel → ∃ out, streamFeaturesGeojsonl pg ch rows x fuel = (out, .done) ∧
      (out = [] ↔ matching pg x.clauses rows = []) := by
  obtain ⟨bound, hb⟩ := h ch
  refine ⟨bound, fun fuel hf => ?_⟩
  obtain ⟨out, hout, hspec⟩ := hb fuel hf
  refine ⟨out, hout, ?_⟩
  cases hbox : x.bbox with
  | none =>
    rw [hbox] at hspec
    obtain ⟨rs, rfl, hperm, -⟩ := hspec
    rw [List.map_eq_nil_iff]
    exact ⟨fun h => (h ▸ hperm).symm.eq_nil, fun h => (h ▸ hperm).eq_nil⟩
  | some b =>
    rw [hbox] at hspec
    obtain ⟨ids, -, hmem, hmap⟩ := hspec
    have hids : out = [] ↔ ids = [] := by
      rw [← List.map_eq_nil_iff (f := some), hmap, List.map_eq_nil_iff]
    rw [hids, List.eq_nil_iff_forall_not_mem, List.eq_nil_iff_forall_not_mem]
    constructor
    · intro h r hr
      exact h r.id ((hmem r.id).mpr ⟨r, hr, rfl⟩)
    · intro h i hi
      obtain ⟨r, hr, -⟩ := (hmem i).mp hi
      exact h r hr

/-- `filter=height:gt:10`. -/
def tallerThanTen : Export Nat where
  bbox := none
  datetimeStart := none
  datetimeEnd := none
  propertyFilters := []
  structuredFilters := [⟨"height".toList, .gt, "10".toList⟩]
  fulltextQ := none
  batchSize := 2000

def tallRow : Row := { sampleRow 'a' 5 with properties := tallText }

/-- The stored height of the feature is a word, and the comparison casts it to a number. -/
theorem word_height_ends_export :
    ¬ ExportComplete samplePg [tallRow] tallerThanTen := by
  intro h
  have hsafe := safe_of_exportComplete samplePg h
  have hraise := hsafe.2 tallRow (by simp) (.structured ⟨"height".toList, .gt, "10".toList⟩)
    (by simp [tallerThanTen, Export.clauses, nonBlank])
  revert hraise
  decide

theorem plain_export_complete :
    (([sampleRow 'a' 5, sampleRow 'b' 6]).map fun r => (r.id, r.partIndex)).Nodup ∧
      ExportComplete samplePg [sampleRow 'a' 5, sampleRow 'b' 6] tallerThanTen := by
  refine ⟨by decide, (export_complete_iff samplePg _ _ (by decide)).mpr ⟨by decide, ?_⟩⟩
  intro r hr c hc
  obtain rfl : c = .structured ⟨"height".toList, .gt, "10".toList⟩ := by
    simpa [tallerThanTen, Export.clauses, nonBlank] using hc
  revert r
  decide

end Items
end Geofastmap
