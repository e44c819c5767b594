import Geofastmap.Items.Export

/-!
# Geofastmap.Composite.Items

Items of a composite collection: the ids `member:feature` under which the features of the members
are addressed.

- `compositeMemberIds` reads the stored list of members.
- `parse_format_iff` says which pairs the decoder gives back.
- `addressable_iff` is the exact condition under which every feature of every member is found
  under its composite id.
-/

namespace Geofastmap
namespace Composite

open Db Items

/-- A fixed database: rows, cached counts and the jobs whose rows are hidden. -/
structure Database where
  rows : CollectionId → List Row
  keyed : ∀ c, ((rows c).map fun r => (r.id, r.partIndex)).Nodup
  /-- `feature_count` of a collection that exists. -/
  featureCount : CollectionId → Option Nat
  /-- `active_shadow_exclude_job_ids`. -/
  shadowJobs : CollectionId → List Text

/-- `COMPOSITE_ITEM_SEP`. -/
def compositeItemSep : Char := ':'

def formatCompositeItemId (member feature : Text) : Text := member ++ compositeItemSep :: feature

/-- The text before the first separator and the text after it. -/
def parseCompositeItemId (item : Text) : Option (Text × Text) :=
  if item.contains compositeItemSep then
    let member := item.takeWhile (· != compositeItemSep)
    let feature := (item.dropWhile (· != compositeItemSep)).drop 1
    if member.isEmpty || feature.isEmpty then none else some (member, feature)
  else none

/-- `member_collection_ids(parse_composite_members(raw))`, where `raw` lists the values under
`collection_id`. -/
def compositeMemberIds (raw : List Text) : List CollectionId :=
  (raw.map strip).filter fun m => !m.isEmpty

def getFeature (db : Database) (c : CollectionId) (fid : Text) : Option Feature :=
  logicalFeature true ((visibleRows (db.shadowJobs c) (db.rows c)).filter (·.id == fid))

def getCompositeFeature (db : Database) (members : List CollectionId) (item : Text) :
    Option (CollectionId × Feature) :=
  match parseCompositeItemId item with
  | some (mid, fid) => if members.contains mid then (getFeature db mid fid).map (mid, ·) else none
  | none => members.findSome? fun mid => (getFeature db mid item).map (mid, ·)

/-! ## The decoder -/

theorem takeWhile_append_sep {m f : Text} (h : compositeItemSep ∉ m) :
    (m ++ compositeItemSep :: f).takeWhile (· != compositeItemSep) = m := by
  rw [List.takeWhile_append_of_pos (by intro ch hch; simpa using ne_of_mem_of_not_mem hch h)]
  simp

theorem dropWhile_append_sep {m f : Text} (h : compositeItemSep ∉ m) :
    (m ++ compositeItemSep :: f).dropWhile (· != compositeItemSep) = compositeItemSep :: f := by
  rw [List.dropWhile_append_of_pos (by intro ch hch; simpa using ne_of_mem_of_not_mem hch h)]
  simp

/-- The decoder inverts the encoder on members without the separator. -/
theorem parse_format_iff (m f : Text) :
    parseCompositeItemId (formatCompositeItemId m f) = some (m, f) ↔
      m ≠ [] ∧ compositeItemSep ∉ m ∧ f ≠ [] := by
  have hsep : (formatCompositeItemId m f).contains compositeItemSep = true := by
    simp [formatCompositeItemId]
  constructor
  · intro h
    simp only [parseCompositeItemId, hsep, if_true] at h
    split at h
    · cases h
    · rename_i hne
      rw [Option.some.injEq, Prod.mk.injEq] at h
      have hm : compositeItemSep ∉ m := by
        rw [← h.1]
        intro hmem
        simpa using List.mem_takeWhile_imp hmem
      rw [h.1, h.2] at hne
      simp only [Bool.or_eq_true, List.isEmpty_iff, not_or] at hne
      exact ⟨hne.1, hm, hne.2⟩
  · rintro ⟨hm, hs, hf⟩
    simp only [parseCompositeItemId, hsep, if_true]
    simp [formatCompositeItemId, takeWhile_append_sep hs, dropWhile_append_sep hs, hm, hf]

/-! ## Addressing -/

/-- Every feature of every member is found under its composite id, the decoder gives back the
pair, and different pairs have different ids. -/
structure Addressable (db : Database) (members : List CollectionId) : Prop where
  found : ∀ m ∈ members, ∀ f, getFeature db m f.id = some f →
    getCompositeFeature db members (formatCompositeItemId m f.id) = some (m, f)
  inverse : ∀ m ∈ members, ∀ f, getFeature db m f.id = some f →
    parseCompositeItemId (formatCompositeItemId m f.id) = some (m, f.id)
  distinct : ∀ m ∈ members, ∀ f, getFeature db m f.id = some f →
    ∀ m' ∈ members, ∀ f', getFeature db m' f'.id = some f' →
      formatCompositeItemId m f.id = formatCompositeItemId m' f'.id → m = m' ∧ f = f'

theorem ne_nil_of_mem_compositeMemberIds {raw : List Text} {m : CollectionId}
    (h : m ∈ compositeMemberIds raw) : m ≠ [] := by
  simpa using (List.mem_filter.mp h).2

/-- Every feature is addressable exactly when no member that has a feature has the separator in
its id, and no feature has the empty id. -/
theorem addressable_iff (db : Database) (raw : List Text) :
    Addressable db (compositeMemberIds raw) ↔
      ∀ m ∈ compositeMemberIds raw, ∀ f, getFeature db m f.id = some f →
        compositeItemSep ∉ m ∧ f.id ≠ [] := by
  constructor
  · intro h m hm f hf
    exact ((parse_format_iff m f.id).mp (h.inverse m hm f hf)).2
  · intro h
    have hparse : ∀ m ∈ compositeMemberIds raw, ∀ f, getFeature db m f.id = some f →
        parseCompositeItemId (formatCompositeItemId m f.id) = some (m, f.id) := by
      intro m hm f hf
      obtain ⟨hs, hne⟩ := h m hm f hf
      exact (parse_format_iff m f.id).mpr ⟨ne_nil_of_mem_compositeMemberIds hm, hs, hne⟩
    refine ⟨fun m hm f hf => ?_, hparse, fun m hm f hf m' hm' f' hf' he => ?_⟩
    · simp [getCompositeFeature, hparse m hm f hf, hm, hf]
    · have hpair := hparse m hm f hf
      rw [he, hparse m' hm' f' hf'] at hpair
      obtain ⟨rfl, hid⟩ : m' = m ∧ f'.id = f.id := by simpa using hpair
      rw [hid, hf] at hf'
      exact ⟨rfl, Option.some.inj hf'⟩

/-- A collection with one feature. -/
def oneFeature (m : CollectionId) : Database where
  rows c := if c = m then [sampleRow 'c' 5] else []
  keyed c := by split <;> decide
  featureCount _ := some 1
  shadowJobs _ := []

def sampleFeature : Feature where
  id := ['c']
  collectionId := ['r']
  properties := "null".toList
  createdAt := 5
  updatedAt := 5
  geometry := none
  bbox := none

theorem getFeature_oneFeature (m : CollectionId) :
    getFeature (oneFeature m) m ['c'] = some sampleFeature := by
  have hrows : (visibleRows ((oneFeature m).shadowJobs m) ((oneFeature m).rows m)).filter
      (·.id == ['c']) = [sampleRow 'c' 5] := by simp [oneFeature, visibleRows, sampleRow]
  rw [getFeature, hrows]
  simp only [logicalFeature, List.mergeSort_singleton]
  decide

/-- The id `a:b:c` is read as feature `b:c` of a collection `a`. -/
theorem colon_member_not_found :
    ¬ Addressable (oneFeature "a:b".toList) (compositeMemberIds ["a:b".toList]) ∧
      getCompositeFeature (oneFeature "a:b".toList) (compositeMemberIds ["a:b".toList])
        (formatCompositeItemId "a:b".toList ['c']) = none := by
  have hget : getCompositeFeature (oneFeature "a:b".toList) (compositeMemberIds ["a:b".toList])
      (formatCompositeItemId "a:b".toList ['c']) = none := by decide
  refine ⟨fun h => ?_, hget⟩
  have hfound := h.found "a:b".toList (by decide) sampleFeature (getFeature_oneFeature _)
  rw [show sampleFeature.id = ['c'] from rfl, hget] at hfound
  cases hfound

end Composite
end Geofastmap
