import Geofastmap.Cache.Keys

/-!
# Geofastmap.Cache.Invalidate

Feature writes of `app/crud/features.py` and what they leave in the caches. Each write commits its
rows and then calls `invalidate_collection_cache`, which sweeps the keys of three caches by the
pattern `<head><collection id>:*`.

* `get_invalidate` : a key is gone exactly when its cache is swept and the pattern of the
  collection matches it.
* `invalidation_exact_iff` : a write clears its own collection and no other one exactly when no
  items list of the collection is stored and the pattern tells the stored keys apart.
* `tellsApart_of_plain` : ids without a colon and without special characters are told apart.
-/

namespace Geofastmap
namespace Cache

open Redis

/-! ## Feature writes -/

/-- A row of `features`: one part of a feature. -/
structure Part where
  collection : Text
  id : Text
  bulkImportJobId : Option Text
  body : Text
deriving DecidableEq

/-- The committed rows, the running shadow imports of a collection, and the caches. -/
structure World where
  parts : List Part
  shadowJobs : Text → List Text
  keys : Store

/-- The rows that `get_feature` sees of a feature. -/
def World.getFeature (s : World) (c fid : Text) : List Part :=
  s.parts.filter fun p => p.collection == c && p.id == fid &&
    p.bulkImportJobId.all (· ∉ s.shadowJobs c)

/-- A write of one feature. The new content is the bodies of its parts, or `none` where the write
is refused before anything is committed (too large a geometry, a raster path outside the store);
a patch computes it from the feature it finds. -/
inductive FeatureWrite where
  | create (c fid : Text) (content : Option (List Text))
  | replace (c fid : Text) (content : Option (List Text))
  | update (c fid : Text) (content : List Part → Option (List Text))
  | delete (c fid : Text)

namespace FeatureWrite

def collection : FeatureWrite → Text
  | create c .. => c
  | replace c .. => c
  | update c .. => c
  | delete c _ => c

/-- The rows that a write commits, if it commits. -/
def commits : FeatureWrite → World → Option (List Part)
  | create c fid content, s =>
    content.map fun bodies => s.parts ++ bodies.map (Part.mk c fid none)
  | replace c fid content, s =>
    if (s.getFeature c fid).isEmpty then none
    else content.map fun bodies => without s c fid ++ bodies.map (Part.mk c fid none)
  | update c fid content, s =>
    if (s.getFeature c fid).isEmpty then none
    else (content (s.getFeature c fid)).map fun bodies =>
      without s c fid ++ bodies.map (Part.mk c fid none)
  | delete c fid, s => if without s c fid = s.parts then none else some (without s c fid)
where
  /-- The rows after `DELETE ... WHERE collection_id = :cid AND id = :fid`. -/
  without (s : World) (c fid : Text) : List Part :=
    s.parts.filter fun p => !(p.collection == c && p.id == fid)

/-- A write that commits invalidates the caches of its collection afterwards. -/
def run (w : FeatureWrite) (s : World) : Option World :=
  (w.commits s).map fun parts =>
    { s with parts, keys := invalidateCollectionCache w.collection s.keys }

end FeatureWrite

/-! ## What an invalidation removes -/

/-- Whether the cache of a key is among the swept ones. -/
def Key.swept : Key → Bool
  | .items .. => false
  | _ => true

/-- Whether the pattern of collection `c` matches the key, its head apart. -/
def matchedBy (c : Text) (k : Key) : Bool := glob (c ++ [':', '*']) k.tail

theorem glob_head_pattern {h : Text} (hh : Plain h) (c : Text) {k : Key} (hk : h = k.head) :
    glob (h ++ (c ++ [':', '*'])) k.text = matchedBy c k := by
  subst hk
  rw [Key.text_eq, glob_append hh]
  rfl

theorem glob_head_other {k k' : Key} (c : Text) (hk : k'.head ≠ k.head) :
    glob (k'.head ++ (c ++ [':', '*'])) k.text = false := by
  rw [Key.text_eq]
  exact glob_other (plain_head k') (head_apart hk) (head_apart (Ne.symm hk)) _ _

theorem patterns_match (c : Text) (k : Key) :
    (patterns c).any (glob · k.text) = (k.swept && matchedBy c k) := by
  have htile := @glob_head_other k (.tile [] 0 0 0) c
  have hparams := @glob_head_other k (.tileParams [] 0 0 0 ⟨[], by simp⟩) c
  have hsearch := @glob_head_other k (.search [] ⟨[], by simp⟩) c
  have hown := @glob_head_pattern k.head (plain_head k) c k rfl
  cases k
  all_goals
    simp only [Key.head] at htile hparams hsearch hown
    simp only [patterns, List.any_cons, List.any_nil, Bool.or_false, Key.swept, Bool.true_and,
      Bool.false_and]
  · rw [hown, hparams (by decide), hsearch (by decide)]; simp
  · rw [hown, htile (by decide), hsearch (by decide)]; simp
  · rw [hown, htile (by decide), hparams (by decide)]; simp
  · rw [htile (by decide), hparams (by decide), hsearch (by decide)]; simp

theorem get_foldl_sweep (ps : List Text) (ks : Store) (key : Text) :
    (ps.foldl Keyspace.sweep ks).get key =
      if ps.any (glob · key) then none else ks.get key := by
  induction ps generalizing ks with
  | nil => simp
  | cons p ps ih =>
    rw [List.foldl_cons, ih, Keyspace.get_sweep, List.any_cons]
    cases glob p key <;> simp

theorem get_invalidate (c : Text) (ks : Store) (k : Key) :
    (invalidateCollectionCache c ks).get k.text =
      if k.swept && matchedBy c k then none else ks.get k.text := by
  unfold invalidateCollectionCache
  rw [get_foldl_sweep, patterns_match]

/-! ## Completeness and confinement -/

/-- No read for the collection returns anything. -/
def Complete (cfg : Settings) (c : Text) (ks : Store) : Prop :=
  ∀ k : Key, k.collection = c → read cfg ks k = none

/-- Every key of another collection is as it was. -/
def Confined (c : Text) (ks ks' : Store) : Prop :=
  ∀ k : Key, k.collection ≠ c → ks'.get k.text = ks.get k.text

/-- Among the stored keys, the pattern of the collection finds every key of the collection that
a read could return and, in the swept caches, no other one. -/
structure TellsApart (cfg : Settings) (c : Text) (ks : Store) : Prop where
  own : ∀ k : Key, (ks.get k.text).isSome → k.collection = c → cfg.serves k →
    k.swept ∧ matchedBy c k
  others : ∀ k : Key, (ks.get k.text).isSome → k.collection ≠ c → k.swept → ¬matchedBy c k

theorem complete_invalidate_iff (cfg : Settings) (c : Text) (ks : Store) :
    Complete cfg c (invalidateCollectionCache c ks) ↔
      ∀ k : Key, (ks.get k.text).isSome → k.collection = c → cfg.serves k →
        k.swept ∧ matchedBy c k := by
  unfold Complete
  refine forall_congr' fun k => ?_
  unfold read
  rw [get_invalidate]
  cases hs : cfg.serves k <;> cases hw : k.swept <;> cases hm : matchedBy c k <;>
    cases hg : ks.get k.text <;> simp

theorem confined_invalidate_iff (c : Text) (ks : Store) :
    Confined c ks (invalidateCollectionCache c ks) ↔
      ∀ k : Key, (ks.get k.text).isSome → k.collection ≠ c → k.swept → ¬matchedBy c k := by
  unfold Confined
  refine forall_congr' fun k => ?_
  rw [get_invalidate]
  cases hw : k.swept <;> cases hm : matchedBy c k <;> cases hg : ks.get k.text <;> simp

theorem run_keys {w : FeatureWrite} {s s' : World} (h : w.run s = some s') :
    s'.keys = invalidateCollectionCache w.collection s.keys := by
  obtain ⟨parts, -, rfl⟩ := Option.map_eq_some_iff.mp h
  rfl

/-- A committed feature write leaves nothing to read of its collection and every other collection
untouched exactly when the stored keys are told apart by its pattern. -/
theorem invalidation_exact_iff (cfg : Settings) (w : FeatureWrite) (s s' : World)
    (h : w.run s = some s') :
    Complete cfg w.collection s'.keys ∧ Confined w.collection s.keys s'.keys ↔
      TellsApart cfg w.collection s.keys := by
  rw [run_keys h, complete_invalidate_iff, confined_invalidate_iff]
  constructor
  · rintro ⟨hown, hothers⟩
    exact ⟨hown, hothers⟩
  · rintro ⟨hown, hothers⟩
    exact ⟨hown, hothers⟩

/-! ## Stored entries -/

/-- A keyspace with these entries. -/
def entries (l : List (Key × Text)) : Store := l.map fun e => (e.1.text, e.2)

theorem mem_of_get_entries {l : List (Key × Text)} {k : Key}
    (h : ((entries l).get k.text).isSome) : k ∈ l.map (·.1) := by
  simp only [Keyspace.get, Option.isSome_map, List.find?_isSome, entries, List.mem_map,
    beq_iff_eq] at h
  obtain ⟨e, ⟨e', he', rfl⟩, htext⟩ := h
  exact List.mem_map.mpr ⟨e', he', Key.text_injective htext⟩

/-! ## Plain ids -/

theorem Key.tail_eq (k : Key) : ∃ rest, k.tail = k.collection ++ ':' :: rest := by
  cases k <;> exact ⟨_, rfl⟩

/-- A plain id without a colon matches the keys of the same id, among ids without a colon. -/
theorem matchedBy_plain {c : Text} {k : Key} (hc : Plain c) (hcc : ':' ∉ c)
    (hk : ':' ∉ k.collection) : matchedBy c k = true ↔ k.collection = c := by
  obtain ⟨rest, hrest⟩ := k.tail_eq
  have hp : Plain (c ++ [':']) := by
    intro ch hch
    rcases List.mem_append.mp hch with h | h
    · exact hc ch h
    · simp only [List.mem_singleton] at h
      subst h
      decide
  have hpat : c ++ [':', '*'] = (c ++ [':']) ++ ['*'] := by simp
  unfold matchedBy
  rw [hpat, glob_plain hp, hrest]
  constructor
  · rintro ⟨t, ht, -⟩
    simp only [List.append_assoc, List.singleton_append] at ht
    exact (append_first_sep_inj hk hcc ht).1
  · rintro rfl
    exact ⟨rest, by simp, glob_star rest⟩

/-- With plain ids and no items list of the collection stored, a write is exact. -/
theorem tellsApart_of_plain {cfg : Settings} {c : Text} {ks : Store} (hc : Plain c)
    (hcc : ':' ∉ c) (hks : ∀ k : Key, (ks.get k.text).isSome → ':' ∉ k.collection)
    (hitems : ∀ pk, (ks.get (itemsListKey c pk)).isSome → ¬cfg.serves (.items c pk)) :
    TellsApart cfg c ks where
  own := by
    intro k hk hcol hserves
    refine ⟨?_, (matchedBy_plain hc hcc (hks k hk)).mpr hcol⟩
    cases k with
    | items d pk =>
      have hd : d = c := hcol
      subst hd
      exact absurd hserves (hitems pk hk)
    | tile | tileParams | search => rfl
  others := by
    intro k hk hcol _ hm
    exact hcol ((matchedBy_plain hc hcc (hks k hk)).mp hm)

/-! ## Two collections -/

def roads : Text := "roads".toList

def roadsKey : ParamsKey := ⟨"9f86d081884c7d659a2feaa0".toList, by decide⟩

/-- Two collections with a tile each. -/
def tilesStored : Store :=
  entries [(.tile roads 0 0 0, ['t']), (.tile "rivers".toList 0 0 0, ['u'])]

/-- One feature of `roads`, to be deleted. -/
def oneRoad (ks : Store) : World where
  parts := [⟨roads, ['1'], none, ['g']⟩]
  shadowJobs := fun _ => []
  keys := ks

theorem tilesStored_tellsApart : TellsApart {} roads tilesStored := by
  have hk {k : Key} (h : (tilesStored.get k.text).isSome) :
      k = .tile roads 0 0 0 ∨ k = .tile "rivers".toList 0 0 0 := by
    simpa using mem_of_get_entries h
  refine tellsApart_of_plain (by decide) (by decide) ?_ ?_
  · intro k h
    rcases hk h with rfl | rfl <;> decide
  · intro pk h
    rcases @hk (.items roads pk) h with h | h <;> cases h

theorem deleted_road_invalidates :
    Complete {} roads (invalidateCollectionCache roads tilesStored) ∧
      Confined roads tilesStored (invalidateCollectionCache roads tilesStored) :=
  (invalidation_exact_iff {} (.delete roads ['1']) (oneRoad tilesStored)
    { oneRoad tilesStored with
      parts := [], keys := invalidateCollectionCache roads tilesStored } rfl).mpr
    tilesStored_tellsApart

/-- An items list that was cached before a feature is deleted is served after the deletion. -/
theorem items_list_survives_delete :
    ¬∀ (cfg : Settings) (w : FeatureWrite) (s s' : World), w.collection ≠ [] →
      w.run s = some s' →
      Complete cfg w.collection s'.keys ∧ Confined w.collection s.keys s'.keys := by
  intro h
  have hc := (h {} (.delete roads ['1']) (oneRoad (entries [(.items roads roadsKey, ['l'])])) _
    (by decide) rfl).1 (.items roads roadsKey) rfl
  revert hc
  decide

end Cache
end Geofastmap
