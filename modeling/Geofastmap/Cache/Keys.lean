import Geofastmap.Redis.Keyspace

/-!
# Geofastmap.Cache.Keys

The Redis entries of `app/services/dynamic_tile_cache.py`: the texts of the keys of its four
caches, the reads and writes with their switches, and `invalidate_collection_cache`.

The text of a key is a fixed head, the collection id, a colon and a rest. Neither a decimal
number nor a hexadecimal digest has a colon, so the rest can be read back from the right
(`Key.text_injective`).
-/

namespace Geofastmap

/-! ## Texts with a separator -/

/-- What precedes the first separator can be read back. -/
theorem append_first_sep_inj {sep : Char} {a b u v : Text} (ha : sep ∉ a) (hb : sep ∉ b)
    (h : a ++ sep :: u = b ++ sep :: v) : a = b ∧ u = v := by
  induction a generalizing b with
  | nil =>
    cases b with
    | nil => simpa using h
    | cons d b =>
      simp only [List.nil_append, List.cons_append, List.cons.injEq] at h
      exact absurd (by simp [h.1]) hb
  | cons c a ih =>
    cases b with
    | nil =>
      simp only [List.nil_append, List.cons_append, List.cons.injEq] at h
      exact absurd (by simp [h.1]) ha
    | cons d b =>
      simp only [List.mem_cons, not_or] at ha hb
      simp only [List.cons_append, List.cons.injEq] at h
      obtain ⟨rfl, rfl⟩ := ih ha.2 hb.2 h.2
      exact ⟨by rw [h.1], rfl⟩

/-- What follows the last separator can be read back. -/
theorem append_sep_inj {sep : Char} {a b u v : Text} (hu : sep ∉ u) (hv : sep ∉ v)
    (h : a ++ sep :: u = b ++ sep :: v) : a = b ∧ u = v := by
  have hr := congrArg List.reverse h
  simp only [List.reverse_append, List.reverse_cons, List.append_assoc, List.singleton_append] at hr
  obtain ⟨h1, h2⟩ := append_first_sep_inj (by simpa using hu) (by simpa using hv) hr
  exact ⟨List.reverse_injective h2, List.reverse_injective h1⟩

theorem isDigit_of_mem_digits {n : Nat} {ch : Char} (h : ch ∈ Sql.digits n) : ch.isDigit :=
  Nat.isDigit_of_mem_toDigits (by omega) (by omega) h

theorem digits_injective : Function.Injective Sql.digits := by
  intro m n h
  have hm := @Nat.ofDigitChars_ten_toDigits m
  have hn := @Nat.ofDigitChars_ten_toDigits n
  rw [← hm, ← hn]
  exact congrArg (Nat.ofDigitChars 10 · 0) h

theorem colon_not_mem_intText (n : Int) : ':' ∉ Sql.intText n := by
  intro h
  have hd : ':' ∉ Sql.digits n.natAbs := fun h => absurd (isDigit_of_mem_digits h) (by decide)
  unfold Sql.intText at h
  split at h
  · rcases List.mem_cons.mp h with hc | hc
    · exact absurd hc (by decide)
    · exact hd hc
  · exact hd h

theorem intText_injective : Function.Injective Sql.intText := by
  have hminus (n : Nat) (s : Text) : Sql.digits n ≠ '-' :: s := by
    intro h
    have hm : '-' ∈ Sql.digits n := by rw [h]; simp
    exact absurd (isDigit_of_mem_digits hm) (by decide)
  intro m n h
  unfold Sql.intText at h
  by_cases hm : m < 0 <;> by_cases hn : n < 0 <;>
    simp only [hm, hn, if_true, if_false, List.cons.injEq, true_and] at h
  · have := digits_injective h
    omega
  · exact absurd h.symm (hminus _ _)
  · exact absurd h (hminus _ _)
  · have := digits_injective h
    omega

namespace Cache

open Redis

/-! ## Keys -/

/-- The first characters of a SHA-256 `hexdigest()`. -/
structure ParamsKey where
  text : Text
  noColon : ':' ∉ text
deriving DecidableEq

theorem ParamsKey.ext {p q : ParamsKey} (h : p.text = q.text) : p = q := by
  cases p; cases q; cases h; rfl

def dynamicTileCacheHead : Text := "geofastmap:dynamic_tile:v4:".toList

def dynamicTileCacheParamsHead : Text := "geofastmap:dynamic_tile_p:v4:".toList

def searchResultHead : Text := "geofastmap:search_result:".toList

def itemsListHead : Text := "geofastmap:items_list:".toList

/-- The text of the coordinates in a key. -/
def tileText (z x y : Int) : Text := Sql.intText z ++ ':' :: Sql.intText x ++ ':' :: Sql.intText y

def cacheKey (c : Text) (z x y : Int) : Text := dynamicTileCacheHead ++ (c ++ ':' :: tileText z x y)

def paramsCacheKey (c : Text) (z x y : Int) (pk : ParamsKey) : Text :=
  dynamicTileCacheParamsHead ++ (c ++ ':' :: (tileText z x y ++ ':' :: pk.text))

def searchResultKey (c : Text) (pk : ParamsKey) : Text := searchResultHead ++ (c ++ ':' :: pk.text)

def itemsListKey (c : Text) (pk : ParamsKey) : Text := itemsListHead ++ (c ++ ':' :: pk.text)

/-- A key that one of the four caches writes. -/
inductive Key where
  | tile (c : Text) (z x y : Int)
  | tileParams (c : Text) (z x y : Int) (pk : ParamsKey)
  | search (c : Text) (pk : ParamsKey)
  | items (c : Text) (pk : ParamsKey)
deriving DecidableEq

namespace Key

def collection : Key → Text
  | tile c _ _ _ => c
  | tileParams c _ _ _ _ => c
  | search c _ => c
  | items c _ => c

def head : Key → Text
  | tile .. => dynamicTileCacheHead
  | tileParams .. => dynamicTileCacheParamsHead
  | search .. => searchResultHead
  | items .. => itemsListHead

/-- The key after its head. -/
def tail : Key → Text
  | tile c z x y => c ++ ':' :: tileText z x y
  | tileParams c z x y pk => c ++ ':' :: (tileText z x y ++ ':' :: pk.text)
  | search c pk => c ++ ':' :: pk.text
  | items c pk => c ++ ':' :: pk.text

def text : Key → Text
  | tile c z x y => cacheKey c z x y
  | tileParams c z x y pk => paramsCacheKey c z x y pk
  | search c pk => searchResultKey c pk
  | items c pk => itemsListKey c pk

theorem text_eq (k : Key) : k.text = k.head ++ k.tail := by
  cases k <;> rfl

end Key

/-- No head is the beginning of another. -/
theorem head_apart {k k' : Key} (h : k.head ≠ k'.head) : ¬k.head <+: k'.head := by
  have hd : ∀ a ∈ [dynamicTileCacheHead, dynamicTileCacheParamsHead, searchResultHead,
      itemsListHead], ∀ b ∈ [dynamicTileCacheHead, dynamicTileCacheParamsHead, searchResultHead,
      itemsListHead], a ≠ b → ¬a <+: b := by
    decide
  have hmem (k : Key) : k.head ∈ [dynamicTileCacheHead, dynamicTileCacheParamsHead,
      searchResultHead, itemsListHead] := by
    cases k <;> simp [Key.head]
  exact hd _ (hmem k) _ (hmem k') h

theorem plain_head (k : Key) : Plain k.head := by
  cases k
  · show Plain dynamicTileCacheHead; decide
  · show Plain dynamicTileCacheParamsHead; decide
  · show Plain searchResultHead; decide
  · show Plain itemsListHead; decide

theorem tileText_inj {c d : Text} {z x y z' x' y' : Int}
    (h : c ++ ':' :: tileText z x y = d ++ ':' :: tileText z' x' y') :
    c = d ∧ z = z' ∧ x = x' ∧ y = y' := by
  simp only [tileText, ← List.cons_append, ← List.append_assoc] at h
  obtain ⟨h, hy⟩ := append_sep_inj (colon_not_mem_intText y) (colon_not_mem_intText y') h
  obtain ⟨h, hx⟩ := append_sep_inj (colon_not_mem_intText x) (colon_not_mem_intText x') h
  obtain ⟨h, hz⟩ := append_sep_inj (colon_not_mem_intText z) (colon_not_mem_intText z') h
  exact ⟨h, intText_injective hz, intText_injective hx, intText_injective hy⟩

theorem tail_inj {k k' : Key} (hh : k.head = k'.head) (ht : k.tail = k'.tail) : k = k' := by
  cases k <;> cases k' <;> first
    | exact absurd hh (by simp only [Key.head]; decide)
    | simp only [Key.tail] at ht
  case tile.tile =>
    obtain ⟨rfl, rfl, rfl, rfl⟩ := tileText_inj ht
    rfl
  case tileParams.tileParams c z x y pk d z' x' y' pk' =>
    simp only [← List.cons_append, ← List.append_assoc] at ht
    obtain ⟨ht, hp⟩ := append_sep_inj pk.noColon pk'.noColon ht
    obtain ⟨rfl, rfl, rfl, rfl⟩ := tileText_inj ht
    rw [ParamsKey.ext hp]
  case search.search c pk d pk' =>
    obtain ⟨rfl, hp⟩ := append_sep_inj pk.noColon pk'.noColon ht
    rw [ParamsKey.ext hp]
  case items.items c pk d pk' =>
    obtain ⟨rfl, hp⟩ := append_sep_inj pk.noColon pk'.noColon ht
    rw [ParamsKey.ext hp]

/-- Different entries have different keys. -/
theorem Key.text_injective : Function.Injective Key.text := by
  intro k k' h
  rw [Key.text_eq, Key.text_eq] at h
  by_cases hh : k.head = k'.head
  · rw [hh] at h
    exact tail_inj hh (List.append_cancel_left h)
  · have hp : k.head <+: k'.head ++ k'.tail := ⟨k.tail, h⟩
    rcases List.prefix_or_prefix_of_prefix hp (List.prefix_append k'.head k'.tail) with hc | hc
    · exact absurd hc (head_apart hh)
    · exact absurd hc (head_apart (Ne.symm hh))

/-! ## Reads and writes -/

/-- The settings the caches and the two routes read. -/
structure Settings where
  tilesDynamicCacheTtlSeconds : Int := 60
  tilesDynamicCacheWithParams : Bool := true
  tilesDynamicCacheParamsTtlSeconds : Int := 60
  tilesSearchResultCacheTtlSeconds : Int := 60
  collectionsItemsCacheTtlSeconds : Int := 600
  tilesMvtMaxFeatures : Int := 50000
  tilesFilterMaxFeatures : Int := 50000
  itemsDefaultLimit : Int := 100
  itemsMaxLimit : Int := 1000
deriving DecidableEq

/-- Every cache switched off. -/
def Settings.disabled (cfg : Settings) : Settings :=
  { cfg with
    tilesDynamicCacheTtlSeconds := 0
    tilesDynamicCacheWithParams := false
    tilesDynamicCacheParamsTtlSeconds := 0
    tilesSearchResultCacheTtlSeconds := 0
    collectionsItemsCacheTtlSeconds := 0 }

/-- Whether the cache of a key is switched on. -/
def Settings.serves (cfg : Settings) : Key → Bool
  | .tile .. => decide (0 < cfg.tilesDynamicCacheTtlSeconds)
  | .tileParams .. =>
    cfg.tilesDynamicCacheWithParams && decide (0 < cfg.tilesDynamicCacheParamsTtlSeconds)
  | .search .. => decide (0 < cfg.tilesSearchResultCacheTtlSeconds)
  | .items .. => decide (0 < cfg.collectionsItemsCacheTtlSeconds)

/-- Values of the caches: bytes, one character for each. -/
abbrev Store := Keyspace Text

/-- The reads of the four caches: nothing while the cache is off, else `GET`. -/
def read (cfg : Settings) (ks : Store) (k : Key) : Option Text :=
  if cfg.serves k then ks.get k.text else none

/-- The writes of the four caches: no change while the cache is off, else `SET`. -/
def write (cfg : Settings) (ks : Store) (k : Key) (payload : Text) : Store :=
  if cfg.serves k then ks.set k.text payload else ks

def getTile (cfg : Settings) (ks : Store) (c : Text) (z x y : Int) : Option Text :=
  read cfg ks (.tile c z x y)

def setTile (cfg : Settings) (ks : Store) (c : Text) (z x y : Int) (payload : Text) : Store :=
  write cfg ks (.tile c z x y) payload

def getTileWithParams (cfg : Settings) (ks : Store) (c : Text) (z x y : Int) (pk : ParamsKey) :
    Option Text :=
  read cfg ks (.tileParams c z x y pk)

def setTileWithParams (cfg : Settings) (ks : Store) (c : Text) (z x y : Int) (pk : ParamsKey)
    (payload : Text) : Store :=
  write cfg ks (.tileParams c z x y pk) payload

def getSearchResult (cfg : Settings) (ks : Store) (c : Text) (pk : ParamsKey) : Option Text :=
  read cfg ks (.search c pk)

def setSearchResult (cfg : Settings) (ks : Store) (c : Text) (pk : ParamsKey) (payload : Text) :
    Store :=
  write cfg ks (.search c pk) payload

def getItemsList (cfg : Settings) (ks : Store) (c : Text) (pk : ParamsKey) : Option Text :=
  read cfg ks (.items c pk)

def setItemsList (cfg : Settings) (ks : Store) (c : Text) (pk : ParamsKey) (payload : Text) :
    Store :=
  write cfg ks (.items c pk) payload

theorem read_write (cfg : Settings) (ks : Store) (k k' : Key) (payload : Text) :
    read cfg (write cfg ks k payload) k' =
      if k' = k ∧ cfg.serves k then some payload else read cfg ks k' := by
  by_cases hk : k' = k
  · subst hk
    by_cases hs : cfg.serves k'
    · simp [read, write, hs, Keyspace.get_set]
    · simp [read, hs]
  · have ht : k'.text ≠ k.text := fun h => hk (Key.text_injective h)
    by_cases hs : cfg.serves k
    · simp [read, write, hs, Keyspace.get_set, hk, ht]
    · simp [read, write, hs, hk]

/-! ## Invalidation -/

/-- The patterns of a collection. The items list cache is not among them. -/
def patterns (c : Text) : List Text :=
  [dynamicTileCacheHead ++ (c ++ [':', '*']),
   dynamicTileCacheParamsHead ++ (c ++ [':', '*']),
   searchResultHead ++ (c ++ [':', '*'])]

def invalidateCollectionCache (c : Text) (ks : Store) : Store :=
  (patterns c).foldl Keyspace.sweep ks

end Cache
end Geofastmap
