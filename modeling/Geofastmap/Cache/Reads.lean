import Geofastmap.Cache.Routes

/-!
# Geofastmap.Cache.Reads

Whether the caches can be seen in the answers. A sequence of requests is served from an empty
cache, over a database that stands still, and each answer is compared with the one that the same
request gets with every cache switched off.

The keys leave out parameters that the answers depend on, join the others with separators that
may occur in them, and the items route fills the search cache of the tile route. `Unmixed` says of
a request that none of this matters for it: the requests before it that have its key ask the same,
and, where a tile is cut out of a search result, that result is the one its own query gives.

* `Held` : every stored value was computed by an earlier request with that key.
* `serve_unmixed` : one request, answered as without a cache, keeps `Held`.
* `cached_reads_transparent` : a sequence of such requests is answered as without a cache.
-/

namespace Geofastmap
namespace Cache

open Redis

variable (cfg : Settings) (site : Site) (D : Digest)

/-! ## What an answer depends on -/

/-- The items request passes the checks before the cache. -/
def ItemsRequest.Served (r : ItemsRequest) : Prop :=
  site.canSee r.user r.collection = true ∧ ItemsRequest.shortQ r.params.q = false

/-- What the tile of a request is computed from. -/
structure TileInput where
  hasQueryParams : Bool
  query : TileQuery
  compositeQuery : TileQuery
  properties : List Text
  /-- The parameters that are forwarded to the HTTP worker. -/
  forwarded : List (Text × Text)

def TileRequest.input (r : TileRequest) : TileInput where
  hasQueryParams := r.hasQueryParams cfg site
  query := r.query cfg site
  compositeQuery := r.compositeQuery cfg site
  properties := splitComma (orEmpty r.params.properties)
  forwarded := if site.worker.isSome then r.multiItems else []

/-- The tile of a request when it is computed without a search result. -/
def ownTile (r : TileRequest) : Except Failure Text :=
  match site.kind r.collection with
  | .composite _ => compositeFilteredTile cfg site r
  | _ => defaultTile cfg site r

/-- The entry under which the tile of a request is looked up. -/
def TileRequest.key (r : TileRequest) : Key :=
  if r.hasQueryParams cfg site then .tileParams r.collection r.z r.x r.y (r.paramsKey D)
  else .tile r.collection r.z r.x r.y

theorem TileRequest.key_inj {r r' : TileRequest} (h : r'.key cfg site D = r.key cfg site D) :
    r'.collection = r.collection ∧ r'.z = r.z ∧ r'.x = r.x ∧ r'.y = r.y ∧
      r'.hasQueryParams cfg site = r.hasQueryParams cfg site ∧
      (r.hasQueryParams cfg site → r'.keyParams.raw = r.keyParams.raw) := by
  unfold TileRequest.key at h
  cases hq' : r'.hasQueryParams cfg site <;> cases hq : r.hasQueryParams cfg site <;>
    simp only [hq, hq', Bool.false_eq_true, if_true, if_false, Key.tile.injEq,
      Key.tileParams.injEq, reduceCtorEq] at h
  · exact ⟨h.1, h.2.1, h.2.2.1, h.2.2.2, rfl, nofun⟩
  · exact ⟨h.1, h.2.1, h.2.2.1, h.2.2.2.1, rfl, fun _ => D.injective h.2.2.2.2⟩

theorem ownTile_congr {r r' : TileRequest} (hk : r'.key cfg site D = r.key cfg site D)
    (hi : r'.input cfg site = r.input cfg site) : ownTile cfg site r' = ownTile cfg site r := by
  obtain ⟨hc, hz, hx, hy, -⟩ := TileRequest.key_inj cfg site D hk
  injection hi with _ hq hcq hp hf
  have hd : defaultTile cfg site r' = defaultTile cfg site r := by
    unfold defaultTile
    cases hw : site.worker with
    | none => simp only [hq, hp, hc, hz, hx, hy]
    | some call =>
      simp only [hw, Option.isSome_some, if_true] at hf
      simp only [hc, hz, hx, hy, hf]
  have hcomp : compositeFilteredTile cfg site r' = compositeFilteredTile cfg site r := by
    unfold compositeFilteredTile
    simp only [hcq, hc, hz, hx, hy]
  unfold ownTile
  rw [hd, hcomp, hc]

/-! ## Requests that are not mixed up -/

/-- Earlier items requests with the key of this one ask for the same page. -/
def SamePage (before : List Request) (r : ItemsRequest) : Prop :=
  ∀ r', .items r' ∈ before → r'.Served site → r'.cacheable → r'.collection = r.collection →
    (r'.keyParams cfg).raw = (r.keyParams cfg).raw → r'.query cfg site = r.query cfg site

/-- Earlier tile requests with the key of this one ask for the same tile. -/
def SameTile (before : List Request) (r : TileRequest) : Prop :=
  ∀ r', .tile r' ∈ before → refusal site r' = none → r'.collection = r.collection →
    r'.z = r.z → r'.x = r.x → r'.y = r.y →
    r'.hasQueryParams cfg site = r.hasQueryParams cfg site →
    (r.hasQueryParams cfg site → r'.keyParams.raw = r.keyParams.raw) →
    r'.input cfg site = r.input cfg site

/-- The search result of the request, as its own query gives it, cuts to the tile that the tile
query gives; and what earlier requests stored for it is that result. -/
structure SameSearch (before : List Request) (r : TileRequest) : Prop where
  own : ∃ g, site.searchGeojson (r.searchQuery cfg site) = .ok g ∧
    searchTile site r g = defaultTile cfg site r
  tiles : ∀ r', .tile r' ∈ before → refusal site r' = none → r'.useSearchCache cfg site →
    r'.collection = r.collection → r'.keyParams.raw = r.keyParams.raw →
    r'.searchQuery cfg site = r.searchQuery cfg site
  pages : ∀ r' page, .items r' ∈ before → r'.Served site → ¬r'.bboxOnly →
    r'.collection = r.collection → (r'.keyParams cfg).raw = r.keyParams.raw →
    site.load (r'.query cfg site) = .ok page → page.hasGeometry →
    site.searchGeojson (r.searchQuery cfg site) = .ok page.geojson

/-- No earlier request is taken for this one. -/
def Unmixed (before : List Request) : Request → Prop
  | .items r => r.Served site → r.cacheable → SamePage cfg site before r
  | .tile r => refusal site r = none → SameTile cfg site before r ∧
      ((∀ m, site.kind r.collection ≠ .composite m) → r.useSearchCache cfg site →
        SameSearch cfg site before r)

/-- The same of every request of a sequence. -/
def AllUnmixed (before : List Request) : List Request → Prop
  | [] => True
  | r :: rs => Unmixed cfg site before r ∧ AllUnmixed (before ++ [r]) rs

/-! ## Where the stored values come from -/

/-- The request computed this value for this entry. -/
def Wrote : Request → Key → Text → Prop
  | .items r, .items c pk, v =>
    r.Served site ∧ r.cacheable ∧ r.collection = c ∧ paramsKeyFromQuery D (r.keyParams cfg) = pk ∧
      ∃ page, site.load (r.query cfg site) = .ok page ∧ page.body = v
  | .items r, .search c pk, v =>
    r.Served site ∧ ¬r.bboxOnly ∧ r.collection = c ∧
      paramsKeyFromQuery D (r.keyParams cfg) = pk ∧
      ∃ page, site.load (r.query cfg site) = .ok page ∧ page.hasGeometry ∧ page.geojson = v
  | .items _, _, _ => False
  | .tile r, .search c pk, v =>
    refusal site r = none ∧ r.useSearchCache cfg site ∧ r.collection = c ∧ r.paramsKey D = pk ∧
      site.searchGeojson (r.searchQuery cfg site) = .ok v
  | .tile r, k, v => refusal site r = none ∧ r.key cfg site D = k ∧ ownTile cfg site r = .ok v

/-- Every value that can be read was computed by one of these requests. -/
def Held (before : List Request) (ks : Store) : Prop :=
  ∀ k v, read cfg ks k = some v → ∃ r ∈ before, Wrote cfg site D r k v

theorem held_nil : Held cfg site D [] [] := by
  intro k v h
  simp [read] at h

variable {cfg site D} {before : List Request} {ks : Store}

theorem Held.mono (h : Held cfg site D before ks) (r : Request) :
    Held cfg site D (before ++ [r]) ks := by
  intro k v hr
  obtain ⟨r', hmem, hw⟩ := h k v hr
  exact ⟨r', by simp [hmem], hw⟩

theorem Held.write {r : Request} {k : Key} {v : Text} (h : Held cfg site D (before ++ [r]) ks)
    (hw : Wrote cfg site D r k v) : Held cfg site D (before ++ [r]) (write cfg ks k v) := by
  intro k' v' hr
  rw [read_write] at hr
  split at hr
  · next hk =>
    cases hr
    rw [hk.1]
    exact ⟨r, by simp, hw⟩
  · exact h k' v' hr

/-! ## Answers without a cache -/

theorem read_disabled (ks : Store) (k : Key) : read cfg.disabled ks k = none := by
  cases k <;> simp [read, Settings.serves, Settings.disabled]

theorem loadItems_answer (r : ItemsRequest) (ks : Store) :
    (loadItems cfg site D r ks).1 = (loadItems cfg.disabled site D r []).1 := by
  have hq : r.query cfg.disabled site = r.query cfg site := rfl
  unfold loadItems
  rw [hq]
  cases site.load (r.query cfg site) with
  | error e => rfl
  | ok page => cases r.bboxOnly <;> cases r.html <;> rfl

theorem uncached_items {r : ItemsRequest} (hs : r.Served site) :
    uncached cfg site D (.items r) = (loadItems cfg.disabled site D r []).1 := by
  simp [uncached, serve, listItems, hs.1, hs.2, cachedItems, getItemsList, read_disabled]

/-! ## One request -/

theorem held_warm {r : ItemsRequest} {page : Page} (hs : r.Served site) (hb : ¬r.bboxOnly)
    (hp : site.load (r.query cfg site) = .ok page)
    (h : Held cfg site D (before ++ [.items r]) ks) :
    Held cfg site D (before ++ [.items r]) (warm cfg D r page ks) := by
  unfold warm
  split
  · next hg => exact h.write ⟨hs, hb, rfl, rfl, page, hp, hg, rfl⟩
  · exact h

theorem held_loadItems {r : ItemsRequest} (hs : r.Served site) (h : Held cfg site D before ks) :
    Held cfg site D (before ++ [.items r]) (loadItems cfg site D r ks).2 := by
  have h := h.mono (.items r)
  unfold loadItems
  cases hp : site.load (r.query cfg site) with
  | error e => exact h
  | ok page =>
    cases hb : r.bboxOnly with
    | true => exact h
    | false =>
      have hwarm := held_warm hs (by simp [hb]) hp h
      cases hh : r.html with
      | true => exact hwarm
      | false => exact hwarm.write ⟨hs, by simp [ItemsRequest.cacheable, hb, hh], rfl, rfl, page, hp, rfl⟩

/-- A cached page is the page of this request. -/
theorem cachedItems_eq {r : ItemsRequest} {v : Text} (hs : r.Served site)
    (h : Held cfg site D before ks) (hu : Unmixed cfg site before (.items r))
    (hv : cachedItems cfg D r ks = some v) :
    (loadItems cfg.disabled site D r []).1 = .ok ⟨.geojson, v⟩ := by
  unfold cachedItems at hv
  split at hv
  · next hc =>
    obtain ⟨hread, -⟩ := Option.filter_eq_some_iff.mp hv
    obtain ⟨r', hmem, hw⟩ := h _ _ hread
    cases r' with
    | tile r' =>
      obtain ⟨-, hk, -⟩ := hw
      unfold TileRequest.key at hk
      split at hk <;> cases hk
    | items r' =>
      obtain ⟨hs', hc', hcol, hkey, page, hp, rfl⟩ := hw
      have hq := hu hs hc r' hmem hs' hc' hcol (D.injective hkey)
      have hb : r.html = false ∧ r.bboxOnly = false := by
        simpa [ItemsRequest.cacheable] using hc
      have hp : site.load (r.query cfg.disabled site) = .ok page := by rw [← hp, hq]; rfl
      simp [loadItems, hp, hb.1, hb.2]
  · cases hv

theorem serve_items {r : ItemsRequest} (h : Held cfg site D before ks)
    (hu : Unmixed cfg site before (.items r)) :
    (listItems cfg site D r ks).1 = uncached cfg site D (.items r) ∧
      Held cfg site D (before ++ [.items r]) (listItems cfg site D r ks).2 := by
  cases hsee : site.canSee r.user r.collection with
  | false => simp [uncached, serve, listItems, hsee, h.mono]
  | true =>
    cases hq : ItemsRequest.shortQ r.params.q with
    | true => simp [uncached, serve, listItems, hsee, hq, h.mono]
    | false =>
      have hs : r.Served site := ⟨hsee, hq⟩
      rw [uncached_items hs]
      unfold listItems
      simp only [hsee, hq, Bool.not_true, Bool.false_eq_true, if_false]
      cases hv : cachedItems cfg D r ks with
      | none => exact ⟨loadItems_answer r ks, held_loadItems hs h⟩
      | some v => exact ⟨(cachedItems_eq hs h hu hv).symm, h.mono _⟩

theorem wrote_key {r : TileRequest} {v : Text} (hr : refusal site r = none)
    (ht : ownTile cfg site r = .ok v) : Wrote cfg site D (.tile r) (r.key cfg site D) v := by
  have hk : r.key cfg site D = r.key cfg site D := rfl
  unfold TileRequest.key at hk ⊢
  split
  · exact ⟨hr, by simp [TileRequest.key, *], ht⟩
  · exact ⟨hr, by simp [TileRequest.key, *], ht⟩

/-- A stored tile is the tile of this request. -/
theorem ownTile_of_read {r : TileRequest} {v : Text} (h : Held cfg site D before ks)
    (hu : SameTile cfg site before r) (hv : read cfg ks (r.key cfg site D) = some v) :
    ownTile cfg site r = .ok v := by
  obtain ⟨r', hmem, hw⟩ := h _ _ hv
  have hw : ∃ r₀, r' = .tile r₀ ∧ refusal site r₀ = none ∧
      r₀.key cfg site D = r.key cfg site D ∧ ownTile cfg site r₀ = .ok v := by
    unfold TileRequest.key at hw ⊢
    cases r' <;> split at hw <;> simp_all [Wrote, TileRequest.key]
  obtain ⟨r', rfl, hr', hkey, ht⟩ := hw
  obtain ⟨hc, hz, hx, hy, hq, hraw⟩ := TileRequest.key_inj cfg site D hkey
  rw [← ownTile_congr cfg site D hkey (hu r' hmem hr' hc hz hx hy hq hraw)]
  exact ht

theorem held_store {r : TileRequest} (hr : refusal site r = none)
    (h : Held cfg site D (before ++ [.tile r]) ks) :
    Held cfg site D (before ++ [.tile r])
      (store cfg ks (r.key cfg site D) (ownTile cfg site r)).2 := by
  unfold store
  cases ht : ownTile cfg site r with
  | error e => exact h
  | ok v => exact h.write (wrote_key hr ht)

theorem store_answer (ks ks' : Store) (k k' : Key) (t : Except Failure Text) :
    (store cfg ks k t).1 = (store cfg.disabled ks' k' t).1 := by
  cases t <;> rfl

theorem lookAside_held {r : TileRequest} (hr : refusal site r = none)
    (h : Held cfg site D before ks) (hu : SameTile cfg site before r) :
    (lookAside cfg ks (r.key cfg site D) (ownTile cfg site r)).1 =
        (store cfg.disabled [] (r.key cfg site D) (ownTile cfg site r)).1 ∧
      Held cfg site D (before ++ [.tile r])
        (lookAside cfg ks (r.key cfg site D) (ownTile cfg site r)).2 := by
  unfold lookAside
  cases hv : read cfg ks (r.key cfg site D) with
  | none => exact ⟨store_answer .., held_store hr (h.mono _)⟩
  | some v =>
    rw [ownTile_of_read h hu hv]
    exact ⟨rfl, h.mono _⟩

theorem lookAside_disabled (k : Key) (t : Except Failure Text) :
    lookAside cfg.disabled [] k t = store cfg.disabled [] k t := by
  unfold lookAside
  rw [read_disabled]

/-- After the search cache is ensured it holds the result of the request's own query. -/
theorem ensureSearchResultCached_held {r : TileRequest} {g : Text} (hr : refusal site r = none)
    (hs : r.useSearchCache cfg site) (h : Held cfg site D before ks)
    (hu : SameSearch cfg site before r)
    (hg : site.searchGeojson (r.searchQuery cfg site) = .ok g) :
    ∃ ks', ensureSearchResultCached cfg site D r ks = some ks' ∧
      getSearchResult cfg ks' r.collection (r.paramsKey D) = some g ∧
      (∀ k, k ≠ .search r.collection (r.paramsKey D) → read cfg ks' k = read cfg ks k) ∧
      Held cfg site D (before ++ [.tile r]) ks' := by
  unfold ensureSearchResultCached
  cases hv : getSearchResult cfg ks r.collection (r.paramsKey D) with
  | some v =>
    have hvg : v = g := by
      obtain ⟨r', hmem, hw⟩ := h _ _ hv
      cases r' with
      | items r' =>
        obtain ⟨hs', hb, hcol, hkey, page, hp, hgeo, rfl⟩ := hw
        have := hu.pages r' page hmem hs' hb hcol (D.injective hkey) hp hgeo
        rw [hg] at this
        injection this with this
        exact this.symm
      | tile r' =>
        obtain ⟨hr', hs', hcol, hkey, hg'⟩ := hw
        rw [hu.tiles r' hmem hr' hs' hcol (D.injective hkey), hg] at hg'
        injection hg' with hg'
        exact hg'.symm
    subst hvg
    exact ⟨ks, rfl, hv, fun _ _ => rfl, h.mono _⟩
  | none =>
    have hon : cfg.serves (.search r.collection (r.paramsKey D)) = true := by
      simp only [TileRequest.useSearchCache, Bool.and_eq_true] at hs
      exact hs.1.2
    refine ⟨setSearchResult cfg ks r.collection (r.paramsKey D) g, by simp only [hg], ?_, ?_, ?_⟩
    · simp [getSearchResult, setSearchResult, read_write, hon]
    · intro k hk
      simp [setSearchResult, read_write, hk]
    · exact (h.mono _).write ⟨hr, hs, rfl, rfl, hg⟩

theorem searchPath_held {r : TileRequest} (hr : refusal site r = none)
    (hs : r.useSearchCache cfg site) (ho : ownTile cfg site r = defaultTile cfg site r)
    (h : Held cfg site D before ks) (hu : SameSearch cfg site before r)
    (hv : read cfg ks (.tileParams r.collection r.z r.x r.y (r.paramsKey D)) = none) :
    (searchPath cfg site D r ks).1 =
        (store cfg.disabled [] (r.key cfg site D) (ownTile cfg site r)).1 ∧
      Held cfg site D (before ++ [.tile r]) (searchPath cfg site D r ks).2 := by
  obtain ⟨g, hg, htile⟩ := hu.own
  obtain ⟨ks', hensure, hsearch, hother, hheld⟩ := ensureSearchResultCached_held hr hs h hu hg
  have hkey : r.key cfg site D = .tileParams r.collection r.z r.x r.y (r.paramsKey D) := by
    simp only [TileRequest.useSearchCache, Bool.and_eq_true] at hs
    simp [TileRequest.key, hs.1.1]
  have hmiss : getTileWithParams cfg ks' r.collection r.z r.x r.y (r.paramsKey D) = none := by
    unfold getTileWithParams
    rw [hother _ (by simp), hv]
  unfold searchPath
  simp only [hensure, hmiss, hsearch, htile, ← ho, ← hkey]
  exact ⟨store_answer .., held_store hr hheld⟩

/-! ### Tiles -/

theorem uncached_vectorTile {r : TileRequest} (ho : ownTile cfg site r = defaultTile cfg site r) :
    (vectorTile cfg.disabled site D r []).1 =
      (store cfg.disabled [] (r.key cfg site D) (ownTile cfg site r)).1 := by
  have hd : defaultTile cfg.disabled site r = defaultTile cfg site r := rfl
  have hq : r.hasQueryParams cfg.disabled site = r.hasQueryParams cfg site := rfl
  have hs : r.useSearchCache cfg.disabled site = false := by
    simp [TileRequest.useSearchCache, Settings.disabled]
  unfold vectorTile TileRequest.key
  rw [hs, hq, hd, ← ho]
  cases r.hasQueryParams cfg site <;> simp [lookAside_disabled]

theorem serve_vectorTile {r : TileRequest} (hr : refusal site r = none)
    (hk : ∀ m, site.kind r.collection ≠ .composite m) (h : Held cfg site D before ks)
    (hu : Unmixed cfg site before (.tile r)) :
    (vectorTile cfg site D r ks).1 = (vectorTile cfg.disabled site D r []).1 ∧
      Held cfg site D (before ++ [.tile r]) (vectorTile cfg site D r ks).2 := by
  have ho : ownTile cfg site r = defaultTile cfg site r := by
    unfold ownTile
    split
    · next m hm => exact absurd hm (hk m)
    · rfl
  obtain ⟨hsame, hsearch⟩ := hu hr
  have hlook := lookAside_held hr h hsame
  rw [uncached_vectorTile ho]
  unfold vectorTile
  cases hq : r.hasQueryParams cfg site with
  | false =>
    have hkey : r.key cfg site D = .tile r.collection r.z r.x r.y := by
      simp [TileRequest.key, hq]
    rw [hkey, ho] at hlook ⊢
    exact hlook
  | true =>
    have hkey : r.key cfg site D = .tileParams r.collection r.z r.x r.y (r.paramsKey D) := by
      simp [TileRequest.key, hq]
    cases hs : r.useSearchCache cfg site with
    | false =>
      rw [hkey, ho] at hlook ⊢
      exact hlook
    | true =>
      simp only [Bool.not_true, Bool.false_eq_true, if_false, if_true]
      cases hv : getTileWithParams cfg ks r.collection r.z r.x r.y (r.paramsKey D) with
      | none => exact searchPath_held hr hs ho h (hsearch hk hs) hv
      | some v =>
        rw [ownTile_of_read h hsame (by rw [hkey]; exact hv)]
        exact ⟨rfl, h.mono _⟩

theorem serve_tile {r : TileRequest} (h : Held cfg site D before ks)
    (hu : Unmixed cfg site before (.tile r)) :
    (getTilesDynamic cfg site D r ks).1 = uncached cfg site D (.tile r) ∧
      Held cfg site D (before ++ [.tile r]) (getTilesDynamic cfg site D r ks).2 := by
  have hun : uncached cfg site D (.tile r) = (getTilesDynamic cfg.disabled site D r []).1 := rfl
  rw [hun]
  unfold getTilesDynamic
  cases hr : refusal site r with
  | some e => exact ⟨rfl, h.mono _⟩
  | none =>
    cases hk : site.kind r.collection with
    | vector => exact serve_vectorTile hr (by simp [hk]) h hu
    | raster => exact serve_vectorTile hr (by simp [hk]) h hu
    | composite m =>
      cases m with
      | false => exact ⟨rfl, h.mono _⟩
      | true =>
        have hq : r.hasQueryParams cfg.disabled site = r.hasQueryParams cfg site := rfl
        simp only [hq]
        split
        · next hp =>
          have ho : ownTile cfg site r = compositeFilteredTile cfg site r := by
            simp [ownTile, hk]
          have hkey : r.key cfg site D = .tileParams r.collection r.z r.x r.y (r.paramsKey D) := by
            simp [TileRequest.key, hp]
          have hlook := lookAside_held hr h (hu hr).1
          rw [hkey, ho] at hlook
          rw [lookAside_disabled]
          exact hlook
        · exact ⟨rfl, h.mono _⟩

/-- One request is answered as without a cache, and what it stores is its own. -/
theorem serve_unmixed {r : Request} (h : Held cfg site D before ks)
    (hu : Unmixed cfg site before r) :
    (serve cfg site D r ks).1 = uncached cfg site D r ∧
      Held cfg site D (before ++ [r]) (serve cfg site D r ks).2 := by
  cases r with
  | items r => exact serve_items h hu
  | tile r => exact serve_tile h hu

/-! ## Every sequence -/

theorem serveAll_unmixed (rs : List Request) (h : Held cfg site D before ks)
    (hu : AllUnmixed cfg site before rs) :
    serveAll cfg site D rs ks = rs.map (uncached cfg site D) := by
  induction rs generalizing before ks with
  | nil => rfl
  | cons r rs ih =>
    obtain ⟨hr, hrs⟩ := hu
    obtain ⟨hans, hheld⟩ := serve_unmixed h hr
    rw [serveAll, List.map_cons, hans, ih hheld hrs]

/-- Reads through the caches are answered as without them, in every sequence of requests none of
which is taken for another. -/
theorem cached_reads_transparent (cfg : Settings) (site : Site) (D : Digest) (rs : List Request)
    (hu : AllUnmixed cfg site [] rs) :
    serveAll cfg site D rs [] = rs.map (uncached cfg site D) :=
  serveAll_unmixed rs (held_nil cfg site D) hu

/-! ## A small site -/

/-- A digest that can be read back: two characters for each one, none of them a colon. -/
def spell (s : Text) : Text := s.flatMap fun ch => if ch = ':' then ['1', '1'] else ['0', ch]

theorem colon_not_mem_spell (s : Text) : ':' ∉ spell s := by
  intro h
  obtain ⟨ch, -, hch⟩ := List.mem_flatMap.mp h
  split at hch
  · simp at hch
  · next hne => simp [Ne.symm hne] at hch

theorem spell_injective : Function.Injective spell := by
  intro a
  induction a with
  | nil =>
    intro b h
    cases b with
    | nil => rfl
    | cons d b =>
      simp only [spell, List.flatMap_nil, List.flatMap_cons] at h
      split at h <;> simp at h
  | cons c a ih =>
    intro b h
    cases b with
    | nil =>
      simp only [spell, List.flatMap_nil, List.flatMap_cons] at h
      split at h <;> simp at h
    | cons d b =>
      have h : (if c = ':' then ['1', '1'] else ['0', c]) ++ spell a =
          (if d = ':' then ['1', '1'] else ['0', d]) ++ spell b := h
      by_cases hc : c = ':' <;> by_cases hd : d = ':' <;> simp [hc, hd] at h
      · rw [hc, hd, ih h]
      · rw [h.1, ih h.2]

def spelling : Digest where
  hexdigest s := ⟨spell s, colon_not_mem_spell s⟩
  injective := by
    intro a b h
    exact spell_injective (congrArg ParamsKey.text h)

/-- One public collection. Its pages show whether geometries were asked for, its tiles are always
the same. -/
def smallSite : Site where
  kind _ := .vector
  canSee _ _ := true
  isBbox _ := false
  load q := .ok ⟨if q.includeGeometry then ['g'] else ['b'], ['s'], q.includeGeometry, ['e']⟩
  renderHtml _ page := page.body
  isExactSearchToken _ := false
  resolveExact _ _ _ := []
  compositeTile _ _ _ _ := []
  tileGeojson _ := .ok ['s']
  searchGeojson _ := .ok ['s']
  filterToTile _ _ _ g := g
  selectProperties _ g := g
  hasFeatures _ := .ok true
  encode _ _ _ _ g := .ok g
  worker := none

def parcels : Text := "parcels".toList

/-- A page and, with the limit that is its default, a tile cut out of it. -/
def pageAndTile : List Request :=
  [.items { collection := parcels },
   .tile { collection := parcels, z := 0, x := 0, y := 0, params := { limit := some 100 } }]

theorem pageAndTile_unmixed : AllUnmixed {} smallSite [] pageAndTile := by
  refine ⟨?_, ?_, trivial⟩
  · intro _ _ r' hmem
    cases hmem
  · intro _
    refine ⟨?_, fun _ _ => ⟨⟨['s'], rfl, rfl⟩, ?_, ?_⟩⟩
    · intro r' hmem
      simp at hmem
    · intro r' hmem
      simp at hmem
    · intro r' page _ _ _ _ _ hload _
      cases hload
      rfl

theorem page_and_tile_transparent :
    serveAll {} smallSite spelling pageAndTile [] =
      pageAndTile.map (uncached {} smallSite spelling) :=
  cached_reads_transparent {} smallSite spelling pageAndTile pageAndTile_unmixed

/-- A page without geometries is answered with the cached page that has them. -/
theorem geometry_flag_not_in_key :
    ¬∀ (cfg : Settings) (site : Site) (D : Digest) (rs : List Request),
      serveAll cfg site D rs [] = rs.map (uncached cfg site D) := by
  intro h
  have := h {} smallSite spelling
    [.items { collection := parcels }, .items { collection := parcels, geometry := some false }]
  revert this
  decide +kernel

end Cache
end Geofastmap
