import Mathlib.Algebra.Group.Int.Defs
import Geofastmap.Cache.Keys

/-!
# Geofastmap.Cache.Routes

The two read routes that share the caches: `list_items` of `app/api/routes/items.py` and
`get_tiles_dynamic` of `app/api/routes/tiles.py`, with `ensure_search_result_cached` between them.

What the routes ask of the database, of the MVT encoder and of the HTTP tile worker is a `Site`:
functions of the arguments that the routes pass, so that the database stands still. A request that
finds the database overloaded is not modelled. Answers are compared by status, media type and
content; the response headers say whether the content came from a cache.
-/

namespace Geofastmap
namespace Cache

open Redis

/-! ## Texts of query parameters -/

/-- `x or ''`. -/
def orEmpty (x : Option Text) : Text := x.getD []

/-- `x is not None and x.strip()`. -/
def filled (x : Option Text) : Bool := !(strip (orEmpty x)).isEmpty

/-- `[i.strip() for i in s.split(",") if i.strip()]`. -/
def splitComma (s : Text) : List Text := ((s.splitOn ',').map strip).filter (!·.isEmpty)

/-- `[x for s in filter_param for x in s.strip().split("\n") if x.strip()]`. -/
def filterLines (filter : List Text) : List Text :=
  filter.flatMap fun s => ((strip s).splitOn '\n').filter fun x => !(strip x).isEmpty

/-- The query parameters that go into a key. An absent list of filters is the empty one. -/
structure Params where
  limit : Option Int := none
  offset : Int := 0
  sortby : Option Text := none
  sortdesc : Bool := false
  bbox : Option Text := none
  datetime : Option Text := none
  filter : List Text := []
  q : Option Text := none
  ids : Option Text := none
  properties : Option Text := none
deriving DecidableEq

/-- The text that is digested. -/
def Params.raw (p : Params) : Text :=
  ['&'].intercalate
    ["l=".toList ++ (p.limit.elim "None".toList Sql.intText),
     "o=".toList ++ Sql.intText p.offset,
     "s=".toList ++ orEmpty p.sortby,
     "d=".toList ++ (if p.sortdesc then "True".toList else "False".toList),
     "b=".toList ++ orEmpty p.bbox,
     "dt=".toList ++ orEmpty p.datetime,
     "f=".toList ++ [','].intercalate p.filter,
     "q=".toList ++ orEmpty p.q,
     "ids=".toList ++ orEmpty p.ids,
     "p=".toList ++ orEmpty p.properties]

/-- `hashlib.sha256(raw).hexdigest()[:24]`, taken to be injective. -/
structure Digest where
  hexdigest : Text → ParamsKey
  injective : Function.Injective hexdigest

def paramsKeyFromQuery (D : Digest) (p : Params) : ParamsKey := D.hexdigest p.raw

/-! ## Requests and answers -/

inductive Media where
  | geojson
  | json
  | html
  | protobuf
deriving DecidableEq

structure Content where
  media : Media
  bytes : Text
deriving DecidableEq

/-- An `HTTPException`. -/
structure Failure where
  status : Nat
  detail : Text
deriving DecidableEq

abbrev Answer := Except Failure Content

/-- `GET /collections/{id}/items`. -/
structure ItemsRequest where
  collection : Text
  user : Option Text := none
  params : Params := {}
  bboxOnly : Bool := false
  geometry : Option Bool := none
  skipCount : Option Bool := none
  html : Bool := false
  /-- `request.query_params`, sorted by name. -/
  queryParams : List (Text × Text) := []
  base : Text := []
deriving DecidableEq

/-- `GET /collections/{id}/tiles/dynamic/{z}/{x}/{y}.pbf`. -/
structure TileRequest where
  collection : Text
  user : Option Text := none
  z : Int
  x : Int
  y : Int
  params : Params := {}
  /-- `request.query_params.multi_items()`. -/
  multiItems : List (Text × Text) := []
deriving DecidableEq

inductive Request where
  | items (r : ItemsRequest)
  | tile (r : TileRequest)
deriving DecidableEq

/-- What the answer of the items route is computed from. -/
structure ItemsQuery where
  collection : Text
  limit : Int
  offset : Int
  bbox : Text
  datetime : Text
  sortby : Text
  sortdesc : Bool
  propertyFilters : List (Text × Text)
  filters : List Text
  fulltextQ : Option Text
  properties : Text
  includeGeometry : Bool
  skipCount : Bool
  html : Bool
  /-- The query parameters of the links to other pages. -/
  pageParams : List (Text × Text)
  base : Text
deriving DecidableEq

/-- A page of features as the items route renders it. -/
structure Page where
  /-- The `FeatureCollection` answer. -/
  body : Text
  /-- The features alone, as they are put in the search cache. -/
  geojson : Text
  /-- Geometries were included and some feature has one. -/
  hasGeometry : Bool
  /-- The answer of `bbox_only`. -/
  extent : Text
deriving DecidableEq

/-- The arguments of `get_geojson_for_tile`. -/
structure TileQuery where
  collection : Text
  z : Int
  x : Int
  y : Int
  limit : Option Int
  offset : Int
  sortby : Text
  sortdesc : Bool
  bbox : Text
  datetime : Text
  filter : List Text
  q : Option Text
  ids : Option (List Text)
deriving DecidableEq

/-- The arguments of `get_search_result_geojson`. -/
structure SearchQuery where
  collection : Text
  limit : Int
  offset : Int
  sortby : Text
  sortdesc : Bool
  bbox : Text
  datetime : Text
  filter : List Text
  q : Option Text
  ids : Option (List Text)
deriving DecidableEq

inductive Kind where
  | vector
  | raster
  | composite (hasMembers : Bool)
deriving DecidableEq

/-- What `get_geojson_for_tile` may raise. -/
inductive FetchError where
  | valueError (message : Text)
  | dbError (message : Text)
deriving DecidableEq

/-- The fixed database, the encoder and the tile worker, as functions. -/
structure Site where
  kind : Text → Kind
  canSee : Option Text → Text → Bool
  /-- Whether the text of a bounding box is four numbers. -/
  isBbox : Text → Bool
  load : ItemsQuery → Except Failure Page
  renderHtml : ItemsRequest → Page → Text
  isExactSearchToken : Text → Bool
  resolveExact : Text → Text → Int → List Text
  compositeTile : Text → Int → Int → Int → Text
  tileGeojson : TileQuery → Except FetchError Text
  searchGeojson : SearchQuery → Except Text Text
  filterToTile : Int → Int → Int → Text → Text
  selectProperties : List Text → Text → Text
  /-- `json.loads` and whether the collection has features. -/
  hasFeatures : Text → Except Text Bool
  encode : Text → Int → Int → Int → Text → Except Text Text
  /-- The HTTP tile worker, where one is configured. -/
  worker : Option (Text → Int → Int → Int → List (Text × Text) → Except Text Text)

/-! ## The items route -/

namespace ItemsRequest

def limit (cfg : Settings) (r : ItemsRequest) : Int :=
  min (if r.html && !r.queryParams.any (·.1 == "limit".toList) then 10
    else r.params.limit.getD cfg.itemsDefaultLimit) cfg.itemsMaxLimit

/-- The parameters of the key: the limit in effect and the filters line by line. -/
def keyParams (cfg : Settings) (r : ItemsRequest) : Params :=
  { r.params with
    limit := some (r.limit cfg)
    filter := filterLines r.params.filter
    ids := none }

def reserved : List Text :=
  ["limit".toList, "offset".toList, "bbox".toList, "datetime".toList, "sortby".toList,
   "sortdesc".toList, "properties".toList, "filter".toList, "q".toList, "f".toList,
   "bbox_only".toList, "force".toList, "geometry".toList, "skip_count".toList]

def propertyFilters (r : ItemsRequest) : List (Text × Text) :=
  r.queryParams.filter fun e => Sql.lower e.1 ∉ reserved

def hasItemFilters (site : Site) (r : ItemsRequest) : Bool :=
  site.isBbox (orEmpty r.params.bbox) || !(orEmpty r.params.datetime).isEmpty ||
    !(filterLines r.params.filter).isEmpty || filled r.params.q || !r.propertyFilters.isEmpty

def includeGeometry (cfg : Settings) (site : Site) (r : ItemsRequest) : Bool :=
  r.geometry.getD
    (!r.html || site.kind r.collection == .raster ||
      (r.hasItemFilters site && decide (r.limit cfg ≤ 25)))

def query (cfg : Settings) (site : Site) (r : ItemsRequest) : ItemsQuery where
  collection := r.collection
  limit := r.limit cfg
  offset := r.params.offset
  bbox := orEmpty r.params.bbox
  datetime := orEmpty r.params.datetime
  sortby := orEmpty r.params.sortby
  sortdesc := r.params.sortdesc
  propertyFilters := r.propertyFilters
  filters := filterLines r.params.filter
  fulltextQ := if filled r.params.q then some (strip (orEmpty r.params.q)) else none
  properties := orEmpty r.params.properties
  includeGeometry := r.includeGeometry cfg site
  skipCount := r.skipCount.getD r.html
  html := r.html
  pageParams := r.queryParams.filter fun e => e.1 ≠ "offset".toList ∧ e.1 ≠ "limit".toList
  base := r.base

/-- `q` with fewer than four characters. -/
def shortQ (q : Option Text) : Bool := filled q && decide ((strip (orEmpty q)).length < 4)

/-- Whether the answer is looked up and stored in the items list cache. -/
def cacheable (r : ItemsRequest) : Bool := !r.html && !r.bboxOnly

end ItemsRequest

def collectionNotFound : Failure := ⟨404, "Collection not found".toList⟩

def shortSearch : Failure :=
  ⟨400, "Full-text search (q) requires at least 4 characters.".toList⟩

/-- `cached` of the items route: an empty value counts as none. -/
def cachedItems (cfg : Settings) (D : Digest) (r : ItemsRequest) (ks : Store) : Option Text :=
  if r.cacheable then
    (getItemsList cfg ks r.collection (paramsKeyFromQuery D (r.keyParams cfg))).filter (!·.isEmpty)
  else none

/-- Puts the page in the search cache, for tiles with the same parameters. -/
def warm (cfg : Settings) (D : Digest) (r : ItemsRequest) (page : Page) (ks : Store) : Store :=
  if page.hasGeometry then
    setSearchResult cfg ks r.collection (paramsKeyFromQuery D (r.keyParams cfg)) page.geojson
  else ks

/-- The rest of the route after a miss. -/
def loadItems (cfg : Settings) (site : Site) (D : Digest) (r : ItemsRequest) (ks : Store) :
    Answer × Store :=
  match site.load (r.query cfg site) with
  | .error e => (.error e, ks)
  | .ok page =>
    if r.bboxOnly then (.ok ⟨.json, page.extent⟩, ks)
    else if r.html then (.ok ⟨.html, site.renderHtml r page⟩, warm cfg D r page ks)
    else
      (.ok ⟨.geojson, page.body⟩,
        setItemsList cfg (warm cfg D r page ks) r.collection
          (paramsKeyFromQuery D (r.keyParams cfg)) page.body)

def listItems (cfg : Settings) (site : Site) (D : Digest) (r : ItemsRequest) (ks : Store) :
    Answer × Store :=
  if !site.canSee r.user r.collection then (.error collectionNotFound, ks)
  else if ItemsRequest.shortQ r.params.q then (.error shortSearch, ks)
  else
    match cachedItems cfg D r ks with
    | some cached => (.ok ⟨.geojson, cached⟩, ks)
    | none => loadItems cfg site D r ks

/-! ## The tile route -/

namespace TileRequest

/-- `orig_q`: a short text is ignored. -/
def origQ (r : TileRequest) : Option Text :=
  if ItemsRequest.shortQ r.params.q then none else r.params.q

def keyParams (r : TileRequest) : Params := { r.params with q := r.origQ }

/-- `feature_ids` as the client gave them. -/
def givenIds (r : TileRequest) : List Text := splitComma (orEmpty r.params.ids)

/-- Whether `q` is resolved to feature ids. -/
def exact (site : Site) (r : TileRequest) : Bool :=
  filled r.origQ && r.givenIds.isEmpty && site.isExactSearchToken (orEmpty r.origQ)

def resolvedIds (cfg : Settings) (site : Site) (r : TileRequest) : List Text :=
  site.resolveExact r.collection (strip (orEmpty r.origQ))
    (min (r.params.limit.getD cfg.itemsDefaultLimit) 50)

/-- `feature_ids`, after the resolution. -/
def featureIds (cfg : Settings) (site : Site) (r : TileRequest) : Option (List Text) :=
  if r.exact site then some (r.resolvedIds cfg site)
  else if (orEmpty r.params.ids).isEmpty then none
  else some r.givenIds

def hasQueryParams (cfg : Settings) (site : Site) (r : TileRequest) : Bool :=
  r.params.limit.isSome || decide (r.params.offset ≠ 0) || filled r.params.sortby ||
    r.params.sortdesc || filled r.params.bbox || filled r.params.datetime ||
    !r.params.filter.isEmpty || filled r.origQ || !((r.featureIds cfg site).getD []).isEmpty ||
    filled r.params.ids || !(splitComma (orEmpty r.params.properties)).isEmpty

/-- The query of the default path. -/
def query (cfg : Settings) (site : Site) (r : TileRequest) : TileQuery where
  collection := r.collection
  z := r.z
  x := r.x
  y := r.y
  limit := r.params.limit
  offset := r.params.offset
  sortby := orEmpty r.params.sortby
  sortdesc := r.params.sortdesc
  bbox := orEmpty r.params.bbox
  datetime := orEmpty r.params.datetime
  filter := r.params.filter
  q := if r.exact site then none else if filled r.origQ then r.origQ else none
  ids := r.featureIds cfg site

/-- The query of a filtered composite tile: the client's `q`, and its ids or the resolved ones. -/
def compositeQuery (cfg : Settings) (site : Site) (r : TileRequest) : TileQuery :=
  { r.query cfg site with
    q := if filled r.origQ then r.origQ else none
    ids :=
      if (orEmpty r.params.ids).isEmpty then
        if r.exact site && !(r.resolvedIds cfg site).isEmpty then
          some (splitComma ([','].intercalate (r.resolvedIds cfg site)))
        else none
      else some r.givenIds }

def listSyncMode (r : TileRequest) : Bool :=
  r.params.limit.isSome || decide (r.params.offset ≠ 0) || filled r.params.sortby ||
    filled r.origQ || filled r.params.ids

def filterOnlyMode (cfg : Settings) (site : Site) (r : TileRequest) : Bool :=
  !r.params.filter.isEmpty && !r.listSyncMode && ((r.featureIds cfg site).getD []).isEmpty

def useSearchCache (cfg : Settings) (site : Site) (r : TileRequest) : Bool :=
  r.hasQueryParams cfg site && decide (0 < cfg.tilesSearchResultCacheTtlSeconds) &&
    (r.listSyncMode || r.filterOnlyMode cfg site)

def searchLimit (cfg : Settings) (site : Site) (r : TileRequest) : Int :=
  if r.filterOnlyMode cfg site then
    if cfg.tilesFilterMaxFeatures ≠ 0 then cfg.tilesFilterMaxFeatures
    else max cfg.tilesMvtMaxFeatures (max cfg.itemsMaxLimit 10000)
  else r.params.limit.getD cfg.itemsDefaultLimit

def searchQuery (cfg : Settings) (site : Site) (r : TileRequest) : SearchQuery where
  collection := r.collection
  limit := r.searchLimit cfg site
  offset := r.params.offset
  sortby := orEmpty r.params.sortby
  sortdesc := r.params.sortdesc
  bbox := orEmpty r.params.bbox
  datetime := orEmpty r.params.datetime
  filter := r.params.filter
  q := if filled r.origQ then r.origQ else none
  ids := if (orEmpty r.params.ids).isEmpty then none else some r.givenIds

def paramsKey (D : Digest) (r : TileRequest) : ParamsKey := paramsKeyFromQuery D r.keyParams

end TileRequest

def invalidZ : Failure := ⟨400, "Invalid z".toList⟩

def invalidXY : Failure := ⟨400, "Invalid x or y for zoom".toList⟩

def cacheMissing : Failure := ⟨503, "Search result cache missing after ensure".toList⟩

def cacheBusy : Failure := ⟨503, "Dynamic tile search cache busy; retry".toList⟩

/-- Words in the message of a database error that stand for a broken geometry. -/
def geometryTokens : List Text :=
  ["geom".toList, "geometry".toList, "topology".toList, "invalid".toList, "noding".toList,
   "self-intersection".toList, "self intersection".toList, "non-noded".toList, "cwring".toList,
   "isvalid".toList]

def emptyCollection : Text := "\x7b\"type\":\"FeatureCollection\",\"features\":[]\x7d".toList

/-- The GeoJSON of the default path: a broken geometry gives an empty tile. -/
def fetchGeojson (site : Site) (q : TileQuery) : Except Failure Text :=
  match site.tileGeojson q with
  | .ok g => .ok g
  | .error (.valueError message) => .error ⟨404, message⟩
  | .error (.dbError message) =>
    if geometryTokens.any fun t => Sql.contains t (Sql.lower message) then .ok emptyCollection
    else .error ⟨500, message⟩

/-- The MVT of the default path: an encoder that fails gives an empty tile. -/
def encodeOrEmpty (site : Site) (c : Text) (z x y : Int) (g : Text) : Text :=
  match site.hasFeatures g with
  | .ok true =>
    match site.encode c z x y g with
    | .ok payload => payload
    | .error _ => []
  | _ => []

/-- The tile of the default path, or of the HTTP worker where one is configured. -/
def defaultTile (cfg : Settings) (site : Site) (r : TileRequest) : Except Failure Text :=
  match site.worker with
  | some call =>
    match call r.collection r.z r.x r.y r.multiItems with
    | .ok payload => .ok payload
    | .error e => .error ⟨502, "Dynamic tile worker error: ".toList ++ e⟩
  | none =>
    match fetchGeojson site (r.query cfg site) with
    | .error e => .error e
    | .ok g =>
      .ok (encodeOrEmpty site r.collection r.z r.x r.y
        (site.selectProperties (splitComma (orEmpty r.params.properties)) g))

/-- The tile of a filtered composite collection. -/
def compositeFilteredTile (cfg : Settings) (site : Site) (r : TileRequest) : Except Failure Text :=
  match site.tileGeojson (r.compositeQuery cfg site) with
  | .error (.valueError message) => .error ⟨500, message⟩
  | .error (.dbError message) => .error ⟨500, message⟩
  | .ok g =>
    match site.encode r.collection r.z r.x r.y g with
    | .ok payload => .ok payload
    | .error e => .error ⟨500, "Composite tile build failed: ".toList ++ e⟩

/-- The tile cut out of a search result. -/
def searchTile (site : Site) (r : TileRequest) (g : Text) : Except Failure Text :=
  if g.isEmpty then .error cacheMissing
  else if site.hasFeatures (site.filterToTile r.z r.x r.y g) = .ok false then .ok []
  else
    match site.encode r.collection r.z r.x r.y (site.filterToTile r.z r.x r.y g) with
    | .ok payload => .ok payload
    | .error e => .error ⟨500, "Tile build failed: ".toList ++ e⟩

/-- Answers with a tile and stores it. -/
def store (cfg : Settings) (ks : Store) (k : Key) (t : Except Failure Text) : Answer × Store :=
  match t with
  | .ok payload => (.ok ⟨.protobuf, payload⟩, write cfg ks k payload)
  | .error e => (.error e, ks)

/-- Serves a key: the stored tile, else the computed one, which is stored. -/
def lookAside (cfg : Settings) (ks : Store) (k : Key) (t : Except Failure Text) : Answer × Store :=
  match read cfg ks k with
  | some payload => (.ok ⟨.protobuf, payload⟩, ks)
  | none => store cfg ks k t

/-- `ensure_search_result_cached`, run by one request at a time: the store afterwards, or nothing
where the query failed. -/
def ensureSearchResultCached (cfg : Settings) (site : Site) (D : Digest) (r : TileRequest)
    (ks : Store) : Option Store :=
  match getSearchResult cfg ks r.collection (r.paramsKey D) with
  | some _ => some ks
  | none =>
    match site.searchGeojson (r.searchQuery cfg site) with
    | .ok g => some (setSearchResult cfg ks r.collection (r.paramsKey D) g)
    | .error _ => none

/-- The search path, after the first look at the tile cache. -/
def searchPath (cfg : Settings) (site : Site) (D : Digest) (r : TileRequest) (ks : Store) :
    Answer × Store :=
  match ensureSearchResultCached cfg site D r ks with
  | none => (.error cacheBusy, ks)
  | some ks =>
    match getTileWithParams cfg ks r.collection r.z r.x r.y (r.paramsKey D) with
    | some payload => (.ok ⟨.protobuf, payload⟩, ks)
    | none =>
      match getSearchResult cfg ks r.collection (r.paramsKey D) with
      | none => (.error cacheMissing, ks)
      | some g =>
        store cfg ks (.tileParams r.collection r.z r.x r.y (r.paramsKey D)) (searchTile site r g)

/-- The requests that are answered before any cache or tile is looked at. -/
def refusal (site : Site) (r : TileRequest) : Option Failure :=
  if r.z < 0 ∨ 22 < r.z then some invalidZ
  else if r.x < 0 ∨ 2 ^ r.z.toNat ≤ r.x ∨ r.y < 0 ∨ 2 ^ r.z.toNat ≤ r.y then some invalidXY
  else if !site.canSee r.user r.collection then some collectionNotFound
  else none

/-- Tiles of a collection that is not a composite one. -/
def vectorTile (cfg : Settings) (site : Site) (D : Digest) (r : TileRequest) (ks : Store) :
    Answer × Store :=
  if !r.hasQueryParams cfg site then
    lookAside cfg ks (.tile r.collection r.z r.x r.y) (defaultTile cfg site r)
  else if r.useSearchCache cfg site then
    match getTileWithParams cfg ks r.collection r.z r.x r.y (r.paramsKey D) with
    | some payload => (.ok ⟨.protobuf, payload⟩, ks)
    | none => searchPath cfg site D r ks
  else
    lookAside cfg ks (.tileParams r.collection r.z r.x r.y (r.paramsKey D))
      (defaultTile cfg site r)

def getTilesDynamic (cfg : Settings) (site : Site) (D : Digest) (r : TileRequest) (ks : Store) :
    Answer × Store :=
  match refusal site r with
  | some e => (.error e, ks)
  | none =>
    match site.kind r.collection with
    | .composite false => (.ok ⟨.protobuf, []⟩, ks)
    | .composite true =>
      if r.hasQueryParams cfg site then
        lookAside cfg ks (.tileParams r.collection r.z r.x r.y (r.paramsKey D))
          (compositeFilteredTile cfg site r)
      else (.ok ⟨.protobuf, site.compositeTile r.collection r.z r.x r.y⟩, ks)
    | .vector | .raster => vectorTile cfg site D r ks

/-! ## Sequences of requests -/

def serve (cfg : Settings) (site : Site) (D : Digest) : Request → Store → Answer × Store
  | .items r, ks => listItems cfg site D r ks
  | .tile r, ks => getTilesDynamic cfg site D r ks

/-- The answers to a sequence of requests, from an empty cache on. -/
def serveAll (cfg : Settings) (site : Site) (D : Digest) : List Request → Store → List Answer
  | [], _ => []
  | r :: rs, ks =>
    (serve cfg site D r ks).1 :: serveAll cfg site D rs (serve cfg site D r ks).2

/-- The answer with every cache switched off. -/
def uncached (cfg : Settings) (site : Site) (D : Digest) (r : Request) : Answer :=
  (serve cfg.disabled site D r []).1

end Cache
end Geofastmap
