import Mathlib.Data.Char
import Mathlib.Data.List.Lex
import Mathlib.Data.List.Sort
import Mathlib.Data.Rat.Defs
import Geofastmap.Sql.Text
import Geofastmap.Stac.Federation

/-!
# Geofastmap.Mosaic.Collect

The features for a mosaic: the searches of the datetime slices of a box, one after the other
without duplicates (`collect_stac_features`), and the pool of the planner over boxes and rounds.

* `lossless_iff` : the pool holds each upstream item once exactly when the texts by which items are
  compared tell them apart.
* `cloud_cover_respected` : the cloud limit is respected as far as the servers respect it.
-/

namespace Geofastmap
namespace Mosaic

open Import Stac

/-! ## Candidates -/

/-- The text of `_dedupe_key`. -/
def dedupeText (name : Text × Text × Text) : Text := name.1 ++ ':' :: name.2.1 ++ ':' :: name.2.2

/-- `_dedupe_key`. -/
def dedupeKey (f : Item) : Text := dedupeText f.name

/-- What the planner takes from Shapely and from Python: `_footprint_geom` of an item, when it is
not empty, `float(v)` and `datetime.fromisoformat(s).timestamp()`. -/
structure Readings (G : Type) where
  footprint : Item → Option G
  float : Json → Option Rat
  timestamp : Text → Option Rat

inductive SortMode where
  | lowestCloud | newestFirst
deriving DecidableEq, Repr

/-- `_cloud_cover`. -/
def cloudCover (float : Json → Option Rat) (f : Item) : Option Rat :=
  ["eo:cloud_cover", "cloud_cover", "cloud"].findSome? fun k =>
    match f.property k with
    | .null => none
    | v => float v

/-- `_item_datetime`. -/
def itemDatetime (timestamp : Text → Option Rat) (f : Item) : Option Rat :=
  ["datetime", "start_datetime", "end_datetime"].findSome? fun k =>
    let s := strip (textOf (f.property k))
    if s.isEmpty then none
    else timestamp ((s.flatMap fun ch => if ch = 'Z' then "+00:00".toList else [ch]).take 19)

/-- `href.startswith("http")` of an asset. -/
def assetHref (a : Dict) : Option Text :=
  match Json.get a "href".toList with
  | .str href => if "http".toList.isPrefixOf href then some href else none
  | _ => none

/-- `primary_raster_href`. -/
def primaryRasterHref (f : Item) : Option Text :=
  match Json.get f.members "assets".toList with
  | .obj assets =>
    let preferred := ["visual", "image", "cog", "B04", "red", "green", "blue", "nir"].findSome?
      fun key => match Json.get assets key.toList with
        | .obj a => assetHref a
        | _ => none
    preferred.or (assets.findSome? fun member => match member.2 with
      | .obj a =>
        let t := Sql.lower (textOf (Json.get a "type".toList))
        (assetHref a).filter fun href => Sql.contains "tif".toList (Sql.lower href) ||
          Sql.contains "image".toList t || Sql.contains "geotiff".toList t
      | _ => none)
  | _ => none

/-- `thumbnail_href`. -/
def thumbnailHref (str : Json → Text) (f : Item) : Option Text :=
  match Json.get f.members "assets".toList with
  | .obj assets =>
    let preferred := ["thumbnail", "thumb", "preview", "rendered_preview", "browse",
      "overview"].findSome? fun key => match Json.get assets key.toList with
        | .obj a => assetHref a
        | _ => none
    preferred.or (assets.findSome? fun member => match member.2 with
      | .obj a =>
        let t := Sql.lower (textOf (Json.get a "type".toList))
        let roles := match Json.get a "roles".toList with
          | .arr xs => (xs.map fun x => Sql.lower (str x)).intersperse [' '] |>.flatten
          | x => if x.truthy then Sql.lower (str x) else []
        (assetHref a).filter fun href =>
          (["thumbnail", "preview"].any fun w => Sql.contains w.toList roles) ||
          (["png", "jpeg", "jpg"].any fun w => Sql.contains w.toList t) ||
          [".png", ".jpg", ".jpeg", ".webp"].any fun w => w.toList.isSuffixOf (Sql.lower href)
      | _ => none)
  | _ => none

structure Candidate (G : Type) where
  feature : Item
  geom : G
  href : Text
  key : Text
  cloud : Option Rat
  dt : Option Rat

variable {G : Type} (r : Readings G)

/-- A feature with a footprint and a raster is a candidate. -/
def candidate (f : Item) : Option (Candidate G) := do
  let geom ← r.footprint f
  let href ← primaryRasterHref f
  return {
    feature := f, geom, href
    key := dedupeKey f
    cloud := cloudCover r.float f
    dt := itemDatetime r.timestamp f }

/-- `_sort_key_lowest_cloud`, `_sort_key_newest`. -/
def sortKey (mode : SortMode) (c : Candidate G) : Rat × Text :=
  match mode with
  | .lowestCloud => (c.cloud.getD 1000000000, c.key)
  | .newestFirst => ((c.dt.map fun t => -t).getD (-1000000000), c.key)

/-- The order of tuples. -/
def tupleLe (x y : Rat × Text) : Bool := decide (x.1 < y.1 ∨ (x.1 = y.1 ∧ x.2 ≤ y.2))

def sortCandidates (mode : SortMode) (cands : List (Candidate G)) : List (Candidate G) :=
  cands.insertionSort fun c d => tupleLe (sortKey mode c) (sortKey mode d)

/-! ## Collecting -/

/-- The features of the datetime slices without duplicates. -/
def mergedFeats (batches : List (List Item)) : List Item :=
  Keyed.keepFirst dedupeKey [] batches.flatten

/-- The errors of the catalogs that failed in every slice. -/
def collectErrors (catalogIds : List Text) (errs : List (List (Text × Text))) :
    List (Text × Text) :=
  let succeeded := errs.flatMap fun es =>
    catalogIds.filter fun c => !c.isEmpty && !(es.map Prod.fst).contains c
  Keyed.keepFirst Prod.fst []
    (errs.flatten.filter fun e => !e.1.isEmpty && !succeeded.contains e.1)

/-- The servers while a datetime slice is searched, and at an earlier search for the same. -/
structure Slice where
  datetime : Text
  servers : Catalog → Server
  earlier : Option (Catalog → Server)

/-- `collect_stac_features`. -/
def collectStacFeatures (s : Stac.Settings) (catalogs : List Catalog) (stacCollection : Text)
    (bbox : List Rat) (slices : List Slice) (cloudCoverMax : Option Rat) (mode : SortMode)
    (fetchLimit : Int) : Except Text (List Item × List (Text × Text)) := do
  let batches ← slices.mapM fun slice =>
    executeStacSearch s slice.earlier slice.servers catalogs
      { limit := fetchLimit, bbox, collections := some [stacCollection]
        datetime := slice.datetime, cloudCoverMax }
  let cands := (mergedFeats (batches.map Prod.fst)).filterMap (candidate r)
  return ((sortCandidates mode cands).map Candidate.feature,
    collectErrors (catalogs.map Catalog.id) (batches.map Prod.snd))

/-! ## The pool -/

/-- The features of a round over its boxes (`merged_local`). -/
def roundFeats (collected : List (List Item)) : List Item :=
  Keyed.setItems dedupeKey [] collected.flatten

/-- The features over all rounds (`merged`). -/
def poolFeats (rounds : List (List (List Item))) : List Item :=
  rounds.foldl (fun merged collected => Keyed.setItems dedupeKey merged (roundFeats collected)) []

/-- The upstream answers to one search, with the labels of the catalogs. -/
structure Upstream where
  parts : List (Option (List (Option Item)))
  catalogLabels : List Text

def Upstream.items (u : Upstream) : List Item := stamped u.parts u.catalogLabels

def Upstream.merged (u : Upstream) : List Item := mergeItemCollections u.parts u.catalogLabels

/-- The searches of a planner: rounds of boxes of datetime slices. -/
abbrev Rounds := List (List (List Upstream))

def Rounds.searches (rounds : Rounds) : List Upstream := rounds.flatten.flatten

/-- Catalog, collection and item id of the upstream items. -/
def Rounds.names (rounds : Rounds) : List (Text × Text × Text) :=
  rounds.searches.flatMap fun u => u.items.map Item.name

/-- The items of the planner. -/
def Rounds.pool (rounds : Rounds) : List Item :=
  poolFeats (rounds.map fun boxes => boxes.map fun slices => mergedFeats (slices.map Upstream.merged))

/-- Each upstream item is in the pool once. -/
def Rounds.Lossless (rounds : Rounds) : Prop :=
  ∀ t ∈ rounds.names, (rounds.pool.filter fun f => f.name = t).length = 1

/-- In some search an item is the first with its text `catalog:id`, and no other item has its text
`catalog:collection:id`. -/
def Rounds.Separated (rounds : Rounds) : Prop :=
  (∀ t ∈ rounds.names, ∃ u ∈ rounds.searches, ∃ f,
    u.items.find? (fun g => mergeKey g.name = mergeKey t) = some f ∧ f.name = t) ∧
  ∀ t ∈ rounds.names, ∀ t' ∈ rounds.names, dedupeText t = dedupeText t' → t = t'

theorem poolFeats_eq (rounds : List (List (List Item))) :
    poolFeats rounds = Keyed.setItems dedupeKey [] (rounds.flatMap roundFeats) := by
  unfold poolFeats
  generalize ([] : List Item) = merged
  induction rounds generalizing merged with
  | nil => rfl
  | cons collected rounds ih =>
    rw [List.foldl_cons, ih, List.flatMap_cons, Keyed.setItems, Keyed.setItems, Keyed.setItems,
      List.foldl_append]

theorem mergedFeats_keeps (batches : List (List Item)) :
    Keyed.Keeps dedupeKey batches.flatten (mergedFeats batches) :=
  Keyed.keepFirst_keeps dedupeKey _

/-- What the merges of the searches let through is in the pool by its key. -/
theorem pool_keeps (rounds : Rounds) :
    Keyed.Keeps dedupeKey (rounds.searches.flatMap Upstream.merged) rounds.pool := by
  have hbox (slices : List Upstream) : Keyed.Keeps dedupeKey (slices.flatMap Upstream.merged)
      (mergedFeats (slices.map Upstream.merged)) := by
    rw [List.flatMap_def]
    exact mergedFeats_keeps _
  have hround (boxes : List (List Upstream)) :
      Keyed.Keeps dedupeKey (boxes.flatMap fun slices => slices.flatMap Upstream.merged)
        (roundFeats (boxes.map fun slices => mergedFeats (slices.map Upstream.merged))) := by
    have hlocal := Keyed.setItems_keeps dedupeKey []
      (boxes.flatMap fun slices => mergedFeats (slices.map Upstream.merged))
    rw [List.nil_append] at hlocal
    unfold roundFeats
    rw [← List.flatMap_def]
    exact (Keyed.Keeps.flatMap hbox boxes).trans hlocal
  unfold Rounds.pool Rounds.searches
  rw [poolFeats_eq, List.flatMap_map]
  have hpool := Keyed.setItems_keeps dedupeKey [] (rounds.flatMap fun boxes =>
    roundFeats (boxes.map fun slices => mergedFeats (slices.map Upstream.merged)))
  rw [List.nil_append] at hpool
  refine Keyed.Keeps.trans ?_ hpool
  have hflat : rounds.flatten.flatten.flatMap Upstream.merged =
      rounds.flatMap fun boxes => boxes.flatMap fun slices => slices.flatMap Upstream.merged := by
    simp [List.flatMap_def, List.map_flatten, List.flatten_flatten, List.map_map, Function.comp_def]
  rw [hflat]
  exact Keyed.Keeps.flatMap hround rounds

theorem pool_nodup (rounds : Rounds) : (rounds.pool.map dedupeKey).Nodup := by
  unfold Rounds.pool
  rw [poolFeats_eq]
  exact Keyed.setItems_nodup dedupeKey (by simp) _

theorem mem_names {rounds : Rounds} {t : Text × Text × Text} :
    t ∈ rounds.names ↔ ∃ u ∈ rounds.searches, ∃ f ∈ u.items, f.name = t := by
  simp [Rounds.names, List.mem_flatMap, List.mem_map]

theorem mem_merged {u : Upstream} {f : Item} :
    f ∈ u.merged ↔ u.items.find? (fun g => mergeKey g.name = mergeKey f.name) = some f :=
  mem_mergeItemCollections

/-- The first part of `Separated`: each name gets through the merge of a search. -/
theorem survives_iff {rounds : Rounds} {t : Text × Text × Text} :
    (∃ f ∈ rounds.searches.flatMap Upstream.merged, f.name = t) ↔
      ∃ u ∈ rounds.searches, ∃ f,
        u.items.find? (fun g => mergeKey g.name = mergeKey t) = some f ∧ f.name = t := by
  simp only [List.mem_flatMap]
  constructor
  · rintro ⟨f, ⟨u, hu, hf⟩, rfl⟩
    exact ⟨u, hu, f, mem_merged.mp hf, rfl⟩
  · rintro ⟨u, hu, f, hf, rfl⟩
    exact ⟨f, ⟨u, hu, mem_merged.mpr hf⟩, rfl⟩

theorem lossless_iff (rounds : Rounds) : rounds.Lossless ↔ rounds.Separated := by
  have hpool := pool_keeps rounds
  have honce (hfirst : ∀ t ∈ rounds.names, ∃ f ∈ rounds.searches.flatMap Upstream.merged,
      f.name = t) : rounds.Lossless ↔
        ∀ t ∈ rounds.names, ∀ t' ∈ rounds.names, dedupeText t = dedupeText t' → t = t' := by
    refine Keyed.names_once_iff (fun f => rfl) (fun t => ⟨hfirst t, ?_⟩) hpool (pool_nodup rounds)
    rintro ⟨f, hf, rfl⟩
    obtain ⟨u, hu, hmerged⟩ := List.mem_flatMap.mp hf
    exact mem_names.mpr ⟨u, hu, f, (Keyed.keepFirst_keeps _ _).subset f hmerged, rfl⟩
  constructor
  · intro h
    have hfirst (t : Text × Text × Text) (ht : t ∈ rounds.names) :
        ∃ f ∈ rounds.searches.flatMap Upstream.merged, f.name = t := by
      have hpos : 0 < (rounds.pool.filter fun f => f.name = t).length := by
        rw [h t ht]
        omega
      obtain ⟨f, hf⟩ := List.exists_mem_of_length_pos hpos
      simp only [List.mem_filter, decide_eq_true_eq] at hf
      exact ⟨f, hpool.subset f hf.1, hf.2⟩
    exact ⟨fun t ht => survives_iff.mp (hfirst t ht), (honce hfirst).mp h⟩
  · intro h
    exact (honce fun t ht => survives_iff.mpr (h.1 t ht)).mpr h.2

/-- One catalog answers with the same item id in two collections. -/
def twoCollections : Rounds :=
  [[[⟨[some [some ⟨some "T1".toList, some "l1c".toList, none, []⟩,
    some ⟨some "T1".toList, some "l2a".toList, none, []⟩]], ["earth".toList]⟩]]]

theorem two_collections_lost : ¬ ∀ rounds : Rounds, rounds.Lossless := by
  intro h
  have hlost : ¬ twoCollections.Lossless := by
    unfold Rounds.Lossless
    decide
  exact hlost (h twoCollections)

/-! ## The cloud limit -/

theorem cloudCover_stamp (float : Json → Option Rat) (catId : Text) (f : Item) :
    cloudCover float (f.stamp catId) = cloudCover float f := by
  have heo : (f.stamp catId).property "eo:cloud_cover" = f.property "eo:cloud_cover" :=
    property_stamp catId f (by decide) (by decide)
  have hcover : (f.stamp catId).property "cloud_cover" = f.property "cloud_cover" :=
    property_stamp catId f (by decide) (by decide)
  have hcloud : (f.stamp catId).property "cloud" = f.property "cloud" :=
    property_stamp catId f (by decide) (by decide)
  unfold cloudCover
  simp only [List.findSome?_cons, List.findSome?_nil, heo, hcover, hcloud]

/-- The body of the search of a slice. -/
def sliceBody (stacCollection : Text) (bbox : List Rat) (slice : Slice)
    (cloudCoverMax : Option Rat) (fetchLimit : Int) : Body where
  limit := fetchLimit
  bbox := bbox
  collections := some [stacCollection]
  datetime := slice.datetime
  cloudCoverMax := cloudCoverMax

/-- The server gives the item on a page of the search with the limit that was sent, though the item
is above the limit. -/
def Ignores (float : Json → Option Rat) (s : Stac.Settings) (server : Server) (body : Body)
    (f : Item) : Prop :=
  ∃ p n, PageOf server s body p n ∧ some f ∈ p.features ∧
    ∃ limit ∈ body.cloudCoverMax, ∃ c ∈ cloudCover float f, limit < c

theorem mem_sortCandidates {mode : SortMode} {cands : List (Candidate G)} {c : Candidate G} :
    c ∈ sortCandidates mode cands ↔ c ∈ cands :=
  (List.perm_insertionSort _ cands).mem_iff

theorem candidate_feature {f : Item} {c : Candidate G} (h : candidate r f = some c) :
    c.feature = f := by
  unfold candidate at h
  simp only [Option.bind_eq_bind, Option.bind_eq_some_iff] at h
  obtain ⟨geom, -, href, -, hc⟩ := h
  cases hc
  rfl

theorem mapM_mem {α β ε : Type} {f : α → Except ε β} {xs : List α} {ys : List β}
    (h : xs.mapM f = .ok ys) {y : β} (hy : y ∈ ys) : ∃ x ∈ xs, f x = .ok y := by
  induction xs generalizing ys with
  | nil =>
    cases h
    cases hy
  | cons x xs ih =>
    rw [List.mapM_cons] at h
    cases hx : f x with
    | error e =>
      rw [hx] at h
      cases h
    | ok z =>
      cases hxs : xs.mapM f with
      | error e =>
        rw [hx, hxs] at h
        cases h
      | ok zs =>
        rw [hx, hxs] at h
        cases h
        rcases List.mem_cons.mp hy with rfl | hy
        · exact ⟨x, List.mem_cons_self, hx⟩
        · obtain ⟨x', hx', hfx⟩ := ih hxs hy
          exact ⟨x', List.mem_cons_of_mem _ hx', hfx⟩

/-- A result of the cache is a result of the servers of an earlier search. -/
theorem executeStacSearch_ok {s : Stac.Settings} {earlier : Option (Catalog → Server)}
    {servers : Catalog → Server} {catalogs : List Catalog} {body : Body}
    {result : List Item × List (Text × Text)}
    (h : executeStacSearch s earlier servers catalogs body = .ok result) :
    ∃ servers', (servers' = servers ∨ earlier = some servers') ∧
      result = federatedSearch s servers' catalogs body := by
  unfold executeStacSearch at h
  split at h
  · cases h
  · obtain rfl := Except.ok.inj h
    cases earlier with
    | none => exact ⟨servers, Or.inl rfl, rfl⟩
    | some past =>
      rw [Option.map_some, Option.filter_some]
      split
      · exact ⟨past, Or.inr rfl, rfl⟩
      · exact ⟨servers, Or.inl rfl, rfl⟩

/-- Each collected feature is one of the merged features of a slice, from the servers of that
slice or of an earlier search for the same. -/
theorem collectStacFeatures_mem {s : Stac.Settings} {catalogs : List Catalog}
    {stacCollection : Text} {bbox : List Rat} {slices : List Slice} {cloudCoverMax : Option Rat}
    {mode : SortMode} {fetchLimit : Int} {features : List Item} {errors : List (Text × Text)}
    (h : collectStacFeatures r s catalogs stacCollection bbox slices cloudCoverMax mode fetchLimit =
      .ok (features, errors)) {f : Item} (hf : f ∈ features) :
    ∃ slice ∈ slices, ∃ servers, (servers = slice.servers ∨ slice.earlier = some servers) ∧
      f ∈ (federatedSearch s servers catalogs
        (sliceBody stacCollection bbox slice cloudCoverMax fetchLimit)).1 := by
  unfold collectStacFeatures at h
  cases hbatches : slices.mapM fun slice => executeStacSearch s slice.earlier slice.servers catalogs
      { limit := fetchLimit, bbox, collections := some [stacCollection]
        datetime := slice.datetime, cloudCoverMax } with
  | error e =>
    rw [hbatches] at h
    cases h
  | ok batches =>
    rw [hbatches] at h
    obtain ⟨rfl, -⟩ := Prod.mk.inj (Except.ok.inj h)
    obtain ⟨c, hc, rfl⟩ := List.mem_map.mp hf
    obtain ⟨g, hg, hcand⟩ := List.mem_filterMap.mp (mem_sortCandidates.mp hc)
    rw [candidate_feature r hcand]
    have hbatch := (mergedFeats_keeps _).subset g hg
    obtain ⟨feats, hfeats, hmem⟩ := List.mem_flatten.mp hbatch
    obtain ⟨b, hb, rfl⟩ := List.mem_map.mp hfeats
    obtain ⟨slice, hslice, hexec⟩ := mapM_mem hbatches hb
    obtain ⟨servers, hservers, rfl⟩ := executeStacSearch_ok hexec
    exact ⟨slice, hslice, servers, hservers, hmem⟩

/-- A candidate above the limit comes from a catalog whose server ignores the limit of the search
that it is sent, or rejects that search and gives the candidate for the search without it. -/
theorem cloud_cover_respected {s : Stac.Settings} {catalogs : List Catalog}
    {stacCollection : Text} {bbox : List Rat} {slices : List Slice} {limit : Rat}
    {mode : SortMode} {fetchLimit : Int} {features : List Item} {errors : List (Text × Text)}
    (h : collectStacFeatures r s catalogs stacCollection bbox slices (some limit) mode fetchLimit =
      .ok (features, errors)) {f : Item} (hf : f ∈ features) {c : Rat}
    (hc : cloudCover r.float f = some c) :
    c ≤ limit ∨ ∃ slice ∈ slices, ∃ servers,
      (servers = slice.servers ∨ slice.earlier = some servers) ∧
      ∃ cat ∈ catalogs, ∃ g, f = g.stamp cat.id ∧
        let body := sliceBody stacCollection bbox slice (some limit) fetchLimit
        Ignores r.float s (servers cat) body g ∨ GivenWithout (servers cat) s body (some g) := by
  by_cases hle : c ≤ limit
  · exact Or.inl hle
  · right
    obtain ⟨slice, hslice, servers, hservers, hmem⟩ := collectStacFeatures_mem r h hf
    obtain ⟨cat, hcat, fs, g, hsearch, hg, rfl⟩ := federatedSearch_mem hmem
    refine ⟨slice, hslice, servers, hservers, cat, hcat, g, rfl, ?_⟩
    rw [cloudCover_stamp] at hc
    -- the search of a slice names a collection, so it is sent as it is
    have hbody : reqBody cat (sliceBody stacCollection bbox slice (some limit) fetchLimit) =
        sliceBody stacCollection bbox slice (some limit) fetchLimit :=
      if_neg fun hnone => by cases hnone.2
    have hfrom := postSearch_mem (servers cat) hsearch hg
    rw [hbody] at hfrom
    rcases hfrom with ⟨p, n, hpage, hp⟩ | hwithout
    · exact Or.inl ⟨p, n, hpage, hp, limit, rfl, c, hc, Rat.not_le.mp hle⟩
    · exact Or.inr hwithout

/-- A scene with a raster. -/
def scene (cloud : Json) : Item where
  id := some "T1".toList
  collection := some "l2a".toList
  properties := some [("eo:cloud_cover".toList, cloud)]
  members := [("assets".toList,
    .obj [("visual".toList, .obj [("href".toList, .str "https://x/T1.tif".toList)])])]

/-- Numbers of one or two digits, as far as the samples below need them. -/
def smallReadings : Readings Unit where
  footprint _ := some ()
  float
    | .num ds => some (Nat.ofDigitChars 10 ds 0 : Nat)
    | _ => none
  timestamp _ := none

def sampleSettings : Stac.Settings := ⟨0, 1, 10⟩

def earth : Catalog := ⟨"earth".toList, []⟩

/-- A server with one scene that does not know the query extension. -/
def knowsNoQuery (cloud : Nat) : Server := fun _ call =>
  match call with
  | .search body =>
    if body.cloudCoverMax.isSome then .status 400 "HTTP 400 Bad Request".toList
    else .page ⟨[some (scene (.num (Sql.digits cloud)))], []⟩
  | .follow _ _ _ => .status 404 "HTTP 404".toList

def june (server : Server) : Slice := ⟨"2024-06-01/2024-06-30".toList, fun _ => server, none⟩

/-- The scenes that are collected from a server with a limit of 20. -/
def collected (server : Server) : List Item :=
  match collectStacFeatures smallReadings sampleSettings [earth] "l2a".toList [0, 0, 1, 1]
    [june server] (some 20) .lowestCloud 500 with
  | .ok (features, _) => features
  | .error _ => []

theorem limit_dropped : ¬ ∀ server, ∀ f ∈ collected server, ∀ c,
    cloudCover smallReadings.float f = some c → c ≤ 20 := by
  intro h
  have hcloud : cloudCover smallReadings.float ((scene (.num "80".toList)).stamp earth.id) =
      some 80 := by decide
  have hcollected : collected (knowsNoQuery 80) =
      [(scene (.num "80".toList)).stamp earth.id] := rfl
  have hmem : (scene (.num "80".toList)).stamp earth.id ∈ collected (knowsNoQuery 80) := by
    simp [hcollected]
  have hle := h (knowsNoQuery 80) _ hmem 80 hcloud
  revert hle
  decide

/-- What comes above the limit from this server comes from the search without the limit. -/
theorem cloud_cover_respected_knowsNoQuery :
    ∃ g : Item, (scene (.num "80".toList)).stamp earth.id = g.stamp earth.id ∧
      GivenWithout (knowsNoQuery 80) sampleSettings
        (sliceBody "l2a".toList [0, 0, 1, 1] (june (knowsNoQuery 80)) (some 20) 500) (some g) := by
  have hrun : collectStacFeatures smallReadings sampleSettings [earth] "l2a".toList [0, 0, 1, 1]
      [june (knowsNoQuery 80)] (some 20) .lowestCloud 500 =
        .ok ([(scene (.num "80".toList)).stamp earth.id], []) := rfl
  have hcloud : cloudCover smallReadings.float ((scene (.num "80".toList)).stamp earth.id) =
      some 80 := by decide
  have hnopage : ∀ p n, ¬ PageOf (knowsNoQuery 80) sampleSettings
      (sliceBody "l2a".toList [0, 0, 1, 1] (june (knowsNoQuery 80)) (some 20) 500) p n := by
    intro p n hpage
    induction hpage with
    | first hsent hpage => cases hpage
    | linked hcur hlink hsent hpage ih => exact ih
  rcases cloud_cover_respected smallReadings hrun (List.mem_singleton.mpr rfl) hcloud with
    hle | ⟨slice, hslice, servers, hservers, cat, hcat, g, hg, hfrom⟩
  · exact absurd hle (by decide)
  · obtain rfl := List.mem_singleton.mp hslice
    obtain rfl := List.mem_singleton.mp hcat
    obtain rfl : servers = fun _ => knowsNoQuery 80 := by
      rcases hservers with rfl | hnone
      · rfl
      · cases hnone
    rcases hfrom with ⟨p, n, hpage, -⟩ | hwithout
    · exact absurd hpage (hnopage p n)
    · exact ⟨g, hg, hwithout⟩

end Mosaic
end Geofastmap
