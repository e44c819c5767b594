import Mathlib.Tactic.Linarith
import Mathlib.Tactic.NormNum
import Geofastmap.Mosaic.Seeds
import Geofastmap.Stac.Keyed

/-!
# Geofastmap.Mosaic.Index

The tiles of a MosaicJSON document: `build_mosaicjson_from_footprints`.

The query of a tree gives numbers, which have no `wkb`, so a first pass over the tiles of all
footprints finds nothing. The second pass adds each image to the tiles of its own footprint, and
takes no other image away (`index_complete`).
-/

namespace Geofastmap
namespace Mosaic

/-- A tile of the pyramid. -/
@[ext]
structure Tile where
  z : Nat
  x : Nat
  y : Nat
  x_lt : x < 2 ^ z
  y_lt : y < 2 ^ z
deriving DecidableEq

/-- `mercantile.Tile(x=0, y=0, z=0)`. -/
def Tile.root : Tile := ⟨0, 0, 0, Nat.one_pos, Nat.one_pos⟩

/-- What the index takes from mercantile. `tiles` gives the tiles that are found, and whether it
raises after them. -/
structure Mercantile where
  tiles : Bbox → Nat → List Tile × Bool
  quadkey : Tile → Text
  bounds : Tile → Bbox

/-- What the index takes from Shapely, without a result where it raises. A query gives geometries,
or numbers (`none`) with which nothing else works. -/
structure IndexShapely (G : Type) where
  isValid : G → Option Bool
  makeValid : G → Option G
  buffer : G → Rat → Option G
  isEmpty : G → Bool
  unaryUnion : List G → Option G
  bounds : G → Option Bbox
  wkb : G → Option Text
  box : Bbox → G
  intersects : G → G → Option Bool
  query : List G → G → Option (List (Option G))

variable {G : Type} (sh : IndexShapely G) (mc : Mercantile)

/-- `make_valid(g) if not g.is_valid else g`. -/
def validFootprint (g : G) : Option G := do
  if ← sh.isValid g then return g else sh.makeValid g

/-- `_footprint_for_mosaic_index`. -/
def footprintForMosaicIndex (g : G) : G :=
  ((validFootprint sh g).bind fun gg =>
    (sh.buffer gg (1 / 1000000)).map fun buf => if sh.isEmpty buf then gg else buf).getD g

/-! ## The first pass -/

/-- `geom_url_map.get(g.wkb, [])`, without a result where `g.wkb` raises. -/
def urlsOf (assets : List (Text × G)) (g : G) : List Text :=
  match sh.wkb g with
  | none => []
  | some w => (assets.filter fun a => sh.wkb a.2 == some w).map Prod.fst

/-- `here`. -/
def urlsHere (assets : List (Text × G)) (tile : Tile) : List Text :=
  let tb := sh.box (mc.bounds tile)
  let geoms := assets.map Prod.snd
  let candidates := (sh.query geoms tb).getD (geoms.map some)
  Keyed.keepFirst id [] (candidates.flatMap fun
    | none => []
    | some g => if sh.intersects tb g == some true then urlsOf sh assets g else [])

/-- One tile of the first pass. -/
def indexTile (assets : List (Text × G)) (tiles : List (Text × List Text)) (tile : Tile) :
    List (Text × List Text) :=
  let here := urlsHere sh mc assets tile
  if here.isEmpty then tiles else Keyed.setItem Prod.fst tiles (mc.quadkey tile, here)

/-! ## The second pass -/

def pad : Rat := 1 / 100000

/-- The padded bounds of a footprint. -/
def paddedBounds (b : Bbox) : Bbox where
  minx := max (-180) (b.minx - pad)
  miny := max (-85) (b.miny - pad)
  maxx := min 180 (b.maxx + pad)
  maxy := min 85 (b.maxy + pad)

/-- `tiles.setdefault(qk, [])`, and the url is appended unless it is there. -/
def register (tiles : List (Text × List Text)) (qk url : Text) : List (Text × List Text) :=
  let urls := (tiles.lookup qk).getD []
  if url ∈ urls then tiles else Keyed.setItem Prod.fst tiles (qk, urls ++ [url])

/-- The tiles of an image, or the tile of the whole world. -/
def assetTiles (zoom : Nat) (g : G) : List Tile :=
  let found := (mc.tiles (paddedBounds ((sh.bounds g).getD ⟨-180, -85, 180, 85⟩)) zoom).1
  if found.isEmpty then [Tile.root] else found

/-- One image of `_ensure_all_raster_assets_in_mosaic_tiles`. -/
def ensureAsset (zoom : Nat) (tiles : List (Text × List Text)) (asset : Text × G) :
    List (Text × List Text) :=
  (assetTiles sh mc zoom asset.2).foldl (fun t tile => register t (mc.quadkey tile) asset.1) tiles

/-- The images with their inflated footprints. -/
def indexAssets (items : List (Text × G)) : List (Text × G) :=
  items.map fun item => (item.1, footprintForMosaicIndex sh item.2)

/-- `tiles`, with the tiles of all footprints. -/
def indexTiles (items : List (Text × G)) (zoom : Nat) (found : List Tile) :
    List (Text × List Text) :=
  let assets := indexAssets sh items
  let tiles := assets.foldl (ensureAsset sh mc zoom) (found.foldl (indexTile sh mc assets) [])
  if tiles.isEmpty then [(mc.quadkey Tile.root, Keyed.keepFirst id [] (items.map Prod.fst))]
  else tiles

/-! ## The document -/

structure MosaicJson where
  mosaicjson : Text
  version : Text
  minzoom : Int
  maxzoom : Int
  quadkeyZoom : Nat
  bounds : Bbox
  center : Rat × Rat × Int
  tiles : List (Text × List Text)
  assetCount : Nat
  quadkeyCount : Nat

/-- `min(14, max(minzoom, 9))`. -/
def quadkeyZoom (minzoom : Int) : Nat := (min 14 (max minzoom 9)).toNat

/-- The `ValueError` of the builder, or what a library raises. -/
inductive IndexError where
  | value (message : Text)
  | library
deriving DecidableEq

/-- `build_mosaicjson_from_footprints`. -/
def buildMosaicjsonFromFootprints (items : List (Text × G)) (minzoom maxzoom : Int) :
    Except IndexError MosaicJson :=
  if items.isEmpty then .error (.value "No raster assets for mosaic".toList)
  else
    let zoom := quadkeyZoom minzoom
    match (sh.unaryUnion ((indexAssets sh items).map Prod.snd)).bind sh.bounds with
    | none => .error .library
    | some union =>
      match mc.tiles union zoom with
      | (_, true) => .error .library
      | (found, false) =>
        let tiles := indexTiles sh mc items zoom found
        .ok
          { mosaicjson := "0.0.3".toList
            version := "1.0.0".toList
            minzoom, maxzoom
            quadkeyZoom := zoom
            bounds := union
            center := ((union.minx + union.maxx) / 2, (union.miny + union.maxy) / 2, minzoom)
            tiles
            assetCount := items.length
            quadkeyCount := tiles.length }

/-! ## What each write keeps -/

/-- The rows have different quadkeys, and each has some of the urls, each once. -/
structure Clean (urls : List Text) (tiles : List (Text × List Text)) : Prop where
  keys : (tiles.map Prod.fst).Nodup
  rows : ∀ row ∈ tiles, row.2.Nodup ∧ ∀ url ∈ row.2, url ∈ urls

/-- A url is in the row of a quadkey. -/
def Has (tiles : List (Text × List Text)) (qk url : Text) : Prop :=
  ∃ row ∈ tiles, row.1 = qk ∧ url ∈ row.2

theorem Clean.set {urls : List Text} {tiles : List (Text × List Text)} (h : Clean urls tiles)
    {row : Text × List Text} (hnodup : row.2.Nodup) (hsub : ∀ url ∈ row.2, url ∈ urls) :
    Clean urls (Keyed.setItem Prod.fst tiles row) := by
  refine ⟨Keyed.setItem_nodup _ h.keys row, fun r hr => ?_⟩
  rcases (Keyed.mem_setItem _).mp hr with rfl | ⟨hr, -⟩
  · exact ⟨hnodup, hsub⟩
  · exact h.rows r hr

theorem Clean.lookup {urls : List Text} {tiles : List (Text × List Text)} (h : Clean urls tiles)
    {row : Text × List Text} (hrow : row ∈ tiles) : tiles.lookup row.1 = some row.2 := by
  have hlookup : (tiles.map fun r => (r.1, r.2)).lookup row.1 = some row.2 :=
    Keyed.lookup_map_of_nodup Prod.fst h.keys hrow
  simpa using hlookup

/-- The row that is extended, or a new one. -/
theorem lookup_row {tiles : List (Text × List Text)} (qk : Text) :
    (tiles.lookup qk = none ∧ ∀ row ∈ tiles, row.1 ≠ qk) ∨
      ∃ urls, tiles.lookup qk = some urls ∧ (qk, urls) ∈ tiles := by
  cases hlookup : tiles.lookup qk with
  | none =>
    refine Or.inl ⟨rfl, fun row hrow heq => ?_⟩
    have hne := List.lookup_eq_none_iff.mp hlookup row hrow
    simp [heq] at hne
  | some urls =>
    obtain ⟨l1, l2, heq, -⟩ := List.lookup_eq_some_iff.mp hlookup
    exact Or.inr ⟨urls, rfl, by simp [heq]⟩

section Register

variable {urls : List Text} {tiles : List (Text × List Text)} (h : Clean urls tiles) {url : Text}
include h

theorem register_clean (hurl : url ∈ urls) (qk : Text) : Clean urls (register tiles qk url) := by
  unfold register
  dsimp only
  split
  · exact h
  · rename_i hnew
    rcases lookup_row qk with ⟨hnone, -⟩ | ⟨us, hsome, hrow⟩
    · rw [hnone, Option.getD_none, List.nil_append]
      exact h.set (List.nodup_singleton url) (by simpa using hurl)
    · rw [hsome, Option.getD_some] at hnew ⊢
      obtain ⟨hnodup, hsub⟩ := h.rows _ hrow
      refine h.set ?_ ?_
      · rw [← List.concat_eq_append]
        exact List.Nodup.concat hnew hnodup
      · intro u hu
        rcases List.mem_append.mp hu with hu | hu
        · exact hsub u hu
        · exact List.mem_singleton.mp hu ▸ hurl

omit h in
theorem register_has (qk : Text) : Has (register tiles qk url) qk url := by
  unfold register
  dsimp only
  split
  · rename_i hold
    rcases lookup_row qk with ⟨hnone, -⟩ | ⟨us, hsome, hrow⟩
    · rw [hnone] at hold
      cases hold
    · rw [hsome] at hold
      exact ⟨_, hrow, rfl, hold⟩
  · exact ⟨_, (Keyed.mem_setItem _).mpr (Or.inl rfl), rfl, by simp⟩

/-- No url is taken away. -/
theorem register_keeps {qk url' : Text} (qk' : Text) (hhas : Has tiles qk url') :
    Has (register tiles qk' url) qk url' := by
  obtain ⟨row, hrow, hqk, hmem⟩ := hhas
  unfold register
  dsimp only
  split
  · exact ⟨row, hrow, hqk, hmem⟩
  · by_cases hsame : row.1 = qk'
    · have hlookup := h.lookup hrow
      rw [hsame] at hlookup
      refine ⟨_, (Keyed.mem_setItem _).mpr (Or.inl rfl), hsame ▸ hqk, ?_⟩
      rw [hlookup]
      exact List.mem_append_left _ hmem
    · exact ⟨row, (Keyed.mem_setItem _).mpr (Or.inr ⟨hrow, hsame⟩), hqk, hmem⟩

end Register

/-! ## The passes -/

section Passes

variable {sh mc} {urls : List Text} {assets : List (Text × G)}

theorem urlsOf_subset (hassets : ∀ a ∈ assets, a.1 ∈ urls) (g : G) :
    ∀ url ∈ urlsOf sh assets g, url ∈ urls := by
  intro url hurl
  unfold urlsOf at hurl
  split at hurl
  · cases hurl
  · obtain ⟨a, ha, rfl⟩ := List.mem_map.mp hurl
    exact hassets a (List.mem_filter.mp ha).1

theorem urlsHere_clean (hassets : ∀ a ∈ assets, a.1 ∈ urls) (tile : Tile) :
    (urlsHere sh mc assets tile).Nodup ∧ ∀ url ∈ urlsHere sh mc assets tile, url ∈ urls := by
  unfold urlsHere
  extract_lets tb geoms candidates
  refine ⟨by simpa using (Keyed.keepFirst_nodup id [] _).1, fun url hurl => ?_⟩
  have hmem := List.mem_of_find?_eq_some ((Keyed.mem_keepFirst _).mp hurl).2
  obtain ⟨found, -, hfound⟩ := List.mem_flatMap.mp hmem
  split at hfound
  · cases hfound
  · split at hfound
    · exact urlsOf_subset hassets _ url hfound
    · cases hfound

theorem firstPass_clean (hassets : ∀ a ∈ assets, a.1 ∈ urls) (found : List Tile) :
    Clean urls (found.foldl (indexTile sh mc assets) []) := by
  have hstart : Clean urls [] := ⟨List.nodup_nil, by simp⟩
  generalize ([] : List (Text × List Text)) = tiles at hstart
  induction found generalizing tiles with
  | nil => exact hstart
  | cons tile found ih =>
    refine ih _ ?_
    obtain ⟨hnodup, hsub⟩ := urlsHere_clean hassets tile
    unfold indexTile
    dsimp only
    split
    · exact hstart
    · exact hstart.set hnodup hsub

/-- A query that gives numbers leaves the first pass without an entry. -/
theorem firstPass_nil
    (hquery : ∀ geoms g, ∃ found, sh.query geoms g = some found ∧ ∀ x ∈ found, x = none)
    (found : List Tile) : found.foldl (indexTile sh mc assets) [] = [] := by
  induction found with
  | nil => rfl
  | cons tile found ih =>
    have hhere : urlsHere sh mc assets tile = [] := by
      obtain ⟨hits, hhits, hnone⟩ := hquery (assets.map Prod.snd) (sh.box (mc.bounds tile))
      unfold urlsHere
      extract_lets tb geoms candidates
      have hcandidates : candidates = hits := by
        show (sh.query geoms tb).getD (geoms.map some) = hits
        rw [hhits, Option.getD_some]
      rw [hcandidates, List.flatMap_eq_nil_iff.mpr]
      · rfl
      · intro x hx
        rw [hnone x hx]
    have hstep : indexTile sh mc assets [] tile = [] := by rw [indexTile, hhere]; rfl
    rw [List.foldl_cons, hstep]
    exact ih

/-- One image is in each of its tiles, and no other is taken away. -/
theorem ensureAsset_spec {zoom : Nat} {tiles : List (Text × List Text)} (h : Clean urls tiles)
    {asset : Text × G} (hurl : asset.1 ∈ urls) :
    Clean urls (ensureAsset sh mc zoom tiles asset) ∧
      (∀ t ∈ assetTiles sh mc zoom asset.2,
        Has (ensureAsset sh mc zoom tiles asset) (mc.quadkey t) asset.1) ∧
      ∀ qk url, Has tiles qk url → Has (ensureAsset sh mc zoom tiles asset) qk url := by
  unfold ensureAsset
  generalize assetTiles sh mc zoom asset.2 = found
  induction found generalizing tiles with
  | nil => exact ⟨h, by simp, fun _ _ hhas => hhas⟩
  | cons t found ih =>
    obtain ⟨hclean, hfound, hkeeps⟩ := ih (register_clean h hurl (mc.quadkey t))
    refine ⟨hclean, fun t' ht' => ?_, fun qk url hhas => hkeeps qk url (register_keeps h _ hhas)⟩
    rcases List.mem_cons.mp ht' with rfl | ht'
    · exact hkeeps _ _ (register_has _)
    · exact hfound t' ht'

theorem secondPass_spec {zoom : Nat} {tiles : List (Text × List Text)} (h : Clean urls tiles)
    (hassets : ∀ a ∈ assets, a.1 ∈ urls) :
    Clean urls (assets.foldl (ensureAsset sh mc zoom) tiles) ∧
      (∀ a ∈ assets, ∀ t ∈ assetTiles sh mc zoom a.2,
        Has (assets.foldl (ensureAsset sh mc zoom) tiles) (mc.quadkey t) a.1) ∧
      ∀ qk url, Has tiles qk url → Has (assets.foldl (ensureAsset sh mc zoom) tiles) qk url := by
  induction assets generalizing tiles with
  | nil => exact ⟨h, by simp, fun _ _ hhas => hhas⟩
  | cons a assets ih =>
    obtain ⟨hone, hown, hkeep⟩ := ensureAsset_spec h
      (hassets a List.mem_cons_self)
    obtain ⟨hclean, hall, hkeeps⟩ := ih hone fun b hb => hassets b (List.mem_cons_of_mem a hb)
    refine ⟨hclean, fun b hb t ht => ?_, fun qk url hhas => hkeeps _ _ (hkeep _ _ hhas)⟩
    rcases List.mem_cons.mp hb with rfl | hb
    · exact hkeeps _ _ (hown t ht)
    · exact hall b hb t ht

theorem assetTiles_ne_nil (zoom : Nat) (g : G) : assetTiles sh mc zoom g ≠ [] := by
  unfold assetTiles
  dsimp only
  split
  · exact List.cons_ne_nil _ _
  · rename_i hfound
    simpa using hfound

theorem indexTiles_spec {items : List (Text × G)} (hne : items ≠ []) (zoom : Nat)
    (found : List Tile) :
    Clean (items.map Prod.fst) (indexTiles sh mc items zoom found) ∧
      ∀ item ∈ items, ∀ t ∈ assetTiles sh mc zoom (footprintForMosaicIndex sh item.2),
        Has (indexTiles sh mc items zoom found) (mc.quadkey t) item.1 := by
  have hasset : ∀ item ∈ items,
      (item.1, footprintForMosaicIndex sh item.2) ∈ indexAssets sh items :=
    fun item hitem => List.mem_map.mpr ⟨item, hitem, rfl⟩
  have hurls : ∀ a ∈ indexAssets sh items, a.1 ∈ items.map Prod.fst := by
    intro a ha
    obtain ⟨item, hitem, rfl⟩ := List.mem_map.mp ha
    exact List.mem_map.mpr ⟨item, hitem, rfl⟩
  obtain ⟨hclean, hhas, -⟩ := secondPass_spec
    (firstPass_clean hurls found) hurls
  unfold indexTiles
  extract_lets assets tiles
  -- the second pass leaves no index empty
  have hsome : tiles ≠ [] := by
    obtain ⟨item, hitem⟩ := List.exists_mem_of_ne_nil _ hne
    obtain ⟨t, ht⟩ := List.exists_mem_of_ne_nil _
      (assetTiles_ne_nil zoom (footprintForMosaicIndex sh item.2))
    obtain ⟨row, hrow, -⟩ := hhas _ (hasset item hitem) t ht
    exact List.ne_nil_of_mem hrow
  rw [if_neg (by simpa using hsome)]
  exact ⟨hclean, fun item hitem t ht => hhas _ (hasset item hitem) t ht⟩

end Passes

/-! ## The index -/

/-- The range of Web Mercator. -/
def mercatorRange : Bbox := ⟨-180, -85051129 / 1000000, 180, 85051129 / 1000000⟩

namespace Bbox

def Proper (b : Bbox) : Prop := b.minx ≤ b.maxx ∧ b.miny ≤ b.maxy

def grow (b : Bbox) (e : Rat) : Bbox := ⟨b.minx - e, b.miny - e, b.maxx + e, b.maxy + e⟩

/-- More than `slack` wide and more than `slack` high. -/
def Wider (b : Bbox) (slack : Rat) : Prop := b.minx + slack < b.maxx ∧ b.miny + slack < b.maxy

/-- The boxes have a part in common that is not a line. -/
def Meets (b c : Bbox) : Prop :=
  max b.minx c.minx < min b.maxx c.maxx ∧ max b.miny c.miny < min b.maxy c.maxy

instance (b c : Bbox) : Decidable (b.Meets c) := inferInstanceAs (Decidable (_ ∧ _))

theorem Wider.meets {part b c : Bbox} {slack : Rat} (hslack : 0 ≤ slack) (h : part.Wider slack)
    (hb : part.Within b) (hc : part.Within c) : b.Meets c := by
  obtain ⟨hx, hy⟩ := h
  obtain ⟨b1, b2, b3, b4⟩ := hb
  obtain ⟨c1, c2, c3, c4⟩ := hc
  exact ⟨(max_le b1 c1).trans_lt (lt_of_lt_of_le (by linarith) (le_min b2 c2)),
    (max_le b3 c3).trans_lt (lt_of_lt_of_le (by linarith) (le_min b4 c4))⟩

end Bbox

/-- A tile is found for a box in the range if they share more than `slack` in each direction, which
is `LL_EPSILON` in mercantile; and no box that reaches a little over the range raises. -/
structure MercantileSpec (mc : Mercantile) (slack : Rat) : Prop where
  nonneg : 0 ≤ slack
  enumerates : ∀ (b part : Bbox) (t : Tile), b.Within mercatorRange → part.Wider slack →
    part.Within (mc.bounds t) → part.Within b → t ∈ (mc.tiles b t.z).1
  returns : ∀ b z, b.Proper → b.Within (mercatorRange.grow (1 / 1000000)) →
    (mc.tiles b z).2 = false

/-- What a repaired or a buffered geometry and a union keep of the bounds. -/
structure IndexSpec (sh : IndexShapely G) : Prop where
  makeValid : ∀ g g' b, sh.makeValid g = some g' → sh.bounds g = some b → sh.bounds g' = some b
  buffer : ∀ g g' b e, 0 ≤ e → sh.buffer g e = some g' → sh.isEmpty g' = false →
    sh.bounds g = some b → ∃ b', sh.bounds g' = some b' ∧ b.Within b' ∧ b'.Within (b.grow e)
  unaryUnion : ∀ gs r, gs ≠ [] →
    (∀ g ∈ gs, ∃ b, sh.bounds g = some b ∧ b.Proper ∧ b.Within r) →
    ∃ u b, sh.unaryUnion gs = some u ∧ sh.bounds u = some b ∧ b.Proper ∧ b.Within r

/-- The tile shares more than `slack` in each direction with the bounds of a footprint, padded by a
hundred-thousandth of a degree, within the parallels of 85 degrees. -/
def MeetsPadded (slack : Rat) (tile footprint : Bbox) : Prop :=
  ∃ part : Bbox, part.Wider slack ∧ part.Within tile ∧ part.Within (footprint.grow (1 / 100000)) ∧
    part.Within ⟨-180, -85, 180, 85⟩

/-- Each row has some of the urls, each once, and each url is in the row of each tile that its
footprint meets. -/
structure CompleteIndex (sh : IndexShapely G) (mc : Mercantile) (slack : Rat)
    (items : List (Text × G)) (mj : MosaicJson) : Prop where
  clean : Clean (items.map Prod.fst) mj.tiles
  complete : ∀ item ∈ items, ∀ b,
    (sh.bounds item.2 = some b ∨ sh.bounds (footprintForMosaicIndex sh item.2) = some b) →
    ∀ t : Tile, t.z = mj.quadkeyZoom → MeetsPadded slack (mc.bounds t) b →
    ∃ urls, mj.tiles.lookup (mc.quadkey t) = some urls ∧ item.1 ∈ urls

/-- The padded bounds are the grown ones within the parallels. -/
theorem within_paddedBounds {part b : Bbox} :
    part.Within (paddedBounds b) ↔
      part.Within (b.grow (1 / 100000)) ∧ part.Within ⟨-180, -85, 180, 85⟩ := by
  simp only [Bbox.Within, paddedBounds, pad, Bbox.grow, max_le_iff, le_min_iff]
  constructor
  · rintro ⟨⟨h1, h2⟩, ⟨h3, h4⟩, ⟨h5, h6⟩, h7, h8⟩
    exact ⟨⟨h2, h4, h6, h8⟩, h1, h3, h5, h7⟩
  · rintro ⟨⟨h2, h4, h6, h8⟩, h1, h3, h5, h7⟩
    exact ⟨⟨h1, h2⟩, ⟨h3, h4⟩, ⟨h5, h6⟩, h7, h8⟩

theorem grow_within {b b' : Bbox} (h : b.Within b') (e : Rat) :
    (b.grow e).Within (b'.grow e) := by
  obtain ⟨h1, h2, h3, h4⟩ := h
  simp only [Bbox.Within, Bbox.grow]
  refine ⟨?_, ?_, ?_, ?_⟩ <;> linarith

theorem paddedBounds_within (b : Bbox) : (paddedBounds b).Within mercatorRange := by
  have hlat : -85051129 / 1000000 ≤ (-85 : Rat) ∧ (85 : Rat) ≤ 85051129 / 1000000 := by norm_num
  exact ⟨le_max_left _ _, min_le_left _ _, hlat.1.trans (le_max_left _ _),
    (min_le_left _ _).trans hlat.2⟩

section Index

variable {sh mc} {slack : Rat} (hmc : MercantileSpec mc slack) (hsh : IndexSpec sh)

include hsh in
/-- The bounds of an inflated footprint. -/
theorem footprint_bounds {g : G} {b : Bbox} (h : sh.bounds g = some b) :
    ∃ b', sh.bounds (footprintForMosaicIndex sh g) = some b' ∧ b.Within b' ∧
      b'.Within (b.grow (1 / 1000000)) := by
  have hself : b.Within b ∧ b.Within (b.grow (1 / 1000000)) := by
    refine ⟨⟨le_refl _, le_refl _, le_refl _, le_refl _⟩, ?_⟩
    simp only [Bbox.Within, Bbox.grow]
    refine ⟨?_, ?_, ?_, ?_⟩ <;> linarith
  unfold footprintForMosaicIndex
  cases hvalid : validFootprint sh g with
  | none => exact ⟨b, h, hself⟩
  | some gg =>
    have hgg : sh.bounds gg = some b := by
      unfold validFootprint at hvalid
      obtain ⟨valid, -, hvalid⟩ := Option.bind_eq_some_iff.mp hvalid
      split at hvalid
      · cases hvalid
        exact h
      · exact hsh.makeValid g gg b hvalid h
    cases hbuf : sh.buffer gg (1 / 1000000) with
    | none =>
      rw [Option.bind_some, hbuf]
      exact ⟨b, h, hself⟩
    | some buf =>
      rw [Option.bind_some, hbuf, Option.map_some, Option.getD_some]
      split
      · exact ⟨b, hgg, hself⟩
      · rename_i hsome
        exact hsh.buffer gg buf b _ (by norm_num) hbuf (Bool.eq_false_iff.mpr hsome) hgg

include hmc in
/-- A tile that meets the padded bounds of an image is one of its tiles. -/
theorem mem_assetTiles {g : G} {b : Bbox} (h : sh.bounds g = some b) {t : Tile}
    (hmeets : MeetsPadded slack (mc.bounds t) b) : t ∈ assetTiles sh mc t.z g := by
  obtain ⟨part, hwider, htile, hgrown, hworld⟩ := hmeets
  have ht : t ∈ (mc.tiles (paddedBounds b) t.z).1 :=
    hmc.enumerates _ part t (paddedBounds_within b) hwider htile
      (within_paddedBounds.mpr ⟨hgrown, hworld⟩)
  unfold assetTiles
  rw [h, Option.getD_some]
  dsimp only
  rw [if_neg (by simpa using List.ne_nil_of_mem ht)]
  exact ht

include hmc hsh in
/-- For each list of images whose footprints are in the range. -/
theorem index_complete {items : List (Text × G)} (hne : items ≠ [])
    (hrange : ∀ item ∈ items, ∃ b, sh.bounds item.2 = some b ∧ b.Proper ∧ b.Within mercatorRange)
    (minzoom maxzoom : Int) :
    ∃ mj, buildMosaicjsonFromFootprints sh mc items minzoom maxzoom = .ok mj ∧
      CompleteIndex sh mc slack items mj := by
  unfold buildMosaicjsonFromFootprints
  rw [if_neg (by simpa using hne)]
  -- the inflated footprints reach a little over the range
  have hgeoms : ∀ g ∈ (indexAssets sh items).map Prod.snd, ∃ b, sh.bounds g = some b ∧ b.Proper ∧
      b.Within (mercatorRange.grow (1 / 1000000)) := by
    intro g hg
    obtain ⟨a, ha, rfl⟩ := List.mem_map.mp hg
    obtain ⟨item, hitem, rfl⟩ := List.mem_map.mp ha
    obtain ⟨b, hb, hproper, hwithin⟩ := hrange item hitem
    obtain ⟨b', hb', hgrown, hnear⟩ := footprint_bounds hsh hb
    simp only [Bbox.Proper, Bbox.Within, Bbox.grow] at hproper hwithin hgrown hnear ⊢
    exact ⟨b', hb', ⟨by linarith, by linarith⟩, by linarith, by linarith, by linarith, by linarith⟩
  obtain ⟨u, union, hu, hunion, hproper, hwithin⟩ :=
    hsh.unaryUnion _ _ (by simpa [indexAssets]) hgeoms
  have hreturns := hmc.returns union (quadkeyZoom minzoom) hproper hwithin
  dsimp only
  rw [hu, Option.bind_some, hunion]
  dsimp only
  cases hfound : mc.tiles union (quadkeyZoom minzoom) with
  | mk found raised =>
    rw [hfound] at hreturns
    cases hreturns
    obtain ⟨hclean, hhas⟩ := indexTiles_spec hne (quadkeyZoom minzoom) found
    refine ⟨_, rfl, hclean, ?_⟩
    intro item hitem b hb t hz hmeets
    -- the tile meets the padded bounds of the inflated footprint too
    obtain ⟨b₀, hb₀, -, -⟩ := hrange item hitem
    obtain ⟨b', hb', hgrown, -⟩ := footprint_bounds hsh hb₀
    have hmeets' : MeetsPadded slack (mc.bounds t) b' := by
      rcases hb with hb | hb
      · cases hb₀.symm.trans hb
        obtain ⟨part, hwider, htile, hgrow, hworld⟩ := hmeets
        exact ⟨part, hwider, htile, hgrow.trans (grow_within hgrown _), hworld⟩
      · cases hb'.symm.trans hb
        exact hmeets
    have ht := mem_assetTiles hmc hb' hmeets'
    rw [hz] at ht
    obtain ⟨row, hrow, hqk, hurl⟩ := hhas item hitem t ht
    exact ⟨row.2, hqk ▸ hclean.lookup hrow, hurl⟩

end Index

/-! ## Two neighbours -/

/-- Tiles of equal height, whose rows are numbered from the north. -/
def evenBounds (t : Tile) : Bbox where
  minx := -180 + t.x * (360 / 2 ^ t.z)
  miny := mercatorRange.maxy - (t.y + 1) * (2 * mercatorRange.maxy / 2 ^ t.z)
  maxx := -180 + (t.x + 1) * (360 / 2 ^ t.z)
  maxy := mercatorRange.maxy - t.y * (2 * mercatorRange.maxy / 2 ^ t.z)

/-- All tiles of a zoom level. -/
def levelTiles (z : Nat) : List Tile :=
  (List.finRange (2 ^ z)).flatMap fun (x : Fin (2 ^ z)) =>
    (List.finRange (2 ^ z)).map fun (y : Fin (2 ^ z)) => ⟨z, x, y, x.isLt, y.isLt⟩

theorem mem_levelTiles {z : Nat} {t : Tile} : t ∈ levelTiles z ↔ t.z = z := by
  simp only [levelTiles, List.mem_flatMap, List.mem_map, List.mem_finRange, true_and]
  constructor
  · rintro ⟨x, y, rfl⟩
    rfl
  · rintro rfl
    exact ⟨⟨t.x, t.x_lt⟩, ⟨t.y, t.y_lt⟩, rfl⟩

def evenMercantile : Mercantile where
  tiles b z := ((levelTiles z).filter fun t => (evenBounds t).Meets b, false)
  quadkey t := (List.range t.z).map fun i =>
    Nat.digitChar (t.x / 2 ^ (t.z - 1 - i) % 2 + 2 * (t.y / 2 ^ (t.z - 1 - i) % 2))
  bounds := evenBounds

/-- `LL_EPSILON`. -/
def llEpsilon : Rat := 1 / 100000000000

theorem evenMercantile_spec : MercantileSpec evenMercantile llEpsilon where
  nonneg := by norm_num [llEpsilon]
  enumerates b part t _ hwider htile hbox := by
    have hmeets : (evenBounds t).Meets b := hwider.meets (by norm_num [llEpsilon]) htile hbox
    exact List.mem_filter.mpr ⟨mem_levelTiles.mpr rfl, decide_eq_true hmeets⟩
  returns _ _ _ _ := rfl

/-- The box around two boxes. -/
def Bbox.hull (b c : Bbox) : Bbox :=
  ⟨min b.minx c.minx, min b.miny c.miny, max b.maxx c.maxx, max b.maxy c.maxy⟩

/-- Footprints that are boxes, and a tree that gives numbers. -/
def boxShapely : IndexShapely Bbox where
  isValid _ := some true
  makeValid g := some g
  buffer g e := some (g.grow e)
  isEmpty _ := false
  unaryUnion gs := match gs with
    | [] => none
    | g :: gs => some (gs.foldl Bbox.hull g)
  bounds g := some g
  wkb _ := some []
  box b := b
  intersects g h := some (decide (g.Meets h))
  query gs _ := some (gs.map fun _ => none)

theorem hull_within {b c r : Bbox} (hb : b.Proper ∧ b.Within r) (hc : c.Proper ∧ c.Within r) :
    (b.hull c).Proper ∧ (b.hull c).Within r := by
  obtain ⟨⟨h1, h2⟩, h3, h4, h5, h6⟩ := hb
  obtain ⟨-, h3', h4', h5', h6'⟩ := hc
  refine ⟨⟨?_, ?_⟩, le_min h3 h3', max_le h4 h4', le_min h5 h5', max_le h6 h6'⟩
  · exact (min_le_left _ _).trans (h1.trans (le_max_left _ _))
  · exact (min_le_left _ _).trans (h2.trans (le_max_left _ _))

theorem foldl_hull_within {gs : List Bbox} {g r : Bbox} (hg : g.Proper ∧ g.Within r)
    (hgs : ∀ h ∈ gs, h.Proper ∧ h.Within r) :
    (gs.foldl Bbox.hull g).Proper ∧ (gs.foldl Bbox.hull g).Within r := by
  induction gs generalizing g with
  | nil => exact hg
  | cons h gs ih =>
    exact ih (hull_within hg (hgs h List.mem_cons_self)) fun k hk => hgs k (List.mem_cons_of_mem h hk)

theorem boxShapely_spec : IndexSpec boxShapely where
  makeValid g g' b hvalid hb := by
    cases hvalid
    exact hb
  buffer g g' b e he hbuffer _ hb := by
    cases hbuffer
    cases hb
    refine ⟨_, rfl, ?_, ⟨le_refl _, le_refl _, le_refl _, le_refl _⟩⟩
    simp only [Bbox.Within, Bbox.grow]
    refine ⟨?_, ?_, ?_, ?_⟩ <;> linarith
  unaryUnion gs r hne hgs := by
    have hgs : ∀ g ∈ gs, g.Proper ∧ g.Within r := by
      intro g hg
      obtain ⟨b, hb, hproper⟩ := hgs g hg
      cases hb
      exact hproper
    cases gs with
    | nil => exact absurd rfl hne
    | cons g gs =>
      exact ⟨_, _, rfl, rfl, foldl_hull_within (hgs g List.mem_cons_self)
        fun h hh => hgs h (List.mem_cons_of_mem g hh)⟩

/-- Two footprints that share an edge. -/
def neighbours : List (Text × Bbox) :=
  [("https://example.com/a.tif".toList, ⟨1 / 10, 1 / 10, 1 / 5, 1 / 5⟩),
    ("https://example.com/b.tif".toList, ⟨1 / 5, 1 / 10, 3 / 10, 1 / 5⟩)]

theorem index_complete_neighbours :
    ∃ mj, buildMosaicjsonFromFootprints boxShapely evenMercantile neighbours 6 18 = .ok mj ∧
      CompleteIndex boxShapely evenMercantile llEpsilon neighbours mj := by
  refine index_complete evenMercantile_spec boxShapely_spec (by simp [neighbours]) ?_ 6 18
  intro item hitem
  refine ⟨item.2, rfl, ?_⟩
  simp only [neighbours, List.mem_cons, List.not_mem_nil, or_false] at hitem
  rcases hitem with rfl | rfl <;> norm_num [Bbox.Proper, Bbox.Within, mercatorRange]

end Mosaic
end Geofastmap
