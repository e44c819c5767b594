import Mathlib.Algebra.BigOperators.Group.List.Basic
import Mathlib.Data.Char
import Mathlib.Data.List.Lex
import Geofastmap.Sql.Text
import Geofastmap.Storage.Folder

/-!
# Geofastmap.Storage.Usage

What the collections and mosaics take on disk and in the database (`storage_usage.py`): the rows of
a scan, the snapshot made of them, and how the snapshot is patched after a deletion. Symbolic links
are left out.

`coherent_parts`, `coherent_patchRow`, `coherent_removeRow` : a snapshot of a scan is consistent
with itself, and the patches keep it so.
-/

namespace Geofastmap
namespace Storage
namespace Usage

open Folders

/-! ## Sizes -/

def units : List String := ["B", "KB", "MB", "GB", "TB", "PB"]

/-- How often `n` is divided by 1024. -/
def unitIndex (n : Nat) : Nat := ((List.range 5).takeWhile fun i => 1024 ^ (i + 1) ≤ n).length

/-- `n / d` in hundredths, rounded to the nearest, and from the middle to the even one. -/
def hundredths (n d : Nat) : Nat :=
  let q := 100 * n / d
  let r := 100 * n % d
  if 2 * r < d ∨ (2 * r = d ∧ q % 2 = 0) then q else q + 1

def twoDigits (n : Nat) : Text := Sql.digits (n / 10) ++ Sql.digits (n % 10)

/-- `format_bytes`. -/
def formatBytes (n : Nat) : Text :=
  let i := unitIndex n
  let unit := (units.getD i "PB").toList
  if i = 0 then Sql.digits n ++ ' ' :: unit
  else
    let q := hundredths n (1024 ^ i)
    Sql.digits (q / 100) ++ '.' :: twoDigits (q % 100) ++ ' ' :: unit

/-! ## Rows -/

inductive Kind where
  | collection | mosaic | orphanTiles | orphanRasters | orphanMosaic | bulkUploads
deriving DecidableEq

structure UsageRow where
  kind : Kind
  id : Text
  title : Text
  owner : Text
  collectionType : Text
  featureCount : Int
  dbBytes : Nat
  tilesBytes : Nat
  rasterBytes : Nat
  otherBytes : Nat
  totalBytes : Nat
  dbH : Text
  tilesH : Text
  rasterH : Text
  otherH : Text
  totalH : Text
  canDeleteAll : Bool
  canDeleteTiles : Bool
deriving DecidableEq

/-- The members of `_row` that tell the rows apart. -/
def UsageRow.key (r : UsageRow) : Kind × Text := (r.kind, r.id)

/-- The numbers of `_row`. -/
structure Bytes where
  db : Nat := 0
  tiles : Nat := 0
  raster : Nat := 0
  other : Nat := 0

def Bytes.total (b : Bytes) : Nat := b.db + b.tiles + b.raster + b.other

/-- The texts of `_row`. -/
structure About where
  title : Text
  owner : Text := []
  collectionType : Text := []
  featureCount : Int := 0

/-- `_row`. -/
def row (kind : Kind) (id : Text) (about : About) (b : Bytes) (canDeleteAll canDeleteTiles : Bool) :
    UsageRow where
  kind := kind
  id := id
  title := about.title
  owner := about.owner
  collectionType := about.collectionType
  featureCount := about.featureCount
  dbBytes := b.db
  tilesBytes := b.tiles
  rasterBytes := b.raster
  otherBytes := b.other
  totalBytes := b.total
  dbH := formatBytes b.db
  tilesH := formatBytes b.tiles
  rasterH := formatBytes b.raster
  otherH := formatBytes b.other
  totalH := formatBytes b.total
  canDeleteAll := canDeleteAll
  canDeleteTiles := canDeleteTiles

structure Totals where
  dbBytes : Nat
  tilesBytes : Nat
  rasterBytes : Nat
  otherBytes : Nat
  totalBytes : Nat
  dbH : Text
  tilesH : Text
  rasterH : Text
  otherH : Text
  totalH : Text
deriving DecidableEq

structure Snapshot where
  rows : List UsageRow
  rowCount : Nat
  totals : Totals
deriving DecidableEq

/-- `_refresh_snapshot_totals`. -/
def totalsOf (rows : List UsageRow) : Totals :=
  let db := (rows.map UsageRow.dbBytes).sum
  let tiles := (rows.map UsageRow.tilesBytes).sum
  let raster := (rows.map UsageRow.rasterBytes).sum
  let other := (rows.map UsageRow.otherBytes).sum
  let total := db + tiles + raster + other
  ⟨db, tiles, raster, other, total, formatBytes db, formatBytes tiles, formatBytes raster,
    formatBytes other, formatBytes total⟩

/-- `(-int(r["total_bytes"]), str(r["id"]))` of two rows, compared. -/
def rowLe (a b : UsageRow) : Bool :=
  decide (b.totalBytes < a.totalBytes ∨ (a.totalBytes = b.totalBytes ∧ a.id ≤ b.id))

def sortRows (rows : List UsageRow) : List UsageRow := rows.mergeSort rowLe

/-- The snapshot of some rows. -/
def snapshotOf (rows : List UsageRow) : Snapshot :=
  ⟨sortRows rows, (sortRows rows).length, totalsOf (sortRows rows)⟩

/-! ## Patches -/

/-- The first row of a kind and an id is changed. -/
def patchFirst (kind : Kind) (id : Text) (f : UsageRow → UsageRow) :
    List UsageRow → Option (List UsageRow)
  | [] => none
  | r :: rs =>
    if r.kind = kind ∧ r.id = id then some (f r :: rs) else (patchFirst kind id f rs).map (r :: ·)

/-- A patch of a row; when there is none the snapshot is not written. -/
def patchRow (kind : Kind) (id : Text) (f : UsageRow → UsageRow) (snap : Snapshot) :
    Option Snapshot :=
  (patchFirst kind id f snap.rows).map fun rows =>
    ⟨sortRows rows, snap.rowCount, totalsOf (sortRows rows)⟩

def clearTiles (r : UsageRow) : UsageRow :=
  { r with
    tilesBytes := 0
    tilesH := formatBytes 0
    totalBytes := r.dbBytes + r.rasterBytes + r.otherBytes
    totalH := formatBytes (r.dbBytes + r.rasterBytes + r.otherBytes)
    canDeleteTiles := false }

def clearTilesAndRasters (r : UsageRow) : UsageRow :=
  { r with
    tilesBytes := 0
    tilesH := formatBytes 0
    rasterBytes := 0
    rasterH := formatBytes 0
    totalBytes := r.dbBytes + r.otherBytes
    totalH := formatBytes (r.dbBytes + r.otherBytes)
    canDeleteTiles := false }

def clearMosaicFile (r : UsageRow) : UsageRow :=
  { r with otherBytes := 0, otherH := formatBytes 0, totalBytes := 0, totalH := formatBytes 0 }

/-- `patch_row_tiles_cleared`. -/
def patchRowTilesCleared (collectionId : Text) : Snapshot → Option Snapshot :=
  patchRow .collection collectionId clearTiles

/-- `patch_row_tiles_and_rasters_cleared`. -/
def patchRowTilesAndRastersCleared (collectionId : Text) : Snapshot → Option Snapshot :=
  patchRow .collection collectionId clearTilesAndRasters

/-- `patch_mosaic_file_cleared`. -/
def patchMosaicFileCleared (viewId : Text) : Snapshot → Option Snapshot :=
  patchRow .mosaic viewId clearMosaicFile

/-- `remove_row_from_snapshot`. -/
def removeRowFromSnapshot (kind : Kind) (id : Text) (snap : Snapshot) : Snapshot :=
  let rows := snap.rows.filter fun r => !(r.kind = kind && r.id = id)
  ⟨rows, rows.length, totalsOf rows⟩

/-! ## The scan -/

/-- A row of `collections` with its owner and its row of `collection_tiles`; a text that is not set
is empty. -/
structure CollectionRow where
  id : Text
  title : Text
  collectionType : Text
  featureCount : Int
  owner : Text
  pmtilesPath : Option Text

structure MosaicRow where
  id : Text
  title : Text
  owner : Text
  jsonRelativePath : Text

/-- `partSizes` is what `_features_partition_sizes` returns. -/
structure Database where
  collections : List CollectionRow
  mosaics : List MosaicRow
  partSizes : List (Text × Nat)
  collections_nodup : (collections.map CollectionRow.id).Nodup
  mosaics_nodup : (mosaics.map MosaicRow.id).Nodup

/-- A root that is no directory has no entries; `elsewhere` has the files outside the tiles root. -/
structure Disk where
  tilesStoragePath : Text
  tilesRoot : Folder
  rasterRoot : Folder
  bulkRoot : Tree
  elsewhere : Text → Option Nat

/-- `tiles_root / name`. -/
def Disk.inTiles (d : Disk) (name : Text) : Text := d.tilesStoragePath ++ '/' :: name

/-- The size of the file at a path, if there is one. -/
def Disk.fileSize (d : Disk) (path : Text) : Option Nat :=
  if (d.tilesStoragePath ++ ['/']).isPrefixOf path then
    d.tilesRoot.fileAt (path.drop (d.tilesStoragePath.length + 1))
  else d.elsewhere path

/-- `Path(p).name`. -/
def pathName (p : Text) : Text :=
  ((p.splitOn '/').filter fun part => part ≠ [] && part ≠ ['.']).getLast?.getD []

def mbtilesName (collectionId : Text) : Text := collectionId ++ ".mbtiles".toList

/-- `collection_mbtiles_path`. -/
def collectionMbtilesPath (d : Disk) (collectionId : Text) (pmtilesPath : Option Text) :
    Option Text :=
  let stored := match pmtilesPath with
    | some (ch :: p) => (ch :: p) ::
      if (pathName (ch :: p)).isEmpty then [] else [d.inTiles (pathName (ch :: p))]
    | _ => []
  let own := if collectionId.isEmpty then [] else [d.inTiles (mbtilesName collectionId)]
  (stored ++ own).find? fun p => (d.fileSize p).isSome

section
variable (db : Database) (d : Disk)

def collectionTiles (c : CollectionRow) : Option Text := collectionMbtilesPath d c.id c.pmtilesPath

def collectionRow (c : CollectionRow) : UsageRow :=
  let tilesBytes := ((collectionTiles d c).bind d.fileSize).getD 0
  let ctype := if c.collectionType.isEmpty then "vector".toList else c.collectionType
  row .collection c.id ⟨c.title, c.owner, ctype, c.featureCount⟩
    { db := (db.partSizes.lookup c.id).getD 0
      tiles := tilesBytes
      raster := ((d.rasterRoot.dir c.id).map Tree.size).getD 0 }
    true
    (0 < tilesBytes || ctype = "vector".toList || ctype = "composite".toList)

def mosaicFile (m : MosaicRow) : Option Nat :=
  if m.jsonRelativePath.isEmpty then none else d.rasterRoot.fileAt m.jsonRelativePath

def mosaicRow (m : MosaicRow) : UsageRow :=
  row .mosaic m.id ⟨m.title, m.owner, "mosaic".toList, 0⟩ { other := (mosaicFile d m).getD 0 } true
    false

def orphanTilesRow (name : Text) (size : Nat) : UsageRow :=
  row .orphanTiles name { title := "Orphan MBTiles (no collection record)".toList }
    { tiles := size } true true

/-- `known` has the names of the files of collections. -/
def orphanTiles (known : List Text) : List UsageRow :=
  d.tilesRoot.entries.filterMap fun e =>
    match e.2 with
    | .file size =>
      if ".mbtiles".toList.isSuffixOf e.1 && !known.contains e.1 then
        some (orphanTilesRow e.1 size)
      else none
    | .dir _ => none

def viewsName : Text := "views".toList

def orphanRastersRow (name : Text) (tree : Tree) : UsageRow :=
  row .orphanRasters name { title := "Orphan raster directory".toList } { raster := tree.size }
    true false

/-- `known` has the directories of collections. -/
def orphanRasters (known : List Text) : List UsageRow :=
  d.rasterRoot.entries.filterMap fun e =>
    match e.2 with
    | .dir tree =>
      if e.1 = viewsName || e.1.head? = some '.' || known.contains e.1 then none
      else some (orphanRastersRow e.1 tree)
    | .file _ => none

def viewsPath (name : Text) : Text := viewsName ++ '/' :: name

def orphanMosaicRow (path : Text) (size : Nat) : UsageRow :=
  row .orphanMosaic path { title := "Orphan mosaic JSON".toList } { other := size } true false

/-- `known` has the paths of the files of mosaics. -/
def orphanMosaics (known : List Text) : List UsageRow :=
  ((d.rasterRoot.dir viewsName).elim [] Tree.files).filterMap fun e =>
    if e.1.contains '/' || known.contains (viewsPath e.1) then none
    else some (orphanMosaicRow (viewsPath e.1) e.2)

def bulkRows : List UsageRow :=
  let bulkBytes := d.bulkRoot.size
  if 0 < bulkBytes then
    [row .bulkUploads "_bulk_uploads".toList { title := "Bulk upload staging (shared)".toList }
      { other := bulkBytes } false false]
  else []

def knownTiles : List Text := db.collections.filterMap fun c => (collectionTiles d c).map pathName

def knownRasters : List Text :=
  (db.collections.map CollectionRow.id).filter fun id => (d.rasterRoot.dir id).isSome

def knownMosaics : List Text :=
  (db.mosaics.filter fun m => (mosaicFile d m).isSome).map MosaicRow.jsonRelativePath

/-- The rows before they are sorted. -/
def scanRows : List UsageRow :=
  db.collections.map (collectionRow db d) ++ db.mosaics.map (mosaicRow d) ++
    orphanTiles d (knownTiles db d) ++ orphanRasters d (knownRasters db d) ++
    orphanMosaics d (knownMosaics db d) ++ bulkRows d

/-- `compute_storage_usage_sync` when nothing changes meanwhile. -/
def computeStorageUsage : Snapshot := snapshotOf (scanRows db d)

end

/-! ## Consistency -/

/-- The total and the texts of a row are those of its numbers, and a mosaic takes only its file. -/
structure UsageRow.Balanced (r : UsageRow) : Prop where
  total : r.totalBytes = r.dbBytes + r.tilesBytes + r.rasterBytes + r.otherBytes
  texts : r.dbH = formatBytes r.dbBytes ∧ r.tilesH = formatBytes r.tilesBytes ∧
    r.rasterH = formatBytes r.rasterBytes ∧ r.otherH = formatBytes r.otherBytes ∧
    r.totalH = formatBytes r.totalBytes
  mosaic : r.kind = .mosaic → r.dbBytes = 0 ∧ r.tilesBytes = 0 ∧ r.rasterBytes = 0

structure Snapshot.Coherent (s : Snapshot) : Prop where
  rows : ∀ r ∈ s.rows, r.Balanced
  keys : (s.rows.map UsageRow.key).Nodup
  sorted : s.rows.Pairwise fun a b => rowLe a b = true
  count : s.rowCount = s.rows.length
  totals : s.totals = totalsOf s.rows

theorem rowLe_trans (a b c : UsageRow) (hab : rowLe a b = true) (hbc : rowLe b c = true) :
    rowLe a c = true := by
  simp only [rowLe, decide_eq_true_eq] at hab hbc ⊢
  rcases hab with hab | ⟨hab, hid⟩
  · rcases hbc with hbc | ⟨hbc, -⟩
    · exact .inl (hbc.trans hab)
    · exact .inl (hbc ▸ hab)
  · rcases hbc with hbc | ⟨hbc, hid'⟩
    · exact .inl (hab ▸ hbc)
    · exact .inr ⟨hab.trans hbc, hid.trans hid'⟩

theorem rowLe_total (a b : UsageRow) : (rowLe a b || rowLe b a) = true := by
  simp only [rowLe, Bool.or_eq_true, decide_eq_true_eq]
  rcases Nat.lt_trichotomy a.totalBytes b.totalBytes with h | h | h
  · exact .inr (.inl h)
  · rcases le_total a.id b.id with hid | hid
    · exact .inl (.inr ⟨h, hid⟩)
    · exact .inr (.inr ⟨h.symm, hid⟩)
  · exact .inl (.inl h)

theorem sortRows_perm (rows : List UsageRow) : (sortRows rows).Perm rows :=
  List.mergeSort_perm rows rowLe

theorem sortRows_sorted (rows : List UsageRow) :
    (sortRows rows).Pairwise fun a b => rowLe a b = true :=
  List.pairwise_mergeSort rowLe_trans rowLe_total rows

/-- Sorted rows and their totals. -/
theorem coherent_sorted {rows : List UsageRow} (hrows : ∀ r ∈ rows, r.Balanced)
    (hkeys : (rows.map UsageRow.key).Nodup) {count : Nat} (hcount : count = rows.length) :
    Snapshot.Coherent ⟨sortRows rows, count, totalsOf (sortRows rows)⟩ where
  rows r hr := hrows r ((sortRows_perm rows).mem_iff.mp hr)
  keys := ((sortRows_perm rows).map UsageRow.key).nodup_iff.mpr hkeys
  sorted := sortRows_sorted rows
  count := hcount.trans (sortRows_perm rows).length_eq.symm
  totals := rfl

/-- What all rows take together. -/
theorem Snapshot.Coherent.total {s : Snapshot} (h : s.Coherent) :
    s.totals.totalBytes = (s.rows.map UsageRow.totalBytes).sum := by
  have hsum : ∀ rows : List UsageRow, (∀ r ∈ rows, r.Balanced) →
      (totalsOf rows).totalBytes = (rows.map UsageRow.totalBytes).sum := by
    intro rows hrows
    induction rows with
    | nil => rfl
    | cons r rows ih =>
      have ih := ih fun x hx => hrows x (List.mem_cons_of_mem r hx)
      have htotal := (hrows r List.mem_cons_self).total
      simp only [totalsOf, List.map_cons, List.sum_cons] at ih ⊢
      omega
  rw [h.totals, hsum s.rows h.rows]

theorem balanced_row {kind : Kind} (hkind : kind ≠ .mosaic) (id : Text) (about : About) (b : Bytes)
    (all tiles : Bool) : (row kind id about b all tiles).Balanced :=
  ⟨rfl, ⟨rfl, rfl, rfl, rfl, rfl⟩, fun h => absurd h hkind⟩

theorem balanced_mosaicRow (d : Disk) (m : MosaicRow) : (mosaicRow d m).Balanced :=
  ⟨rfl, ⟨rfl, rfl, rfl, rfl, rfl⟩, fun _ => ⟨rfl, rfl, rfl⟩⟩

/-- Rows of one kind. -/
structure OfKind (kind : Kind) (rows : List UsageRow) : Prop where
  each : ∀ r ∈ rows, r.kind = kind ∧ r.Balanced
  ids : (rows.map UsageRow.id).Nodup

theorem OfKind.keys {kind : Kind} {rows : List UsageRow} (h : OfKind kind rows) :
    (rows.map UsageRow.key).Nodup := by
  refine List.Nodup.of_map Prod.snd ?_
  rw [List.map_map]
  exact h.ids

theorem coherent_parts (parts : List (Kind × List UsageRow)) (hkinds : (parts.map Prod.fst).Nodup)
    (hparts : ∀ p ∈ parts, OfKind p.1 p.2) :
    (snapshotOf (parts.flatMap Prod.snd)).Coherent := by
  refine coherent_sorted (fun r hr => ?_) ?_ (sortRows_perm _).length_eq
  · obtain ⟨p, hp, hr⟩ := List.mem_flatMap.mp hr
    exact ((hparts p hp).each r hr).2
  · induction parts with
    | nil => exact List.nodup_nil
    | cons p parts ih =>
      rw [List.map_cons, List.nodup_cons] at hkinds
      have ih := ih hkinds.2 fun q hq => hparts q (List.mem_cons_of_mem p hq)
      have hp := hparts p List.mem_cons_self
      rw [List.flatMap_cons, List.map_append, List.nodup_append]
      refine ⟨hp.keys, ih, ?_⟩
      rintro key hkey key' hkey' rfl
      obtain ⟨r, hr, rfl⟩ := List.mem_map.mp hkey
      obtain ⟨r', hr', heq⟩ := List.mem_map.mp hkey'
      obtain ⟨q, hq, hr'⟩ := List.mem_flatMap.mp hr'
      have hsame : q.1 = p.1 :=
        ((hparts q (List.mem_cons_of_mem p hq)).each r' hr').1.symm.trans
          ((Prod.mk.inj heq).1.trans (hp.each r hr).1)
      exact hkinds.1 (hsame ▸ List.mem_map_of_mem hq)

/-! ### The rows of one directory -/

/-- Rows made of the entries of a directory, each under its own name. -/
theorem OfKind.filterMap {α : Type} {kind : Kind} {f : α → Option UsageRow} {g : α → Text}
    {xs : List α} (hf : ∀ x ∈ xs, ∀ r, f x = some r → r.kind = kind ∧ r.Balanced ∧ r.id = g x)
    (hxs : (xs.map g).Nodup) : OfKind kind (xs.filterMap f) := by
  refine ⟨fun r hr => ?_, ?_⟩
  · obtain ⟨x, hx, hr⟩ := List.mem_filterMap.mp hr
    obtain ⟨hkind, hbalanced, -⟩ := hf x hx r hr
    exact ⟨hkind, hbalanced⟩
  · have hids : ((xs.filterMap f).map UsageRow.id).Sublist (xs.map g) := by
      clear hxs
      induction xs with
      | nil => exact List.Sublist.slnil
      | cons x xs ih =>
        have ih := ih fun y hy => hf y (List.mem_cons_of_mem x hy)
        cases hx : f x with
        | none =>
          rw [List.filterMap_cons_none hx]
          exact ih.cons _
        | some r =>
          rw [List.filterMap_cons_some hx, List.map_cons, List.map_cons,
            (hf x List.mem_cons_self r hx).2.2]
          exact ih.cons_cons _
    exact hids.nodup hxs

theorem ofKind_orphanTiles (d : Disk) (known : List Text) :
    OfKind .orphanTiles (orphanTiles d known) := by
  refine OfKind.filterMap (g := Prod.fst) (fun e _ r hr => ?_) d.tilesRoot.nodup
  split at hr
  · split at hr
    · cases hr
      exact ⟨rfl, balanced_row (by decide) .., rfl⟩
    · cases hr
  · cases hr

theorem ofKind_orphanRasters (d : Disk) (known : List Text) :
    OfKind .orphanRasters (orphanRasters d known) := by
  refine OfKind.filterMap (g := Prod.fst) (fun e _ r hr => ?_) d.rasterRoot.nodup
  split at hr
  · split at hr
    · cases hr
    · cases hr
      exact ⟨rfl, balanced_row (by decide) .., rfl⟩
  · cases hr

theorem viewsPath_injective {name name' : Text} (h : viewsPath name = viewsPath name') :
    name = name' :=
  (List.cons.inj (List.append_cancel_left h)).2

theorem ofKind_orphanMosaics (d : Disk) (known : List Text) :
    OfKind .orphanMosaic (orphanMosaics d known) := by
  refine OfKind.filterMap (g := fun e => viewsPath e.1) (fun e _ r hr => ?_) ?_
  · split at hr
    · cases hr
    · cases hr
      exact ⟨rfl, balanced_row (by decide) .., rfl⟩
  · have hfiles : (((d.rasterRoot.dir viewsName).elim [] Tree.files).map Prod.fst).Nodup := by
      cases d.rasterRoot.dir viewsName with
      | none => exact List.nodup_nil
      | some tree => exact tree.nodup
    have hnames := hfiles.map (f := viewsPath) fun _ _ h => viewsPath_injective h
    rwa [List.map_map] at hnames

theorem ofKind_bulkRows (d : Disk) : OfKind .bulkUploads (bulkRows d) := by
  unfold bulkRows
  dsimp only
  split
  · refine ⟨fun r hr => ?_, List.nodup_singleton _⟩
    cases List.mem_singleton.mp hr
    exact ⟨rfl, balanced_row (by decide) ..⟩
  · exact ⟨nofun, List.nodup_nil⟩

theorem OfKind.map {α : Type} {kind : Kind} {f : α → UsageRow} {g : α → Text} {xs : List α}
    (hf : ∀ x, (f x).kind = kind ∧ (f x).Balanced ∧ (f x).id = g x) (hxs : (xs.map g).Nodup) :
    OfKind kind (xs.map f) := by
  rw [← List.filterMap_eq_map]
  refine OfKind.filterMap (fun x _ r hr => ?_) hxs
  cases hr
  exact hf x

/-- The rows of a scan by their kinds. -/
def scanParts (db : Database) (d : Disk) : List (Kind × List UsageRow) :=
  [(.collection, db.collections.map (collectionRow db d)), (.mosaic, db.mosaics.map (mosaicRow d)),
    (.orphanTiles, orphanTiles d (knownTiles db d)),
    (.orphanRasters, orphanRasters d (knownRasters db d)),
    (.orphanMosaic, orphanMosaics d (knownMosaics db d)), (.bulkUploads, bulkRows d)]

theorem scanRows_eq (db : Database) (d : Disk) :
    scanRows db d = (scanParts db d).flatMap Prod.snd := by
  simp [scanRows, scanParts, List.append_assoc]

theorem scanParts_kinds (db : Database) (d : Disk) : ((scanParts db d).map Prod.fst).Nodup := by
  simp [scanParts]

theorem scanParts_ofKind (db : Database) (d : Disk) : ∀ p ∈ scanParts db d, OfKind p.1 p.2 := by
  simp only [scanParts, List.forall_mem_cons]
  refine ⟨?_, ?_, ofKind_orphanTiles d _, ofKind_orphanRasters d _, ofKind_orphanMosaics d _,
    ofKind_bulkRows d, List.forall_mem_nil _⟩
  · exact OfKind.map (fun _ => ⟨rfl, balanced_row (by decide) .., rfl⟩) db.collections_nodup
  · exact OfKind.map (fun m => ⟨rfl, balanced_mosaicRow d m, rfl⟩) db.mosaics_nodup

theorem coherent_computeStorageUsage (db : Database) (d : Disk) :
    (computeStorageUsage db d).Coherent := by
  rw [computeStorageUsage, scanRows_eq]
  exact coherent_parts _ (scanParts_kinds db d) (scanParts_ofKind db d)

/-! ## Patches keep it -/

theorem patchFirst_spec {kind : Kind} {id : Text} {f : UsageRow → UsageRow}
    (hkey : ∀ r, (f r).key = r.key) {rows rows' : List UsageRow}
    (h : patchFirst kind id f rows = some rows') :
    rows'.map UsageRow.key = rows.map UsageRow.key ∧
      ∀ r' ∈ rows', r' ∈ rows ∨ ∃ r ∈ rows, r.kind = kind ∧ r' = f r := by
  induction rows generalizing rows' with
  | nil => cases h
  | cons r rows ih =>
    unfold patchFirst at h
    split at h
    · rename_i hr
      cases h
      refine ⟨by rw [List.map_cons, List.map_cons, hkey], fun r' hr' => ?_⟩
      rcases List.mem_cons.mp hr' with rfl | hr'
      · exact .inr ⟨r, List.mem_cons_self, hr.1, rfl⟩
      · exact .inl (List.mem_cons_of_mem r hr')
    · obtain ⟨rows₁, hrows₁, rfl⟩ := Option.map_eq_some_iff.mp h
      obtain ⟨hkeys, hmem⟩ := ih hrows₁
      refine ⟨by rw [List.map_cons, List.map_cons, hkeys], fun r' hr' => ?_⟩
      rcases List.mem_cons.mp hr' with rfl | hr'
      · exact .inl List.mem_cons_self
      · rcases hmem r' hr' with hold | ⟨r₁, hr₁, hnew⟩
        · exact .inl (List.mem_cons_of_mem r hold)
        · exact .inr ⟨r₁, List.mem_cons_of_mem r hr₁, hnew⟩

theorem coherent_patchRow {kind : Kind} {id : Text} {f : UsageRow → UsageRow}
    (hkey : ∀ r, (f r).key = r.key)
    (hbalanced : ∀ r : UsageRow, r.kind = kind → r.Balanced → (f r).Balanced)
    {snap snap' : Snapshot} (h : snap.Coherent) (hpatch : patchRow kind id f snap = some snap') :
    snap'.Coherent := by
  obtain ⟨rows, hrows, rfl⟩ := Option.map_eq_some_iff.mp hpatch
  obtain ⟨hkeys, hmem⟩ := patchFirst_spec hkey hrows
  refine coherent_sorted (fun r hr => ?_) (hkeys ▸ h.keys) ?_
  · rcases hmem r hr with hold | ⟨r₀, hr₀, hkind, rfl⟩
    · exact h.rows r hold
    · exact hbalanced r₀ hkind (h.rows r₀ hr₀)
  · have hlength := congrArg List.length hkeys
    rw [List.length_map, List.length_map] at hlength
    rw [h.count, hlength]

theorem balanced_clearTiles {r : UsageRow} (hkind : r.kind = .collection) (h : r.Balanced) :
    (clearTiles r).Balanced := by
  obtain ⟨hdb, -, hraster, hother, -⟩ := h.texts
  refine ⟨?_, ⟨hdb, rfl, hraster, hother, rfl⟩, fun hm => ?_⟩
  · simp only [clearTiles]
    omega
  · cases hkind.symm.trans hm

theorem balanced_clearTilesAndRasters {r : UsageRow} (hkind : r.kind = .collection)
    (h : r.Balanced) : (clearTilesAndRasters r).Balanced := by
  obtain ⟨hdb, -, -, hother, -⟩ := h.texts
  refine ⟨?_, ⟨hdb, rfl, rfl, hother, rfl⟩, fun hm => ?_⟩
  · simp only [clearTilesAndRasters]
    omega
  · cases hkind.symm.trans hm

/-- The total is set to 0, which is right as a mosaic takes nothing else. -/
theorem balanced_clearMosaicFile {r : UsageRow} (hkind : r.kind = .mosaic) (h : r.Balanced) :
    (clearMosaicFile r).Balanced := by
  obtain ⟨hdb, htiles, hraster⟩ := h.mosaic hkind
  obtain ⟨hdbH, htilesH, hrasterH, -, -⟩ := h.texts
  refine ⟨?_, ⟨hdbH, htilesH, hrasterH, rfl, rfl⟩, fun _ => ⟨hdb, htiles, hraster⟩⟩
  simp only [clearMosaicFile, hdb, htiles, hraster]

theorem coherent_removeRow {snap : Snapshot} (h : snap.Coherent) (kind : Kind) (id : Text) :
    (removeRowFromSnapshot kind id snap).Coherent where
  rows r hr := h.rows r (List.mem_of_mem_filter hr)
  keys := h.keys.sublist (List.filter_sublist.map _)
  sorted := h.sorted.sublist List.filter_sublist
  count := rfl
  totals := rfl

end Usage
end Storage
end Geofastmap
