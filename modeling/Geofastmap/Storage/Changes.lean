import Geofastmap.Storage.Scan

/-!
# Geofastmap.Storage.Changes

What a deletion from the disk or the tables changes of what the items take: one item each, in the
way the snapshot is patched for it (`plainUsage_unlinkTiles`, `plainUsage_rmtree`, ...).
-/

namespace Geofastmap
namespace Storage
namespace Usage

open Folders

/-! ## What the rows have -/

theorem ne_none_of_ite {α : Type} {P : Prop} [Decidable P] {x : Option α}
    (h : (if P then x else none) ≠ none) : P := by
  by_contra hP
  exact h (if_neg hP)

theorem changeAt_other {f : Option UsageRow → Option UsageRow} {kind k : Kind} (hk : k ≠ kind)
    (id i : Text) (u : Kind → Text → Option UsageRow) : changeAt f kind id u k i = u k i :=
  if_neg fun h => hk h.1

theorem eq_changeAt {f : Option UsageRow → Option UsageRow} {kind k : Kind} {id i : Text}
    {u : Kind → Text → Option UsageRow} {x : Option UsageRow} (hk : k ≠ kind) (hx : x = u k i) :
    x = changeAt f kind id u k i :=
  hx.trans (changeAt_other hk id i u).symm

theorem changeAt_self (f : Option UsageRow → Option UsageRow) (kind : Kind) (id i : Text)
    (u : Kind → Text → Option UsageRow) :
    changeAt f kind id u kind i = if i = id then f (u kind i) else u kind i := by
  simp [changeAt]

theorem Tidy.of_root {db : Database} {d d' : Disk} (h : Tidy db d)
    (hroot : d'.tilesStoragePath = d.tilesStoragePath) : Tidy db d' where
  ids := h.ids
  stored c hc path hpath := by
    rw [h.stored c hc path hpath, Disk.inTiles, Disk.inTiles, hroot]
  paths := h.paths
  paths_nodup := h.paths_nodup

theorem getCollection_some {db : Database} {id : Text} {c : CollectionRow}
    (h : getCollection db id = some c) : c ∈ db.collections ∧ c.id = id :=
  ⟨List.mem_of_find?_eq_some h,
    of_decide_eq_true (List.find?_some (p := fun c : CollectionRow => decide (c.id = id)) h)⟩

theorem getView_some {db : Database} {id : Text} {m : MosaicRow} (h : getView db id = some m) :
    m ∈ db.mosaics ∧ m.id = id :=
  ⟨List.mem_of_find?_eq_some h,
    of_decide_eq_true (List.find?_some (p := fun m : MosaicRow => decide (m.id = id)) h)⟩

theorem getView_of_mem {db : Database} {m : MosaicRow} (h : m ∈ db.mosaics) :
    getView db m.id = some m := by
  cases hm : getView db m.id with
  | none => exact absurd (List.find?_eq_none.mp hm m h) (by simp)
  | some m' =>
    obtain ⟨hmem, hid⟩ := getView_some hm
    exact congrArg some (List.inj_on_of_nodup_map db.mosaics_nodup hmem h hid)

/-- A plain row of a collection by its three sizes. -/
def sizesRow (c : CollectionRow) (db tiles raster : Nat) : UsageRow :=
  let ctype := if c.collectionType.isEmpty then "vector".toList else c.collectionType
  row .collection c.id ⟨c.title, c.owner, ctype, c.featureCount⟩
    { db := db, tiles := tiles, raster := raster } true false

theorem plain_collectionRow {db : Database} {d : Disk} (h : Tidy db d) {c : CollectionRow}
    (hc : c ∈ db.collections) :
    plain (collectionRow db d c) = sizesRow c ((db.partSizes.lookup c.id).getD 0)
      ((d.tilesRoot.file (mbtilesName c.id)).getD 0)
      (((d.rasterRoot.dir c.id).map Tree.size).getD 0) := by
  rw [collectionRow, tilesBytes_tidy h hc]
  rfl

/-- What the row of a collection looks at. -/
theorem plainUsage_collection {db : Database} {d : Disk} (h : Tidy db d) (id : Text) :
    plainUsage db d .collection id = (getCollection db id).map fun c =>
      sizesRow c ((db.partSizes.lookup id).getD 0) ((d.tilesRoot.file (mbtilesName id)).getD 0)
        (((d.rasterRoot.dir id).map Tree.size).getD 0) := by
  rw [plainUsage, usage]
  cases hc : getCollection db id with
  | none => rfl
  | some c =>
    obtain ⟨hmem, rfl⟩ := getCollection_some hc
    exact congrArg some (plain_collectionRow h hmem)

theorem fileAt_rmtree (f : Folder) {name : Text} (hname : name ≠ viewsName) (x : Text) :
    (f.rmtree name).fileAt (viewsPath x) = f.fileAt (viewsPath x) := by
  rw [Folder.fileAt_below _ (cut_viewsPath x), Folder.fileAt_below _ (cut_viewsPath x),
    Folder.dir_rmtree, if_neg hname.symm]

theorem dir_unlink_views (f : Folder) {path x : Text} (hpath : path = viewsPath (path.drop 6))
    (hx : x ≠ viewsName) : (f.unlink path).dir x = f.dir x := by
  rw [hpath, Folder.dir_unlink _ (cut_viewsPath _), if_neg hx]

theorem mosaicRow_congr {d d' : Disk} {m : MosaicRow}
    (h : d'.rasterRoot.fileAt m.jsonRelativePath = d.rasterRoot.fileAt m.jsonRelativePath) :
    mosaicRow d' m = mosaicRow d m := by
  have hfile : mosaicFile d' m = mosaicFile d m := by
    unfold mosaicFile
    rw [h]
  rw [mosaicRow, mosaicRow, hfile]

/-- The files and directories of a collection are its own, or there are none. -/
structure OwnFiles (db : Database) (d : Disk) (id : Text) : Prop where
  name : ProperName id
  views : id ≠ viewsName
  gone : id ∈ db.collections.map CollectionRow.id ∨
    d.tilesRoot.file (mbtilesName id) = none ∧ d.rasterRoot.dir id = none

theorem Tidy.ownFiles {db : Database} {d : Disk} (h : Tidy db d) {c : CollectionRow}
    (hc : c ∈ db.collections) : OwnFiles db d c.id :=
  ⟨(h.ids c hc).1, (h.ids c hc).2, .inl (List.mem_map_of_mem hc)⟩

/-- The file of a mosaic is its own, or there is none. -/
structure OwnFile (db : Database) (d : Disk) (viewId path : Text) : Prop where
  below : path = viewsPath (path.drop 6)
  gone : (∃ m, getView db viewId = some m ∧ m.jsonRelativePath = path) ∨
    getView db viewId = none ∧ d.rasterRoot.fileAt path = none

/-! ### What each row looks at -/

section Same
variable {db : Database} {d d' : Disk}

theorem collection_same (h : Tidy db d) (h' : Tidy db d') {i : Text}
    (hsame : i ∈ db.collections.map CollectionRow.id →
      d'.tilesRoot.file (mbtilesName i) = d.tilesRoot.file (mbtilesName i) ∧
        d'.rasterRoot.dir i = d.rasterRoot.dir i) :
    plainUsage db d' .collection i = plainUsage db d .collection i := by
  rw [plainUsage_collection h', plainUsage_collection h]
  cases hc : getCollection db i with
  | none => rfl
  | some c =>
    obtain ⟨hmem, rfl⟩ := getCollection_some hc
    obtain ⟨hfile, hdir⟩ := hsame (List.mem_map_of_mem hmem)
    rw [hfile, hdir]

theorem mosaic_same {i : Text} (hsame : ∀ m, getView db i = some m →
      d'.rasterRoot.fileAt m.jsonRelativePath = d.rasterRoot.fileAt m.jsonRelativePath) :
    plainUsage db d' .mosaic i = plainUsage db d .mosaic i := by
  rw [plainUsage, plainUsage, usage, usage]
  cases hm : getView db i with
  | none => rfl
  | some m => exact congrArg (fun r => some (plain r)) (mosaicRow_congr (hsame m hm))

theorem orphanTiles_same {name : Text}
    (hsame : name ∉ db.collections.map (fun c => mbtilesName c.id) →
      d'.tilesRoot.file name = d.tilesRoot.file name) :
    plainUsage db d' .orphanTiles name = plainUsage db d .orphanTiles name := by
  rw [plainUsage, plainUsage, usage, usage]
  split
  · rename_i hcond
    rw [hsame hcond.2]
  · rfl

theorem orphanRasters_same {name : Text} (hsame : name ≠ viewsName →
      name ∉ db.collections.map CollectionRow.id →
      d'.rasterRoot.dir name = d.rasterRoot.dir name) :
    plainUsage db d' .orphanRasters name = plainUsage db d .orphanRasters name := by
  rw [plainUsage, plainUsage, usage, usage]
  split
  · rename_i hcond
    rw [hsame hcond.1 hcond.2.2]
  · rfl

theorem orphanMosaic_same {path : Text} (hsame : path = viewsPath (path.drop 6) →
      path ∉ db.mosaics.map MosaicRow.jsonRelativePath →
      d'.rasterRoot.fileAt path = d.rasterRoot.fileAt path) :
    plainUsage db d' .orphanMosaic path = plainUsage db d .orphanMosaic path := by
  rw [plainUsage, plainUsage, usage, usage]
  split
  · rename_i hcond
    rw [hsame hcond.1 hcond.2.2]
  · rfl

end Same

/-! ### Files -/

section Files
variable {db : Database} {d : Disk} (h : Tidy db d)
include h

theorem plainUsage_unlinkTiles {id : Text} (hid : OwnFiles db d id) :
    plainUsage db { d with tilesRoot := d.tilesRoot.unlink (mbtilesName id) } =
      changeAt (Option.map clearTiles) .collection id (plainUsage db d) := by
  have h' : Tidy db { d with tilesRoot := d.tilesRoot.unlink (mbtilesName id) } := h.of_root rfl
  have hfile := Folder.file_unlink d.tilesRoot (cut_name (mbtilesName_slash hid.name.slash))
  funext k i
  cases k with
  | collection =>
    rw [changeAt_self]
    split
    · rename_i hi
      subst hi
      rw [plainUsage_collection h', plainUsage_collection h, hfile, if_pos rfl, Option.map_map]
      rfl
    · rename_i hi
      refine collection_same h h' fun _ => ⟨?_, rfl⟩
      exact (hfile _).trans (if_neg fun heq => hi (mbtilesName_injective heq))
  | orphanTiles =>
    refine eq_changeAt (by simp) (orphanTiles_same fun hout => (hfile i).trans ?_)
    split
    · rename_i hi
      rcases hid.gone with hin | ⟨hnone, -⟩
      · obtain ⟨c, hc, rfl⟩ := List.mem_map.mp hin
        exact absurd (List.mem_map.mpr ⟨c, hc, hi.symm⟩) hout
      · rw [hi, hnone]
    · rfl
  | mosaic => exact eq_changeAt (by simp) rfl
  | orphanRasters => exact eq_changeAt (by simp) rfl
  | orphanMosaic => exact eq_changeAt (by simp) rfl
  | bulkUploads => exact eq_changeAt (by simp) rfl

theorem mosaic_same_rmtree {name i : Text} (hname : name ≠ viewsName) :
    plainUsage db { d with rasterRoot := d.rasterRoot.rmtree name } .mosaic i =
      plainUsage db d .mosaic i := by
  refine mosaic_same fun m hm => ?_
  rw [(h.paths m (getView_some hm).1).1]
  exact fileAt_rmtree d.rasterRoot hname _

omit h in
theorem orphanMosaic_same_rmtree {name path : Text} (hname : name ≠ viewsName) :
    plainUsage db { d with rasterRoot := d.rasterRoot.rmtree name } .orphanMosaic path =
      plainUsage db d .orphanMosaic path := by
  refine orphanMosaic_same fun hpath _ => ?_
  rw [hpath]
  exact fileAt_rmtree d.rasterRoot hname _

theorem plainUsage_rmtree {id : Text} (hid : OwnFiles db d id)
    (hnone : d.tilesRoot.file (mbtilesName id) = none) :
    plainUsage db { d with rasterRoot := d.rasterRoot.rmtree id } =
      changeAt (Option.map clearTilesAndRasters) .collection id (plainUsage db d) := by
  have h' : Tidy db { d with rasterRoot := d.rasterRoot.rmtree id } := h.of_root rfl
  have hdir := Folder.dir_rmtree d.rasterRoot id
  funext k i
  cases k with
  | collection =>
    rw [changeAt_self]
    split
    · rename_i hi
      subst hi
      rw [plainUsage_collection h', plainUsage_collection h, hdir, if_pos rfl, hnone,
        Option.map_map]
      rfl
    · rename_i hi
      exact collection_same h h' fun _ => ⟨rfl, (hdir i).trans (if_neg hi)⟩
  | orphanRasters =>
    refine eq_changeAt (by simp) (orphanRasters_same fun _ hout => (hdir i).trans ?_)
    split
    · rename_i hi
      rcases hid.gone with hin | ⟨-, hgone⟩
      · exact absurd (hi ▸ hin) hout
      · rw [hi, hgone]
    · rfl
  | mosaic => exact eq_changeAt (by simp) (mosaic_same_rmtree h hid.views)
  | orphanMosaic => exact eq_changeAt (by simp) (orphanMosaic_same_rmtree hid.views)
  | orphanTiles => exact eq_changeAt (by simp) rfl
  | bulkUploads => exact eq_changeAt (by simp) rfl

theorem collection_same_unlink {path i : Text} (hpath : path = viewsPath (path.drop 6)) :
    plainUsage db { d with rasterRoot := d.rasterRoot.unlink path } .collection i =
      plainUsage db d .collection i := by
  have h' : Tidy db { d with rasterRoot := d.rasterRoot.unlink path } := h.of_root rfl
  refine collection_same h h' fun hin => ⟨rfl, ?_⟩
  obtain ⟨c, hc, rfl⟩ := List.mem_map.mp hin
  exact dir_unlink_views _ hpath (h.ids c hc).2

omit h in
theorem orphanRasters_same_unlink {path name : Text} (hpath : path = viewsPath (path.drop 6)) :
    plainUsage db { d with rasterRoot := d.rasterRoot.unlink path } .orphanRasters name =
      plainUsage db d .orphanRasters name :=
  orphanRasters_same fun hviews _ => dir_unlink_views _ hpath hviews

theorem plainUsage_unlinkMosaic {viewId path : Text} (hpath : OwnFile db d viewId path) :
    plainUsage db { d with rasterRoot := d.rasterRoot.unlink path } =
      changeAt (Option.map clearMosaicFile) .mosaic viewId (plainUsage db d) := by
  have h' : Tidy db { d with rasterRoot := d.rasterRoot.unlink path } := h.of_root rfl
  have hfile := Folder.fileAt_unlink d.rasterRoot path
  funext k i
  cases k with
  | mosaic =>
    rw [changeAt_self]
    split
    · rename_i hi
      subst hi
      rw [plainUsage, plainUsage, usage, usage]
      obtain ⟨m, hm, hp⟩ | ⟨hnone, -⟩ := hpath.gone
      · rw [hm, Option.map_some, Option.map_some, Option.map_some, Option.map_some, mosaicRow,
          mosaicFile_tidy h' (getView_some hm).1, hfile, if_pos hp]
        rfl
      · rw [hnone]
        rfl
    · rename_i hi
      refine mosaic_same fun m hm => (hfile _).trans ?_
      split
      · rename_i hp
        obtain ⟨m', hm', hp'⟩ | ⟨-, hnone⟩ := hpath.gone
        · obtain ⟨hmem, rfl⟩ := getView_some hm
          obtain ⟨hmem', rfl⟩ := getView_some hm'
          have hsame := List.inj_on_of_nodup_map h.paths_nodup hmem hmem' (hp.trans hp'.symm)
          exact absurd (congrArg MosaicRow.id hsame) hi
        · rw [hp, hnone]
      · rfl
  | orphanMosaic =>
    refine eq_changeAt (by simp) (orphanMosaic_same fun _ hout => (hfile i).trans ?_)
    split
    · rename_i hi
      obtain ⟨m, hm, hp⟩ | ⟨-, hnone⟩ := hpath.gone
      · exact absurd (List.mem_map.mpr ⟨m, (getView_some hm).1, hp.trans hi.symm⟩) hout
      · rw [hi, hnone]
    · rfl
  | collection => exact eq_changeAt (by simp) (collection_same_unlink h hpath.below)
  | orphanRasters => exact eq_changeAt (by simp) (orphanRasters_same_unlink hpath.below)
  | orphanTiles => exact eq_changeAt (by simp) rfl
  | bulkUploads => exact eq_changeAt (by simp) rfl

theorem plainUsage_unlinkOrphanTiles {name : Text} (hslash : '/' ∉ name)
    (hname : usage db d .orphanTiles name ≠ none) :
    plainUsage db { d with tilesRoot := d.tilesRoot.unlink name } =
      changeAt (fun _ => none) .orphanTiles name (plainUsage db d) := by
  have h' : Tidy db { d with tilesRoot := d.tilesRoot.unlink name } := h.of_root rfl
  have hfile := Folder.file_unlink d.tilesRoot (cut_name hslash)
  have hout : name ∉ db.collections.map fun c => mbtilesName c.id := by
    rw [usage] at hname
    exact (ne_none_of_ite hname).2
  funext k i
  cases k with
  | collection =>
    refine eq_changeAt (by simp) (collection_same h h' fun hin => ⟨?_, rfl⟩)
    obtain ⟨c, hc, rfl⟩ := List.mem_map.mp hin
    exact (hfile _).trans (if_neg fun heq => hout (List.mem_map.mpr ⟨c, hc, heq⟩))
  | orphanTiles =>
    rw [changeAt_self]
    split
    · rename_i hi
      rw [plainUsage, usage, hfile, if_pos hi]
      split <;> rfl
    · rename_i hi
      exact orphanTiles_same fun _ => (hfile i).trans (if_neg hi)
  | mosaic => exact eq_changeAt (by simp) rfl
  | orphanRasters => exact eq_changeAt (by simp) rfl
  | orphanMosaic => exact eq_changeAt (by simp) rfl
  | bulkUploads => exact eq_changeAt (by simp) rfl

theorem plainUsage_rmtreeOrphan {name : Text} (hname : usage db d .orphanRasters name ≠ none) :
    plainUsage db { d with rasterRoot := d.rasterRoot.rmtree name } =
      changeAt (fun _ => none) .orphanRasters name (plainUsage db d) := by
  have h' : Tidy db { d with rasterRoot := d.rasterRoot.rmtree name } := h.of_root rfl
  have hdir := Folder.dir_rmtree d.rasterRoot name
  obtain ⟨hviews, -, hout⟩ : name ≠ viewsName ∧ name.head? ≠ some '.' ∧
      name ∉ db.collections.map CollectionRow.id := by
    rw [usage] at hname
    exact ne_none_of_ite hname
  funext k i
  cases k with
  | collection =>
    refine eq_changeAt (by simp) (collection_same h h' fun hin => ⟨rfl, ?_⟩)
    exact (hdir i).trans (if_neg fun heq : i = name => hout (heq ▸ hin))
  | orphanRasters =>
    rw [changeAt_self]
    split
    · rename_i hi
      rw [plainUsage, usage, hdir, if_pos hi]
      split <;> rfl
    · rename_i hi
      exact orphanRasters_same fun _ _ => (hdir i).trans (if_neg hi)
  | mosaic => exact eq_changeAt (by simp) (mosaic_same_rmtree h hviews)
  | orphanMosaic => exact eq_changeAt (by simp) (orphanMosaic_same_rmtree hviews)
  | orphanTiles => exact eq_changeAt (by simp) rfl
  | bulkUploads => exact eq_changeAt (by simp) rfl

theorem plainUsage_unlinkOrphanMosaic {path : Text} (hpath : usage db d .orphanMosaic path ≠ none) :
    plainUsage db { d with rasterRoot := d.rasterRoot.unlink path } =
      changeAt (fun _ => none) .orphanMosaic path (plainUsage db d) := by
  have hfile := Folder.fileAt_unlink d.rasterRoot path
  obtain ⟨hbelow, -, hout⟩ : path = viewsPath (path.drop 6) ∧ '/' ∉ path.drop 6 ∧
      path ∉ db.mosaics.map MosaicRow.jsonRelativePath := by
    rw [usage] at hpath
    exact ne_none_of_ite hpath
  funext k i
  cases k with
  | mosaic =>
    refine eq_changeAt (by simp) (mosaic_same fun m hm => (hfile _).trans (if_neg fun heq => ?_))
    exact hout (List.mem_map.mpr ⟨m, (getView_some hm).1, heq⟩)
  | orphanMosaic =>
    rw [changeAt_self]
    split
    · rename_i hi
      rw [plainUsage, usage, hfile, if_pos hi]
      split <;> rfl
    · rename_i hi
      exact orphanMosaic_same fun _ _ => (hfile i).trans (if_neg hi)
  | collection => exact eq_changeAt (by simp) (collection_same_unlink h hbelow)
  | orphanRasters => exact eq_changeAt (by simp) (orphanRasters_same_unlink hbelow)
  | orphanTiles => exact eq_changeAt (by simp) rfl
  | bulkUploads => exact eq_changeAt (by simp) rfl

end Files

/-! ### Tables -/

section Tables
variable {db : Database} {d : Disk} (h : Tidy db d)

theorem collections_clearStaticTiles {α : Type} (db : Database) (id : Text)
    (g : CollectionRow → α) (hg : ∀ c : CollectionRow, g { c with pmtilesPath := none } = g c) :
    (clearStaticTiles db id).collections.map g = db.collections.map g := by
  rw [clearStaticTiles, List.map_map]
  refine List.map_congr_left fun c _ => ?_
  rw [Function.comp_apply]
  split
  · exact hg c
  · rfl

theorem despace_eq {s : Text} (h : ' ' ∉ s) : Sql.despace s = s := by
  refine List.filter_eq_self.mpr fun ch hch => ?_
  have hne : ch ≠ ' ' := fun hch' => h (hch' ▸ hch)
  simp [hne]

/-- The partition that is dropped for an id is not that of another name. -/
theorem lookup_dropPartition (sizes : List (Text × Nat)) {k id : Text} (hk : ' ' ∉ k)
    (hid : ' ' ∉ id) (hne : k ≠ id) : (dropPartition sizes id).lookup k = sizes.lookup k := by
  unfold dropPartition
  induction sizes with
  | nil => rfl
  | cons e sizes ih =>
    by_cases hbound : Sql.despace (Db.Bound.values [e.1]).expr = Db.partitionBoundLiteral id
    · obtain ⟨x, hx, hdespace⟩ := (Db.expr_eq_literal_iff _ _).mp hbound
      obtain rfl : e.1 = x := by simpa using hx
      rw [despace_eq hid] at hdespace
      have hke : (k == e.1) = false := by
        refine beq_false_of_ne ?_
        rintro rfl
        exact hne ((despace_eq hk).symm.trans hdespace)
      rw [List.eraseP_cons_of_pos (by simpa using hbound), List.lookup_cons, hke]
    · rw [List.eraseP_cons_of_neg (by simpa using hbound), List.lookup_cons, List.lookup_cons, ih]

include h

theorem Tidy.clearStaticTiles (id : Text) : Tidy (clearStaticTiles db id) d where
  ids c hc := by
    obtain ⟨c', hc', rfl⟩ := List.mem_map.mp hc
    have hid := h.ids c' hc'
    split <;> exact hid
  stored c hc path hpath := by
    obtain ⟨c', hc', rfl⟩ := List.mem_map.mp hc
    split at hpath
    · cases hpath
    · rename_i hne
      rw [if_neg hne]
      exact h.stored c' hc' path hpath
  paths := h.paths
  paths_nodup := h.paths_nodup

theorem plainUsage_clearStaticTiles (id : Text) :
    plainUsage (Usage.clearStaticTiles db id) d = plainUsage db d := by
  have h' := h.clearStaticTiles id
  funext k i
  cases k with
  | collection =>
    have hget : getCollection (Usage.clearStaticTiles db id) i =
        (getCollection db i).map fun c =>
          if c.id = id then { c with pmtilesPath := none } else c := by
      rw [getCollection, getCollection, Usage.clearStaticTiles, List.find?_map]
      congr 2
      funext c
      by_cases hc : c.id = id <;> simp [hc]
    rw [plainUsage_collection h', plainUsage_collection h, hget, Option.map_map]
    refine congrArg (fun f => (getCollection db i).map f) (funext fun c => ?_)
    rw [Function.comp_apply]
    split <;> rfl
  | orphanTiles =>
    rw [plainUsage, plainUsage, usage, usage, collections_clearStaticTiles _ _ _ fun _ => rfl]
  | orphanRasters =>
    rw [plainUsage, plainUsage, usage, usage, collections_clearStaticTiles _ _ _ fun _ => rfl]
  | mosaic => rfl
  | orphanMosaic => rfl
  | bulkUploads => rfl

/-- Without the partition of a collection that is not there. -/
theorem plainUsage_dropPartition {id : Text} (hname : ProperName id)
    (hid : id ∉ db.collections.map CollectionRow.id) :
    plainUsage { db with partSizes := dropPartition db.partSizes id } d = plainUsage db d := by
  funext k i
  cases k with
  | collection =>
    have hget : getCollection { db with partSizes := dropPartition db.partSizes id } i =
        getCollection db i := rfl
    have h' : Tidy { db with partSizes := dropPartition db.partSizes id } d :=
      ⟨h.ids, h.stored, h.paths, h.paths_nodup⟩
    rw [plainUsage_collection h', plainUsage_collection h, hget]
    cases hc : getCollection db i with
    | none => rfl
    | some c =>
      obtain ⟨hmem, rfl⟩ := getCollection_some hc
      have hne : c.id ≠ id := fun heq => hid (List.mem_map.mpr ⟨c, hmem, heq⟩)
      rw [lookup_dropPartition _ (h.ids c hmem).1.blanks hname.blanks hne]
  | mosaic => rfl
  | orphanTiles => rfl
  | orphanRasters => rfl
  | orphanMosaic => rfl
  | bulkUploads => rfl

/-- The tables after a collection is deleted with its features. -/
def withoutCollection (db : Database) (id : Text) : Database :=
  deleteCollectionRow { db with partSizes := dropPartition db.partSizes id } id

theorem Tidy.withoutCollection (id : Text) : Tidy (withoutCollection db id) d where
  ids c hc := h.ids c (List.mem_of_mem_filter hc)
  stored c hc := h.stored c (List.mem_of_mem_filter hc)
  paths := h.paths
  paths_nodup := h.paths_nodup

omit h in
theorem getCollection_withoutCollection (id i : Text) :
    getCollection (Usage.withoutCollection db id) i =
      if i = id then none else getCollection db i := by
  rw [getCollection, getCollection, Usage.withoutCollection, deleteCollectionRow,
    List.find?_filter]
  split
  · rename_i hi
    rw [List.find?_eq_none]
    intro c _
    simp [hi]
  · rename_i hi
    congr 1
    funext c
    by_cases hc : c.id = i <;> simp [hc, hi]

omit h in
/-- A name that is not made of the deleted id is that of a collection as before. -/
theorem mem_names_withoutCollection {id i : Text} (name : Text → Text) (hi : i ≠ name id) :
    i ∈ (Usage.withoutCollection db id).collections.map (fun c => name c.id) ↔
      i ∈ db.collections.map fun c => name c.id := by
  simp only [Usage.withoutCollection, deleteCollectionRow, List.mem_map, List.mem_filter,
    decide_eq_true_eq]
  refine exists_congr fun c => and_congr_left fun heq => and_iff_left fun hid => hi ?_
  rw [← heq, hid]

theorem plainUsage_withoutCollection {id : Text} (hname : ProperName id)
    (hfile : d.tilesRoot.file (mbtilesName id) = none) (hdir : d.rasterRoot.dir id = none) :
    plainUsage (Usage.withoutCollection db id) d =
      changeAt (fun _ => none) .collection id (plainUsage db d) := by
  have h' := h.withoutCollection id
  funext k i
  cases k with
  | collection =>
    have hsizes : (Usage.withoutCollection db id).partSizes =
        dropPartition db.partSizes id := rfl
    rw [changeAt_self, plainUsage_collection h', plainUsage_collection h,
      getCollection_withoutCollection, hsizes]
    split
    · rfl
    · rename_i hi
      cases hc : getCollection db i with
      | none => rfl
      | some c =>
        obtain ⟨hmem, rfl⟩ := getCollection_some hc
        rw [lookup_dropPartition _ (h.ids c hmem).1.blanks hname.blanks hi]
  | orphanTiles =>
    rw [changeAt_other (by simp), plainUsage, plainUsage, usage, usage]
    by_cases hi : i = mbtilesName id
    · rw [hi, hfile]
      split <;> split <;> rfl
    · simp only [mem_names_withoutCollection mbtilesName hi]
  | orphanRasters =>
    rw [changeAt_other (by simp), plainUsage, plainUsage, usage, usage]
    by_cases hi : i = id
    · rw [hi, hdir]
      split <;> split <;> rfl
    · have hids : i ∈ (Usage.withoutCollection db id).collections.map CollectionRow.id ↔
          i ∈ db.collections.map CollectionRow.id := mem_names_withoutCollection (fun x => x) hi
      simp only [hids]
  | mosaic => exact eq_changeAt (by simp) rfl
  | orphanMosaic => exact eq_changeAt (by simp) rfl
  | bulkUploads => exact eq_changeAt (by simp) rfl

omit h in
theorem getView_deleteViewRow (db : Database) (id i : Text) :
    getView (Usage.deleteViewRow db id) i = if i = id then none else getView db i := by
  rw [getView, getView, Usage.deleteViewRow, List.find?_filter]
  split
  · rename_i hi
    rw [List.find?_eq_none]
    intro m _
    simp [hi]
  · rename_i hi
    congr 1
    funext m
    by_cases hm : m.id = i <;> simp [hm, hi]

theorem Tidy.deleteViewRow (id : Text) : Tidy (deleteViewRow db id) d where
  ids := h.ids
  stored := h.stored
  paths m hm := h.paths m (List.mem_of_mem_filter hm)
  paths_nodup := h.paths_nodup.sublist (List.filter_sublist.map _)

omit h in
theorem plainUsage_deleteViewRow {id path : Text} (hpath : OwnFile db d id path)
    (hfile : d.rasterRoot.fileAt path = none) :
    plainUsage (Usage.deleteViewRow db id) d =
      changeAt (fun _ => none) .mosaic id (plainUsage db d) := by
  have hmem : ∀ m, m ∈ (Usage.deleteViewRow db id).mosaics ↔ m ∈ db.mosaics ∧ m.id ≠ id := by
    intro m
    rw [Usage.deleteViewRow, List.mem_filter, decide_eq_true_eq]
  funext k i
  cases k with
  | mosaic =>
    rw [changeAt_self, plainUsage, plainUsage, usage, usage, getView_deleteViewRow]
    split <;> rfl
  | orphanMosaic =>
    rw [changeAt_other (by simp), plainUsage, plainUsage, usage, usage]
    by_cases hi : i = path
    · rw [hi, hfile]
      split <;> split <;> rfl
    · have hiff : i ∈ (Usage.deleteViewRow db id).mosaics.map MosaicRow.jsonRelativePath ↔
          i ∈ db.mosaics.map MosaicRow.jsonRelativePath := by
        simp only [List.mem_map, hmem]
        refine exists_congr fun m => and_congr_left fun heq => and_iff_left_of_imp fun hm hid => ?_
        have hview := hid ▸ getView_of_mem hm
        obtain ⟨m', hm', hp⟩ | ⟨hnone, -⟩ := hpath.gone
        · cases hview.symm.trans hm'
          exact hi (heq.symm.trans hp)
        · cases hview.symm.trans hnone
      simp only [hiff]
  | collection => exact eq_changeAt (by simp) rfl
  | orphanTiles => exact eq_changeAt (by simp) rfl
  | orphanRasters => exact eq_changeAt (by simp) rfl
  | bulkUploads => exact eq_changeAt (by simp) rfl

end Tables

end Usage
end Storage
end Geofastmap
