import Geofastmap.Storage.Changes

/-!
# Geofastmap.Storage.Rescan

The snapshot of the storage usage that the deletions have patched, and the one a new scan makes.

`Shrinks` is what the deletions have in common, and what a queued one relies on until it is taken.
`patched_as_rescanned` : after a scan and any deletions from the page, the rows, the count and the
totals are those of a new scan. Only `can_delete_tiles` may differ.
-/

namespace Geofastmap
namespace Storage
namespace Usage

open Folders

/-! ## Runs -/

/-- Files and rows only go, and the files of a row before it. -/
structure Shrinks (db : Database) (d : Disk) (db' : Database) (d' : Disk) : Prop where
  file : ∀ name, d.tilesRoot.file name = none → d'.tilesRoot.file name = none
  dir : ∀ name, d.rasterRoot.dir name = none → d'.rasterRoot.dir name = none
  fileAt : ∀ path, d.rasterRoot.fileAt path = none → d'.rasterRoot.fileAt path = none
  collections : ∀ id ∈ db.collections.map CollectionRow.id,
    id ∈ db'.collections.map CollectionRow.id ∨
      d'.tilesRoot.file (mbtilesName id) = none ∧ d'.rasterRoot.dir id = none
  view : ∀ id m, getView db id = some m → getView db' id = some m ∨
    getView db' id = none ∧ d'.rasterRoot.fileAt m.jsonRelativePath = none
  noView : ∀ id, getView db id = none → getView db' id = none

section Shrinks
variable {db db' : Database} {d d' : Disk}

theorem OwnFiles.shrinks {id : Text} (h : OwnFiles db d id) (hs : Shrinks db d db' d') :
    OwnFiles db' d' id := by
  refine ⟨h.name, h.views, ?_⟩
  rcases h.gone with hin | ⟨hfile, hdir⟩
  · exact hs.collections id hin
  · exact .inr ⟨hs.file _ hfile, hs.dir _ hdir⟩

theorem OwnFile.shrinks {viewId path : Text} (h : OwnFile db d viewId path)
    (hs : Shrinks db d db' d') : OwnFile db' d' viewId path := by
  refine ⟨h.below, ?_⟩
  obtain ⟨m, hm, rfl⟩ | ⟨hnone, hfile⟩ := h.gone
  · rcases hs.view viewId m hm with hm | hgone
    · exact .inl ⟨m, hm, rfl⟩
    · exact .inr hgone
  · exact .inr ⟨hs.noView viewId hnone, hs.fileAt path hfile⟩

theorem Shrinks.trans {db'' : Database} {d'' : Disk} (h : Shrinks db d db' d')
    (h' : Shrinks db' d' db'' d'') : Shrinks db d db'' d'' where
  file name hname := h'.file name (h.file name hname)
  dir name hname := h'.dir name (h.dir name hname)
  fileAt path hpath := h'.fileAt path (h.fileAt path hpath)
  collections id hid := by
    rcases h.collections id hid with hid | ⟨hfile, hdir⟩
    · exact h'.collections id hid
    · exact .inr ⟨h'.file _ hfile, h'.dir _ hdir⟩
  view id m hm := by
    rcases h.view id m hm with hm | ⟨hm, hfile⟩
    · exact h'.view id m hm
    · exact .inr ⟨h'.noView id hm, h'.fileAt _ hfile⟩
  noView id hid := h'.noView id (h.noView id hid)

theorem Shrinks.disk (hfile : ∀ name, d.tilesRoot.file name = none → d'.tilesRoot.file name = none)
    (hdir : ∀ name, d.rasterRoot.dir name = none → d'.rasterRoot.dir name = none)
    (hfileAt : ∀ path, d.rasterRoot.fileAt path = none → d'.rasterRoot.fileAt path = none) :
    Shrinks db d db d' :=
  ⟨hfile, hdir, hfileAt, fun _ => .inl, fun _ _ => .inl, fun _ h => h⟩

theorem shrinks_unlinkTiles {name : Text} (hslash : '/' ∉ name) :
    Shrinks db d db { d with tilesRoot := d.tilesRoot.unlink name } := by
  refine Shrinks.disk (fun x hx => ?_) (fun _ h => h) fun _ h => h
  rw [Folder.file_unlink _ (cut_name hslash), hx, ite_self]

theorem shrinks_rmtree (name : Text) :
    Shrinks db d db { d with rasterRoot := d.rasterRoot.rmtree name } := by
  refine Shrinks.disk (fun _ h => h) (fun x hx => ?_) fun path hpath => ?_
  · rw [Folder.dir_rmtree, hx, ite_self]
  · rcases hcut : cut path with ⟨x, - | rest⟩
    · rw [Folder.fileAt_name _ hcut] at hpath ⊢
      rw [Folder.file_rmtree, hpath]
    · rw [Folder.fileAt_below _ hcut] at hpath ⊢
      rw [Folder.dir_rmtree]
      split
      · rfl
      · exact hpath

theorem shrinks_unlinkRasters (path : Text) :
    Shrinks db d db { d with rasterRoot := d.rasterRoot.unlink path } := by
  refine Shrinks.disk (fun _ h => h) (fun x hx => ?_) fun x hx => ?_
  · rcases hcut : cut path with ⟨name, - | rest⟩
    · rw [Folder.dir_unlink_name _ hcut, hx]
    · rw [Folder.dir_unlink _ hcut, hx]
      split <;> rfl
  · rw [Folder.fileAt_unlink, hx, ite_self]

theorem shrinks_clearStaticTiles (id : Text) : Shrinks db d (clearStaticTiles db id) d where
  file _ h := h
  dir _ h := h
  fileAt _ h := h
  collections i hi := .inl (by rwa [collections_clearStaticTiles _ _ _ fun _ => rfl])
  view _ _ := .inl
  noView _ h := h

theorem shrinks_dropPartition (id : Text) :
    Shrinks db d { db with partSizes := dropPartition db.partSizes id } d where
  file _ h := h
  dir _ h := h
  fileAt _ h := h
  collections _ := .inl
  view _ _ := .inl
  noView _ h := h

theorem shrinks_withoutCollection {id : Text} (hfile : d.tilesRoot.file (mbtilesName id) = none)
    (hdir : d.rasterRoot.dir id = none) : Shrinks db d (withoutCollection db id) d where
  file _ h := h
  dir _ h := h
  fileAt _ h := h
  collections i hi := by
    by_cases hid : i = id
    · exact .inr (hid ▸ ⟨hfile, hdir⟩)
    · obtain ⟨c, hc, rfl⟩ := List.mem_map.mp hi
      exact .inl (List.mem_map_of_mem (List.mem_filter.mpr ⟨hc, decide_eq_true hid⟩))
  view _ _ := .inl
  noView _ h := h

theorem shrinks_deleteViewRow {id path : Text} (hpath : OwnFile db d id path)
    (hfile : d.rasterRoot.fileAt path = none) : Shrinks db d (deleteViewRow db id) d := by
  have hget : ∀ i, getView (deleteViewRow db id) i = if i = id then none else getView db i :=
    getView_deleteViewRow db id
  refine ⟨fun _ h => h, fun _ h => h, fun _ h => h, fun _ => .inl, fun i m hm => ?_, fun i hi => ?_⟩
  · by_cases hi : i = id
    · subst hi
      refine .inr ⟨(hget i).trans (if_pos rfl), ?_⟩
      obtain ⟨m', hm', hp⟩ | ⟨hnone, -⟩ := hpath.gone
      · cases hm.symm.trans hm'
        exact hp ▸ hfile
      · cases hm.symm.trans hnone
    · exact .inl (((hget i).trans (if_neg hi)).trans hm)
  · rw [hget, hi, ite_self]

end Shrinks

/-- What a queued deletion may rely on when it is taken. -/
def StorageDeletePayload.Queued (p : StorageDeletePayload) (db : Database) (d : Disk) : Prop :=
  match p.action with
  | .deleteCollection => OwnFiles db d p.targetId
  | .deleteMosaic => ∃ path ∈ p.mosaicJsonPath, hasDots path = false ∧ OwnFile db d p.targetId path
  | _ => False

theorem StorageDeletePayload.Queued.shrinks {p : StorageDeletePayload} {db db' : Database}
    {d d' : Disk} (h : p.Queued db d) (hs : Shrinks db d db' d') : p.Queued db' d' := by
  unfold Queued at h ⊢
  split at h
  · exact OwnFiles.shrinks h hs
  · obtain ⟨path, hpath, hdots, hown⟩ := h
    exact ⟨path, hpath, hdots, hown.shrinks hs⟩
  · exact h

structure World.Good (w : World) : Prop where
  tidy : Tidy w.db w.disk
  fresh : ∀ snap ∈ w.snapshot, Fresh snap (plainUsage w.db w.disk)
  queue : ∀ p ∈ w.queue, p.Queued w.db w.disk

section Steps
variable {w : World} (h : w.Good) {db : Database} {d : Disk} (htidy : Tidy db d)
  (hs : Shrinks w.db w.disk db d)
include h htidy hs

theorem World.Good.same (hu : plainUsage db d = plainUsage w.db w.disk) :
    ({ w with db := db, disk := d } : World).Good where
  tidy := htidy
  fresh snap hsnap := hu ▸ h.fresh snap hsnap
  queue p hp := (h.queue p hp).shrinks hs

theorem World.Good.patched {kind : Kind} {id : Text} {f : UsageRow → UsageRow}
    (hkey : ∀ r, (f r).key = r.key)
    (hbalanced : ∀ r : UsageRow, r.kind = kind → r.Balanced → (f r).Balanced)
    (hplain : ∀ r, plain (f r) = f (plain r))
    (hu : plainUsage db d = changeAt (Option.map f) kind id (plainUsage w.db w.disk)) :
    (({ w with db := db, disk := d } : World).patch (patchRow kind id f)).Good where
  tidy := htidy
  fresh snap hsnap := by
    obtain ⟨snap, hold, rfl⟩ := Option.map_eq_some_iff.mp hsnap
    have hpatched : Fresh _ (changeAt (Option.map f) kind id _) :=
      (h.fresh snap hold).patched hkey hbalanced hplain
    rw [← hu] at hpatched
    exact hpatched
  queue p hp := (h.queue p hp).shrinks hs

theorem World.Good.removed {kind : Kind} {id : Text}
    (hu : plainUsage db d = changeAt (fun _ => none) kind id (plainUsage w.db w.disk)) :
    (({ w with db := db, disk := d } : World).removeRow kind id).Good where
  tidy := htidy
  fresh snap hsnap := by
    obtain ⟨snap, hold, rfl⟩ := Option.map_eq_some_iff.mp hsnap
    have hremoved := (h.fresh snap hold).removed kind id
    rw [← hu] at hremoved
    exact hremoved
  queue p hp := (h.queue p hp).shrinks hs

end Steps

/-! ### The files of a collection -/

section CollectionFiles
variable {db : Database} {d : Disk}

theorem unlinkCollectionTileFiles_tidy (h : Tidy db d) {c : CollectionRow}
    (hc : c ∈ db.collections) :
    (unlinkCollectionTileFiles d c.id c.pmtilesPath).1 =
      { d with tilesRoot := d.tilesRoot.unlink (mbtilesName c.id) } := by
  have hfound : collectionMbtilesPath d c.id c.pmtilesPath =
      (d.tilesRoot.file (mbtilesName c.id)).map fun _ => d.inTiles (mbtilesName c.id) :=
    collectionTiles_tidy h hc
  rw [← unlink_inTiles, unlinkCollectionTileFiles, hfound]
  cases d.tilesRoot.file (mbtilesName c.id) with
  | none => rfl
  | some size => simp

theorem unlinkMbtiles_tidy {id : Text} {stored : Option Text}
    (hstored : ∀ path ∈ stored, path = d.inTiles (mbtilesName id)) :
    unlinkMbtiles d id stored = { d with tilesRoot := d.tilesRoot.unlink (mbtilesName id) } := by
  rw [← unlink_inTiles]
  rcases stored with - | - | ⟨ch, path⟩
  · rfl
  · rfl
  · have hpath := hstored _ rfl
    unfold unlinkMbtiles
    simp [hpath]

theorem deleteCollectionRasterDir_name {id : Text} (hid : ProperName id) :
    deleteCollectionRasterDir d id = { d with rasterRoot := d.rasterRoot.rmtree id } := by
  rw [deleteCollectionRasterDir, hid.dots, if_neg]
  simpa using hid.slash

/-- The disk without the files of a collection. -/
def withoutFiles (d : Disk) (id : Text) : Disk :=
  { d with
    tilesRoot := d.tilesRoot.unlink (mbtilesName id)
    rasterRoot := d.rasterRoot.rmtree id }

variable {id : Text} (hid : OwnFiles db d id)
include hid

theorem shrinks_withoutFiles : Shrinks db d db (withoutFiles d id) := by
  have htiles : Shrinks db d db { d with tilesRoot := d.tilesRoot.unlink (mbtilesName id) } :=
    shrinks_unlinkTiles (mbtilesName_slash hid.name.slash)
  exact htiles.trans (shrinks_rmtree id)

theorem file_withoutFiles : (withoutFiles d id).tilesRoot.file (mbtilesName id) = none := by
  have hfile := Folder.file_unlink d.tilesRoot (cut_name (mbtilesName_slash hid.name.slash))
  exact (hfile _).trans (if_pos rfl)

omit hid in
theorem dir_withoutFiles : (withoutFiles d id).rasterRoot.dir id = none :=
  (Folder.dir_rmtree d.rasterRoot id id).trans (if_pos rfl)

theorem plainUsage_withoutFiles (h : Tidy db d) :
    plainUsage db (withoutFiles d id) =
      changeAt (Option.map clearTilesAndRasters) .collection id (plainUsage db d) := by
  have h' : Tidy db { d with tilesRoot := d.tilesRoot.unlink (mbtilesName id) } := h.of_root rfl
  have hs : Shrinks db d db { d with tilesRoot := d.tilesRoot.unlink (mbtilesName id) } :=
    shrinks_unlinkTiles (mbtilesName_slash hid.name.slash)
  have hrasters := plainUsage_rmtree h' (hid.shrinks hs) (file_withoutFiles hid)
  rw [plainUsage_unlinkTiles h hid] at hrasters
  refine hrasters.trans ?_
  funext k i
  unfold changeAt
  split
  · cases plainUsage db d k i <;> rfl
  · rfl

end CollectionFiles

theorem World.Good.filesRemoved {w : World} (h : w.Good) {id : Text}
    (hid : OwnFiles w.db w.disk id) :
    (({ w with disk := withoutFiles w.disk id } : World).patch
      (patchRowTilesAndRastersCleared id)).Good :=
  h.patched (f := clearTilesAndRasters) (d := withoutFiles w.disk id) (h.tidy.of_root rfl)
    (shrinks_withoutFiles hid) (fun _ => rfl) (fun _ => balanced_clearTilesAndRasters)
    (fun _ => rfl) (plainUsage_withoutFiles hid h.tidy)

/-! ### Events -/

theorem good_deleteTiles {w : World} (h : w.Good) (id : Text) :
    (w.act (.deleteTiles id)).Good := by
  unfold World.act storageUsageDeleteTiles
  dsimp only
  cases hc : getCollection w.db id with
  | none => exact h
  | some c =>
    obtain ⟨hmem, rfl⟩ := getCollection_some hc
    have hid := h.tidy.ownFiles hmem
    dsimp only
    rw [unlinkCollectionTileFiles_tidy h.tidy hmem]
    have htidy :
        Tidy w.db { w.disk with tilesRoot := w.disk.tilesRoot.unlink (mbtilesName c.id) } :=
      h.tidy.of_root rfl
    refine h.patched (f := clearTiles) (htidy.clearStaticTiles c.id) ?_ (fun _ => rfl)
      (fun _ => balanced_clearTiles) (fun _ => rfl) ?_
    · exact (shrinks_unlinkTiles (mbtilesName_slash hid.name.slash)).trans
        (shrinks_clearStaticTiles c.id)
    · rw [plainUsage_clearStaticTiles htidy, plainUsage_unlinkTiles h.tidy hid]

theorem good_deleteCollection {w : World} (h : w.Good) (id : Text) :
    (w.act (.deleteCollection id)).Good := by
  unfold World.act storageUsageDeleteCollection
  dsimp only
  cases hc : getCollection w.db id with
  | none => exact h
  | some c =>
    obtain ⟨hmem, rfl⟩ := getCollection_some hc
    have hid := h.tidy.ownFiles hmem
    dsimp only
    rw [unlinkCollectionTileFiles_tidy h.tidy hmem, deleteCollectionRasterDir_name hid.name]
    have hgood := h.filesRemoved hid
    refine ⟨hgood.tidy, hgood.fresh, fun p hp => ?_⟩
    rcases List.mem_cons.mp hp with rfl | hp
    · exact hid.shrinks (shrinks_withoutFiles hid)
    · exact hgood.queue p hp

theorem good_deleteMosaic {w : World} (h : w.Good) (id : Text) :
    (w.act (.deleteMosaic id)).Good := by
  unfold World.act storageUsageDeleteMosaic
  dsimp only
  cases hm : getView w.db id with
  | none => exact h
  | some m =>
    refine ⟨h.tidy, h.fresh, fun p hp => ?_⟩
    rcases List.mem_cons.mp hp with rfl | hp
    · obtain ⟨hbelow, hdots⟩ := h.tidy.paths m (getView_some hm).1
      exact ⟨_, rfl, hdots, hbelow, .inl ⟨m, hm, rfl⟩⟩
    · exact h.queue p hp

/-- What the snapshot lists is there. -/
theorem World.Good.usage_of_lists {w : World} (h : w.Good) {kind : Kind} {id : Text}
    (hlists : w.lists kind id) : usage w.db w.disk kind id ≠ none := by
  obtain ⟨snap, hsnap, hkey⟩ := hlists
  obtain ⟨r, hr, hrkey⟩ := List.mem_map.mp hkey
  have hfresh := h.fresh snap hsnap
  have hfind := (findRow_iff hfresh.coherent.keys).mpr ⟨hr, Prod.mk.inj hrkey⟩
  have hrow := hfresh.rows kind id
  rw [hfind, plainUsage] at hrow
  intro hnone
  rw [hnone] at hrow
  cases hrow

/-- An orphan that is deleted. -/
theorem plainUsage_deleteOrphan {db : Database} {d disk : Disk} (h : Tidy db d) {kind : Kind}
    {id : Text} {delete : Text → Disk × Bool} (hdelete : deleteOrphan d kind = some delete)
    (hreply : delete id = (disk, true)) (husage : usage db d kind id ≠ none) :
    Tidy db disk ∧ Shrinks db d db disk ∧
      plainUsage db disk = changeAt (fun _ => none) kind id (plainUsage db d) := by
  cases kind with
  | orphanTiles =>
    cases hdelete
    unfold deleteOrphanTilesFile at hreply
    split at hreply
    · cases hreply
    · rename_i hguard
      obtain rfl := (Prod.mk.inj hreply).1
      have hslash : '/' ∉ id := by
        intro hin
        simp [hin] at hguard
      exact ⟨h.of_root rfl, shrinks_unlinkTiles hslash,
        plainUsage_unlinkOrphanTiles h hslash husage⟩
  | orphanRasters =>
    cases hdelete
    unfold deleteOrphanRasterDir at hreply
    split at hreply
    · cases hreply
    · split at hreply
      · obtain rfl := (Prod.mk.inj hreply).1
        exact ⟨h.of_root rfl, shrinks_rmtree id, plainUsage_rmtreeOrphan h husage⟩
      · cases hreply
  | orphanMosaic =>
    cases hdelete
    unfold deleteOrphanMosaicFile at hreply
    split at hreply
    · cases hreply
    · obtain rfl := (Prod.mk.inj hreply).1
      exact ⟨h.of_root rfl, shrinks_unlinkRasters id, plainUsage_unlinkOrphanMosaic h husage⟩
  | collection => cases hdelete
  | mosaic => cases hdelete
  | bulkUploads => cases hdelete

theorem good_deleteOrphan {w : World} (h : w.Good) {kind : Kind} {id : Text}
    (hlists : w.lists kind id) : (w.act (.deleteOrphan kind id)).Good := by
  unfold World.act storageUsageDeleteOrphan
  dsimp only
  split
  · exact h
  · cases hdelete : deleteOrphan w.disk kind with
    | none => exact h
    | some delete =>
      rcases hreply : delete id with ⟨disk, - | -⟩
      · dsimp only
        rw [hreply]
        exact h
      · dsimp only
        rw [hreply]
        obtain ⟨htidy, hs, hu⟩ :=
          plainUsage_deleteOrphan h.tidy hdelete hreply (h.usage_of_lists hlists)
        exact h.removed htidy hs hu

/-! ### The worker -/

theorem deleteCollectionDiskSync_tidy {w : World} (h : Tidy w.db w.disk) {id : Text}
    (hid : ProperName id) :
    deleteCollectionDiskSync w id = { w with disk := withoutFiles w.disk id } := by
  have hstored : ∀ path ∈ (getCollection w.db id).bind (·.pmtilesPath),
      path = w.disk.inTiles (mbtilesName id) := by
    intro path hpath
    obtain ⟨c, hc, hcpath⟩ := Option.bind_eq_some_iff.mp hpath
    obtain ⟨hmem, rfl⟩ := getCollection_some hc
    exact h.stored c hmem path hcpath
  rw [deleteCollectionDiskSync, deleteCollectionTilesDiskSync, unlinkMbtiles_tidy hstored,
    deleteCollectionRasterDir_name hid]
  rfl

theorem dropCollectionFeatures_name (db : Database) {id : Text} (hid : ProperName id) :
    dropCollectionFeaturesDataSync db id =
      .ok { db with partSizes := dropPartition db.partSizes id } := by
  rw [dropCollectionFeaturesDataSync, hid.dots, if_neg]
  simpa using hid.nonempty

theorem good_processCollection {w : World} (h : w.Good) {id : Text} (hid : OwnFiles w.db w.disk id)
    (kind : Option Kind) (path : Option Text) :
    (processStorageDelete w ⟨.deleteCollection, id, kind, path⟩).1.Good := by
  have hgood := h.filesRemoved hid
  unfold processStorageDelete
  dsimp only
  rw [deleteCollectionDiskSync_tidy h.tidy hid.name, dropCollectionFeatures_name _ hid.name]
  dsimp only
  split
  · rename_i hnone
    have hout : id ∉ w.db.collections.map CollectionRow.id := by
      intro hin
      obtain ⟨c, hc, hcid⟩ := List.mem_map.mp hin
      exact absurd (List.find?_eq_none.mp hnone c hc) (by simp [hcid])
    have htidy := hgood.tidy
    exact hgood.same ⟨htidy.ids, htidy.stored, htidy.paths, htidy.paths_nodup⟩
      (shrinks_dropPartition id) (plainUsage_dropPartition htidy hid.name hout)
  · exact hgood.removed (hgood.tidy.withoutCollection id)
      (shrinks_withoutCollection (file_withoutFiles hid) dir_withoutFiles)
      (plainUsage_withoutCollection hgood.tidy hid.name (file_withoutFiles hid) dir_withoutFiles)

theorem good_processMosaic {w : World} (h : w.Good) {id path : Text}
    (hpath : OwnFile w.db w.disk id path) (hdots : hasDots path = false) (kind : Option Kind) :
    (processStorageDelete w ⟨.deleteMosaic, id, kind, some path⟩).1.Good := by
  have hs : Shrinks w.db w.disk w.db { w.disk with rasterRoot := w.disk.rasterRoot.unlink path } :=
    shrinks_unlinkRasters path
  have hgood := h.patched (f := clearMosaicFile)
    (d := { w.disk with rasterRoot := w.disk.rasterRoot.unlink path }) (h.tidy.of_root rfl) hs
    (fun _ => rfl) (fun _ => balanced_clearMosaicFile) (fun _ => rfl)
    (plainUsage_unlinkMosaic h.tidy hpath)
  have hfiles : deleteMosaicFiles w.disk (some path) =
      { w.disk with rasterRoot := w.disk.rasterRoot.unlink path } := by
    rw [deleteMosaicFiles, hdots, if_neg]
    rw [hpath.below, viewsPath]
    simp
  unfold processStorageDelete
  dsimp only
  rw [hfiles]
  split
  · exact hgood
  · have hfile : (w.disk.rasterRoot.unlink path).fileAt path = none :=
      (Folder.fileAt_unlink _ path path).trans (if_pos rfl)
    exact hgood.removed (hgood.tidy.deleteViewRow id)
      (shrinks_deleteViewRow (hpath.shrinks hs) hfile)
      (plainUsage_deleteViewRow (hpath.shrinks hs) hfile)

theorem good_work {w : World} (h : w.Good) (i : Nat) : (w.act (.work i)).Good := by
  unfold World.act
  dsimp only
  cases hi : w.queue[i]? with
  | none => exact h
  | some p =>
    have hqueued := h.queue p (List.mem_of_getElem? hi)
    have hrest : ({ w with queue := w.queue.eraseIdx i } : World).Good :=
      ⟨h.tidy, h.fresh, fun q hq => h.queue q (List.mem_of_mem_eraseIdx hq)⟩
    obtain ⟨action, id, kind, path⟩ := p
    cases action with
    | deleteCollection => exact good_processCollection hrest hqueued kind path
    | deleteMosaic =>
      obtain ⟨_, rfl, hdots, hown⟩ := hqueued
      exact good_processMosaic hrest hown hdots kind
    | deleteTiles => exact hqueued.elim
    | deleteOrphan => exact hqueued.elim
    | other name => exact hqueued.elim

/-! ### The agreement -/

theorem good_run (events : List Event) {w : World} (h : w.Good) (ho : Offered w events) :
    (w.run events).Good := by
  induction events generalizing w with
  | nil => exact h
  | cons event events ih =>
    cases event with
    | scan =>
      refine ih ⟨h.tidy, fun snap hsnap => ?_, h.queue⟩ ho
      cases hsnap
      exact fresh_computeStorageUsage h.tidy
    | expire => exact ih ⟨h.tidy, fun _ => nofun, h.queue⟩ ho
    | deleteTiles id => exact ih (good_deleteTiles h id) ho
    | deleteCollection id => exact ih (good_deleteCollection h id) ho
    | deleteMosaic id => exact ih (good_deleteMosaic h id) ho
    | deleteOrphan kind id => exact ih (good_deleteOrphan h ho.1) ho.2
    | work i => exact ih (good_work h i) ho

theorem Fresh.mem {snap : Snapshot} {u : Kind → Text → Option UsageRow} (h : Fresh snap u)
    (x : UsageRow) : x ∈ snap.rows.map plain ↔ u x.kind x.id = some x := by
  rw [← h.rows, List.mem_map, Option.map_eq_some_iff]
  refine exists_congr fun r => and_congr_left ?_
  rintro rfl
  rw [findRow_iff h.coherent.keys]
  exact (and_iff_left ⟨rfl, rfl⟩).symm

theorem Snapshot.Coherent.plain_nodup {snap : Snapshot} (h : snap.Coherent) :
    (snap.rows.map plain).Nodup := by
  refine List.Nodup.of_map UsageRow.key ?_
  rw [List.map_map]
  exact h.keys

theorem Fresh.perm {snap snap' : Snapshot} {u : Kind → Text → Option UsageRow} (h : Fresh snap u)
    (h' : Fresh snap' u) : (snap.rows.map plain).Perm (snap'.rows.map plain) :=
  (List.perm_ext_iff_of_nodup h.coherent.plain_nodup h'.coherent.plain_nodup).mpr fun x =>
    (h.mem x).trans (h'.mem x).symm

theorem totalsOf_plain (rows : List UsageRow) : totalsOf (rows.map plain) = totalsOf rows := by
  simp only [totalsOf, List.map_map]
  rfl

theorem totalsOf_perm {rows rows' : List UsageRow} (h : rows.Perm rows') :
    totalsOf rows = totalsOf rows' := by
  simp only [totalsOf, (h.map _).sum_eq]

/-- After any deletions from the page the snapshot has the rows of a new scan, but for
`can_delete_tiles` and their order, and its count and totals. -/
theorem patched_as_rescanned {db : Database} {d : Disk} (h : Tidy db d) (events : List Event)
    (ho : Offered ⟨db, d, none, []⟩ events) :
    ∀ snap ∈ (World.run ⟨db, d, none, []⟩ events).snapshot,
      let w := World.run ⟨db, d, none, []⟩ events
      let fresh := computeStorageUsage w.db w.disk
      (snap.rows.map plain).Perm (fresh.rows.map plain) ∧ snap.rowCount = fresh.rowCount ∧
        snap.totals = fresh.totals := by
  have hstart : (⟨db, d, none, []⟩ : World).Good := ⟨h, nofun, List.forall_mem_nil _⟩
  have hgood := good_run events hstart ho
  intro snap hsnap w fresh
  have hsnap := hgood.fresh snap hsnap
  have hfresh : Fresh fresh (plainUsage w.db w.disk) := fresh_computeStorageUsage hgood.tidy
  have hperm := hsnap.perm hfresh
  refine ⟨hperm, ?_, ?_⟩
  · have hlength := hperm.length_eq
    rw [List.length_map, List.length_map] at hlength
    rw [hsnap.coherent.count, hfresh.coherent.count, hlength]
  · rw [hsnap.coherent.totals, hfresh.coherent.totals, ← totalsOf_plain, totalsOf_perm hperm,
      totalsOf_plain]

/-- A collection with files, and a file that no collection has. -/
def roadsTables : Database where
  collections := [⟨"roads".toList, "Roads".toList, "vector".toList, 2, "ann".toList, none⟩]
  mosaics := []
  partSizes := [("roads".toList, 8)]
  collections_nodup := List.nodup_singleton _
  mosaics_nodup := List.nodup_nil

def roadsDisk : Disk where
  tilesStoragePath := "/tiles".toList
  tilesRoot := ⟨[("roads.mbtiles".toList, .file 5), ("old.mbtiles".toList, .file 3)], by decide,
    by decide⟩
  rasterRoot := ⟨[("roads".toList, .dir ⟨[("a.tif".toList, 7)], List.nodup_singleton _⟩)],
    List.nodup_singleton _, by decide⟩
  bulkRoot := ⟨[], List.nodup_nil⟩
  elsewhere _ := none

theorem tidy_roads : Tidy roadsTables roadsDisk where
  ids c hc := by
    cases List.mem_singleton.mp hc
    exact ⟨⟨by decide, by decide, by decide, by decide, by decide⟩, by decide⟩
  stored c hc path hpath := by
    cases List.mem_singleton.mp hc
    cases hpath
  paths _ hm := by cases hm
  paths_nodup := List.nodup_nil

def roadsDeletions : List Event :=
  [.scan, .deleteOrphan .orphanTiles "old.mbtiles".toList, .deleteTiles "roads".toList]

theorem offered_roads : Offered ⟨roadsTables, roadsDisk, none, []⟩ roadsDeletions :=
  ⟨⟨_, rfl, ((sortRows_perm _).map _).mem_iff.mpr (by decide)⟩, trivial⟩

theorem patched_as_rescanned_roads :
    let scanned := computeStorageUsage roadsTables roadsDisk
    let removed := removeRowFromSnapshot .orphanTiles "old.mbtiles".toList scanned
    let snap := (patchRowTilesCleared "roads".toList removed).getD removed
    let w := World.run ⟨roadsTables, roadsDisk, none, []⟩ roadsDeletions
    let fresh := computeStorageUsage w.db w.disk
    (snap.rows.map plain).Perm (fresh.rows.map plain) ∧ snap.rowCount = fresh.rowCount ∧
      snap.totals = fresh.totals :=
  patched_as_rescanned tidy_roads roadsDeletions offered_roads _ rfl

end Usage
end Storage
end Geofastmap
