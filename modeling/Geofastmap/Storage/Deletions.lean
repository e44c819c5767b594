import Geofastmap.Db.Resolve
import Geofastmap.Storage.Usage

/-!
# Geofastmap.Storage.Deletions

The deletions of the storage usage page (`admin_storage_usage.py`, `storage_delete_worker.py`): what
they remove from the disk and the tables, and how they patch the snapshot. The deletions of a
collection and of a mosaic go through a queue to a worker. Files that cannot be removed and
databases that cannot be reached are left out.
-/

namespace Geofastmap
namespace Storage
namespace Usage

open Folders

/-! ## Files -/

section Files
variable (d : Disk)

/-- `path.unlink()` where `path.is_file()`. -/
def Disk.unlink (path : Text) : Disk :=
  if (d.tilesStoragePath ++ ['/']).isPrefixOf path then
    { d with tilesRoot := d.tilesRoot.unlink (path.drop (d.tilesStoragePath.length + 1)) }
  else { d with elsewhere := fun p => if p = path then none else d.elsewhere p }

/-- `unlink_collection_tile_files`. -/
def unlinkCollectionTileFiles (collectionId : Text) (pmtilesPath : Option Text) : Disk × Bool :=
  let own := d.inTiles (mbtilesName collectionId)
  let paths := match collectionMbtilesPath d collectionId pmtilesPath with
    | some found => if found = own then [own] else [found, own]
    | none => [own]
  let d' := paths.foldl Disk.unlink d
  (d', paths.any (fun p => (d.fileSize p).isSome) || !d'.tilesRoot.has (mbtilesName collectionId))

/-- `_unlink_mbtiles`. -/
def unlinkMbtiles (collectionId : Text) (pmtilesPath : Option Text) : Disk :=
  let own := d.inTiles (mbtilesName collectionId)
  let stored := match pmtilesPath with
    | some (ch :: p) => if ch :: p = own then [] else [ch :: p]
    | _ => []
  (stored ++ [own]).foldl Disk.unlink d

def hasDots (s : Text) : Bool := Sql.contains "..".toList s

/-- `delete_collection_raster_dir`. -/
def deleteCollectionRasterDir (collectionId : Text) : Disk :=
  if hasDots collectionId || collectionId.contains '/' then d
  else { d with rasterRoot := d.rasterRoot.rmtree collectionId }

/-- `delete_mosaic_files`. -/
def deleteMosaicFiles : Option Text → Disk
  | some rel =>
    if rel.isEmpty || hasDots rel then d else { d with rasterRoot := d.rasterRoot.unlink rel }
  | none => d

/-- `delete_orphan_tiles_file`. -/
def deleteOrphanTilesFile (name : Text) : Disk × Bool :=
  if hasDots name || name.contains '/' || !".mbtiles".toList.isSuffixOf name then (d, false)
  else
    let tiles := d.tilesRoot.unlink name
    ({ d with tilesRoot := tiles }, !tiles.has name)

/-- `delete_orphan_raster_dir`. -/
def deleteOrphanRasterDir (name : Text) : Disk × Bool :=
  if hasDots name || name.contains '/' || name = viewsName then (d, false)
  else if (d.rasterRoot.dir name).isSome then
    let rasters := d.rasterRoot.rmtree name
    ({ d with rasterRoot := rasters }, !rasters.has name)
  else (d, false)

/-- `delete_orphan_mosaic_file`. -/
def deleteOrphanMosaicFile (rel : Text) : Disk × Bool :=
  if hasDots rel || !(viewsPath []).isPrefixOf rel then (d, false)
  else
    let rasters := d.rasterRoot.unlink rel
    ({ d with rasterRoot := rasters }, !rasters.has rel)

/-- The deletion of an orphan of a kind, where there is one. -/
def deleteOrphan : Kind → Option (Text → Disk × Bool)
  | .orphanTiles => some (deleteOrphanTilesFile d)
  | .orphanRasters => some (deleteOrphanRasterDir d)
  | .orphanMosaic => some (deleteOrphanMosaicFile d)
  | _ => none

end Files

/-! ## Tables -/

section Tables
variable (db : Database)

/-- `get_collection`. -/
def getCollection (collectionId : Text) : Option CollectionRow :=
  db.collections.find? (·.id = collectionId)

/-- `get_view`. -/
def getView (viewId : Text) : Option MosaicRow := db.mosaics.find? (·.id = viewId)

/-- `clear_static_tiles`. -/
def clearStaticTiles (collectionId : Text) : Database :=
  { db with
    collections := db.collections.map fun c =>
      if c.id = collectionId then { c with pmtilesPath := none } else c
    collections_nodup := by
      rw [List.map_map]
      have hids : CollectionRow.id ∘ (fun c : CollectionRow =>
          if c.id = collectionId then { c with pmtilesPath := none } else c) =
          CollectionRow.id := by
        funext c
        by_cases hc : c.id = collectionId <;> simp [hc]
      rw [hids]
      exact db.collections_nodup }

/-- The partitions without the first one whose bound reads like that of the id, blanks apart. -/
def dropPartition (sizes : List (Text × Nat)) (collectionId : Text) : List (Text × Nat) :=
  sizes.eraseP fun e =>
    Sql.despace (Db.Bound.values [e.1]).expr == Db.partitionBoundLiteral collectionId

/-- `drop_collection_features_data_sync`, of which a scan sees the partition. -/
def dropCollectionFeaturesDataSync (collectionId : Text) : Except Text Database :=
  if collectionId.isEmpty || hasDots collectionId then
    .error "ValueError: invalid collection_id".toList
  else .ok { db with partSizes := dropPartition db.partSizes collectionId }

/-- `delete_collection`, once the features are dropped. -/
def deleteCollectionRow (collectionId : Text) : Database :=
  { db with
    collections := db.collections.filter fun c => c.id ≠ collectionId
    collections_nodup := db.collections_nodup.sublist (List.filter_sublist.map _) }

/-- `delete_view`. -/
def deleteViewRow (viewId : Text) : Database :=
  { db with
    mosaics := db.mosaics.filter fun m => m.id ≠ viewId
    mosaics_nodup := db.mosaics_nodup.sublist (List.filter_sublist.map _) }

end Tables

/-! ## The worker -/

inductive Action where
  | deleteCollection | deleteTiles | deleteMosaic | deleteOrphan
  | other (name : Text)

structure StorageDeletePayload where
  action : Action
  targetId : Text
  orphanKind : Option Kind
  mosaicJsonPath : Option Text

structure World where
  db : Database
  disk : Disk
  snapshot : Option Snapshot
  queue : List StorageDeletePayload

/-- A patch of the snapshot that is there; when it changes nothing, nothing is written. -/
def World.patch (w : World) (f : Snapshot → Option Snapshot) : World :=
  { w with snapshot := w.snapshot.map fun snap => (f snap).getD snap }

def World.removeRow (w : World) (kind : Kind) (id : Text) : World :=
  w.patch fun snap => some (removeRowFromSnapshot kind id snap)

/-- `delete_collection_tiles_disk_sync`. -/
def deleteCollectionTilesDiskSync (w : World) (collectionId : Text) : World :=
  { w with
    disk := unlinkMbtiles w.disk collectionId
      ((getCollection w.db collectionId).bind (·.pmtilesPath)) }

/-- `delete_collection_disk_sync`. -/
def deleteCollectionDiskSync (w : World) (collectionId : Text) : World :=
  let w := deleteCollectionTilesDiskSync w collectionId
  { w with disk := deleteCollectionRasterDir w.disk collectionId }

/-- `process_storage_delete`, with the last message of the job, which has failed or is completed. -/
def processStorageDelete (w : World) (payload : StorageDeletePayload) :
    World × Except Text Text :=
  let target := payload.targetId
  match payload.action with
  | .deleteTiles =>
    let w := deleteCollectionTilesDiskSync w target
    let w := { w with db := clearStaticTiles w.db target }
    (w.patch (patchRowTilesCleared target), .ok ("Tiles removed for ".toList ++ target ++ ['.']))
  | .deleteCollection =>
    let w := (deleteCollectionDiskSync w target).patch (patchRowTilesAndRastersCleared target)
    match dropCollectionFeaturesDataSync w.db target with
    | .error e => (w, .error ("Storage delete failed: ".toList ++ e))
    | .ok db =>
      let w := { w with db := db }
      match getCollection w.db target with
      | none =>
        (w, .error ("Collection ".toList ++ target ++ " not found in database.".toList))
      | some _ =>
        let w := { w with db := deleteCollectionRow w.db target }
        (w.removeRow .collection target, .ok ("Collection ".toList ++ target ++
          " deleted (disk + DROP partition + metadata).".toList))
  | .deleteMosaic =>
    let w := { w with disk := deleteMosaicFiles w.disk payload.mosaicJsonPath }
    let w := w.patch (patchMosaicFileCleared target)
    match getView w.db target with
    | none => (w, .error ("Mosaic ".toList ++ target ++ " not found in database.".toList))
    | some _ =>
      let w := { w with db := deleteViewRow w.db target }
      (w.removeRow .mosaic target, .ok ("Mosaic ".toList ++ target ++ " deleted.".toList))
  | .deleteOrphan =>
    match payload.orphanKind.bind fun kind => (deleteOrphan w.disk kind).map (kind, · target) with
    | some (kind, disk, true) =>
      let w := { w with disk := disk }
      (w.removeRow kind target, .ok ("Orphan ".toList ++ target ++ " deleted.".toList))
    | some (_, disk, false) =>
      ({ w with disk := disk }, .error ("Could not delete orphan ".toList ++ target ++ ['.']))
    | none => (w, .error ("Could not delete orphan ".toList ++ target ++ ['.']))
  | .other name => (w, .error ("Unknown storage delete action: ".toList ++ name))

/-! ## The page -/

/-- A status and a text. -/
abbrev HttpError := Nat × Text

/-- `storage_usage_delete_tiles`. -/
def storageUsageDeleteTiles (w : World) (collectionId : Text) : Except HttpError World :=
  match getCollection w.db collectionId with
  | none => .error (404, "Collection not found".toList)
  | some c =>
    let w := { w with disk := (unlinkCollectionTileFiles w.disk collectionId c.pmtilesPath).1 }
    let w := { w with db := clearStaticTiles w.db collectionId }
    .ok (w.patch (patchRowTilesCleared collectionId))

/-- `storage_usage_delete_collection`. -/
def storageUsageDeleteCollection (w : World) (collectionId : Text) : Except HttpError World :=
  match getCollection w.db collectionId with
  | none => .error (404, "Collection not found".toList)
  | some c =>
    let w := { w with disk := (unlinkCollectionTileFiles w.disk collectionId c.pmtilesPath).1 }
    let w := { w with disk := deleteCollectionRasterDir w.disk collectionId }
    let w := w.patch (patchRowTilesAndRastersCleared collectionId)
    .ok { w with queue := ⟨.deleteCollection, collectionId, none, none⟩ :: w.queue }

/-- `storage_usage_delete_mosaic`. -/
def storageUsageDeleteMosaic (w : World) (viewId : Text) : Except HttpError World :=
  match getView w.db viewId with
  | none => .error (404, "Mosaic not found".toList)
  | some m =>
    .ok { w with queue := ⟨.deleteMosaic, viewId, none, some m.jsonRelativePath⟩ :: w.queue }

/-- `storage_usage_delete_orphan`. -/
def storageUsageDeleteOrphan (w : World) (kind : Kind) (id : Text) : Except HttpError World :=
  if id.isEmpty then .error (400, "Missing id".toList)
  else
    match deleteOrphan w.disk kind with
    | none => .error (400, "Unknown orphan kind".toList)
    | some delete =>
      match delete id with
      | (disk, true) => .ok ({ w with disk := disk }.removeRow kind id)
      | (_, false) => .error (404, ("Orphan file not found on this host " ++
        "(check TILES_STORAGE_PATH / RASTER_STORAGE_PATH mounts).").toList)

inductive Event where
  | scan
  | expire
  | deleteTiles (collectionId : Text)
  | deleteCollection (collectionId : Text)
  | deleteMosaic (viewId : Text)
  | deleteOrphan (kind : Kind) (id : Text)
  | work (i : Nat)

/-- A refused request changes nothing; the worker takes one of the payloads that are queued. -/
def World.act (w : World) : Event → World
  | .scan => { w with snapshot := some (computeStorageUsage w.db w.disk) }
  | .expire => { w with snapshot := none }
  | .deleteTiles c => (storageUsageDeleteTiles w c).toOption.getD w
  | .deleteCollection c => (storageUsageDeleteCollection w c).toOption.getD w
  | .deleteMosaic v => (storageUsageDeleteMosaic w v).toOption.getD w
  | .deleteOrphan kind id => (storageUsageDeleteOrphan w kind id).toOption.getD w
  | .work i =>
    match w.queue[i]? with
    | none => w
    | some payload => (processStorageDelete { w with queue := w.queue.eraseIdx i } payload).1

def World.run (w : World) (events : List Event) : World := events.foldl World.act w

/-- The snapshot has a row of the kind and the id. -/
def World.lists (w : World) (kind : Kind) (id : Text) : Prop :=
  ∃ snap ∈ w.snapshot, (kind, id) ∈ snap.rows.map UsageRow.key

/-- Orphans are deleted from the page, which has those of the snapshot. -/
def Offered : World → List Event → Prop
  | _, [] => True
  | w, .deleteOrphan kind id :: events =>
    w.lists kind id ∧ Offered (w.act (.deleteOrphan kind id)) events
  | w, event :: events => Offered (w.act event) events

end Usage
end Storage
end Geofastmap
