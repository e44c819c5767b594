import Geofastmap.Interleave.Pool
import Geofastmap.Storage.Usage

/-!
# Geofastmap.Storage.UsageTasks

The calls of `storage_usage.py` that write the snapshot of the storage usage, side by side: scans,
patches, and what others do to the tables and the disk meanwhile.

`computeStorageUsageSync_run` : a scan alone gives the rows of one state.
`snapshot_coherent` : whatever runs at the same time, and wherever it stops, the snapshot is
consistent with itself.
-/

namespace Geofastmap
namespace Storage
namespace Usage

/-! ## Programs -/

open Interleave

/-- The snapshot, its status and the lock in Redis, and what is scanned. -/
structure Server where
  db : Database
  disk : Disk
  snapshot : Option Snapshot
  status : Option (Text × Text)
  locked : Bool

inductive Label where
  | redis | database | disk | outside
deriving DecidableEq

/-- The text of an exception is what it raises. -/
abbrev Admin := Prog Label Server Text

/-- `try: ... except Exception: ...` with a value instead. -/
def orElse {α : Type} (p : Admin α) (a : α) : Admin α := MonadExcept.tryCatch p fun _ => pure a

def getSnapshot : Admin (Option Snapshot) := orElse (Prog.read .redis (·.snapshot)) none

def getStatus : Admin (Option (Text × Text)) := orElse (Prog.read .redis (·.status)) none

def saveSnapshot (snap : Snapshot) : Admin Unit :=
  orElse (Prog.write .redis fun s => { s with snapshot := some snap }) ()

def setStatus (state message : Text) : Admin Unit :=
  orElse (Prog.write .redis fun s => { s with status := some (state, message) }) ()

/-- `_try_acquire_lock`. -/
def tryAcquireLock : Admin Bool :=
  orElse (.atom .redis (fun s => { s with locked := true }) (fun s => pure !s.locked)
    fun e => throw e) false

/-- `_release_lock`. -/
def releaseLock : Admin Unit := orElse (Prog.write .redis fun s => { s with locked := false }) ()

/-- A row, and under which names its file and its directory are known. -/
structure Counted where
  row : UsageRow
  file : Option Text
  directory : Option Text

def countCollection (db : Database) (d : Disk) (c : CollectionRow) : Counted :=
  ⟨collectionRow db d c, (collectionTiles d c).map pathName,
    if (d.rasterRoot.dir c.id).isSome then some c.id else none⟩

def countMosaic (d : Disk) (m : MosaicRow) : Counted :=
  ⟨mosaicRow d m, (mosaicFile d m).map fun _ => m.jsonRelativePath, none⟩

/-- `compute_storage_usage_sync`: the tables in one connection, then one collection or mosaic after
the other, then the directories. -/
def computeStorageUsageSync : Admin Snapshot := do
  let db ← Prog.read .database (·.db)
  let collections ← Prog.mapAll (fun c => Prog.read .disk fun s => countCollection db s.disk c)
    db.collections
  let mosaics ← Prog.mapAll (fun m => Prog.read .disk fun s => countMosaic s.disk m) db.mosaics
  let tiles ← Prog.read .disk fun s => orphanTiles s.disk (collections.filterMap Counted.file)
  let rasters ← Prog.read .disk fun s =>
    orphanRasters s.disk (collections.filterMap Counted.directory)
  let views ← Prog.read .disk fun s => orphanMosaics s.disk (mosaics.filterMap Counted.file)
  let bulk ← Prog.read .disk fun s => bulkRows s.disk
  return snapshotOf (collections.map Counted.row ++ mosaics.map Counted.row ++ tiles ++ rasters ++
    views ++ bulk)

/-- The scan under the lock. -/
def computeAndStore : Admin Unit := do
  setStatus "computing".toList "Scanning database and disk…".toList
  Prog.tryFinally
    (MonadExcept.tryCatch
      (do
        let snap ← computeStorageUsageSync
        saveSnapshot snap
        setStatus "idle".toList "Ready".toList)
      fun e => do
        setStatus "error".toList e
        throw e)
    releaseLock

/-- `start_recompute_background`, with its thread. -/
def startRecomputeBackground : Admin Unit := do
  let got ← tryAcquireLock
  if got then orElse computeAndStore () else return ()

/-- The wait of `recompute_and_store` for a scan that is under way. -/
def waitForScan : Nat → Admin Unit
  | 0 => throw "Storage usage recompute already in progress".toList
  | rounds + 1 => do
    let got ← tryAcquireLock
    if got then computeAndStore
    else
      let snap ← getSnapshot
      match snap with
      | some _ => return ()
      | none => waitForScan rounds

/-- `recompute_and_store`. -/
def recomputeAndStore (rounds : Nat) : Admin Unit := do
  let got ← tryAcquireLock
  if got then computeAndStore
  else
    let existing ← getSnapshot
    let _status ← getStatus
    match existing with
    | some _ => return ()
    | none => waitForScan rounds

/-- A call that changes the snapshot. -/
def patchSnapshot (f : Snapshot → Option Snapshot) : Admin Unit := do
  let snap ← getSnapshot
  match snap with
  | none => return ()
  | some snap =>
    match f snap with
    | none => return ()
    | some patched => saveSnapshot patched

/-- What may be started, and what others do to the tables, the disk and Redis. -/
inductive Task where
  | refresh
  | recompute (rounds : Nat)
  | tilesCleared (collectionId : Text)
  | tilesAndRastersCleared (collectionId : Text)
  | mosaicFileCleared (viewId : Text)
  | rowRemoved (kind : Kind) (id : Text)
  | change (db : Database) (disk : Disk)
  | expireSnapshot
  | expireLock

def Task.program : Task → Admin Unit
  | .refresh => startRecomputeBackground
  | .recompute rounds => recomputeAndStore rounds
  | .tilesCleared c => patchSnapshot (patchRowTilesCleared c)
  | .tilesAndRastersCleared c => patchSnapshot (patchRowTilesAndRastersCleared c)
  | .mosaicFileCleared v => patchSnapshot (patchMosaicFileCleared v)
  | .rowRemoved kind id => patchSnapshot fun snap => some (removeRowFromSnapshot kind id snap)
  | .change db disk => Prog.write .outside fun s => { s with db := db, disk := disk }
  | .expireSnapshot => Prog.write .outside fun s => { s with snapshot := none }
  | .expireLock => Prog.write .outside fun s => { s with locked := false }

/-- The scan alone. -/
theorem computeStorageUsageSync_run (s : Server) :
    computeStorageUsageSync.run s = (.ok (computeStorageUsage s.db s.disk), s) := by
  have hcollections : (Prog.mapAll (fun c => Prog.read .disk fun t : Server =>
      countCollection s.db t.disk c) s.db.collections : Admin _).run s =
        (.ok (s.db.collections.map (countCollection s.db s.disk)), s) :=
    Prog.run_mapAll fun _ _ => rfl
  have hmosaics : (Prog.mapAll (fun m => Prog.read .disk fun t : Server => countMosaic t.disk m)
      s.db.mosaics : Admin _).run s = (.ok (s.db.mosaics.map (countMosaic s.disk)), s) :=
    Prog.run_mapAll fun _ _ => rfl
  have hrasters : s.db.collections.filterMap
      (fun c => if (s.disk.rasterRoot.dir c.id).isSome then some c.id else none) =
        knownRasters s.db s.disk := by
    rw [knownRasters, List.filter_map, ← List.filterMap_eq_map, List.filterMap_filter]
    rfl
  have hviews : s.db.mosaics.filterMap
      (fun m => (mosaicFile s.disk m).map fun _ => m.jsonRelativePath) =
        knownMosaics s.db s.disk := by
    rw [knownMosaics, ← List.filterMap_eq_map, List.filterMap_filter]
    refine List.filterMap_congr fun m _ => ?_
    cases mosaicFile s.disk m <;> rfl
  simp only [computeStorageUsageSync, Prog.run_bind, Prog.run_read, hcollections, hmosaics,
    List.map_map, List.filterMap_map]
  simp only [Function.comp_def, countCollection, countMosaic, hrasters, hviews,
    computeStorageUsage, scanRows, knownTiles]
  rfl

/-! ## Every run -/

/-- The snapshot, if there is one, is coherent. -/
def Server.Good (s : Server) : Prop := ∀ snap ∈ s.snapshot, snap.Coherent

def coherently : Guarantee Label Server where
  inv := Server.Good
  rely _ _ := True
  rel _ _ := True
  must _ _ := True
  rely_refl _ := trivial
  rely_trans _ _ := trivial
  rel_refl _ := trivial

theorem keeps_write (l : Label) {g : Server → Server} (hg : ∀ s, s.Good → (g s).Good) :
    Keeps anything coherently (Prog.write l g : Admin Unit) :=
  Triple.write l g stable_true (fun s hs _ _ => ⟨trivial, hg s hs, trivial, trivial⟩)
    (fun _ _ _ _ _ => trivial) fun _ _ _ _ _ _ => trivial

theorem gives_read {α : Type} (l : Label) {f : Server → α} {V : α → Prop}
    (hf : ∀ s, s.Good → V (f s)) : Gives anything coherently V (Prog.read l f : Admin α) :=
  Triple.read l f stable_true
    (fun s hs _ _ => ⟨trivial, by rintro a ⟨⟩; exact hf s hs⟩) fun _ _ _ _ _ _ => nofun

theorem keeps_orElse {α : Type} {p : Admin α} (h : Keeps anything coherently p) (a : α) :
    Keeps anything coherently (orElse p a) :=
  Keeps.tryCatch h fun _ => Keeps.pure a

theorem gives_getSnapshot :
    Gives anything coherently (fun snap => ∀ s ∈ snap, Snapshot.Coherent s) getSnapshot :=
  Gives.tryCatch (gives_read .redis fun _ hs => hs) fun _ => Gives.pure nofun

theorem keeps_getStatus : Keeps anything coherently getStatus :=
  keeps_orElse (gives_read (V := fun _ => True) .redis fun _ _ => trivial).keeps none

theorem keeps_saveSnapshot {snap : Snapshot} (h : snap.Coherent) :
    Keeps anything coherently (saveSnapshot snap) :=
  keeps_orElse (keeps_write .redis fun _ _ s hs => by cases hs; exact h) ()

theorem keeps_setStatus (state message : Text) :
    Keeps anything coherently (setStatus state message) :=
  keeps_orElse (keeps_write .redis fun _ hs => hs) ()

theorem keeps_releaseLock : Keeps anything coherently releaseLock :=
  keeps_orElse (keeps_write .redis fun _ hs => hs) ()

theorem keeps_tryAcquireLock : Keeps anything coherently tryAcquireLock := by
  refine keeps_orElse ?_ false
  intro s _ _ t _ ht
  exact ⟨fun _ _ => trivial, fun _ => ⟨trivial, ht, trivial, trivial, fun _ _ => trivial⟩⟩

/-! ### The rows of one table -/

/-- Rows made of the rows of a table, one after the other. -/
theorem OfKind.forall₂ {α : Type} {kind : Kind} {g : α → Text} {xs : List α} {cs : List Counted}
    (h : List.Forall₂ (fun x c => c.row.kind = kind ∧ c.row.Balanced ∧ c.row.id = g x) xs cs)
    (hxs : (xs.map g).Nodup) : OfKind kind (cs.map Counted.row) := by
  have hids : (cs.map Counted.row).map UsageRow.id = xs.map g := by
    clear hxs
    induction h with
    | nil => rfl
    | cons hc _ ih => rw [List.map_cons, List.map_cons, List.map_cons, hc.2.2, ih]
  refine ⟨?_, hids ▸ hxs⟩
  clear hids hxs
  induction h with
  | nil => exact List.forall_mem_nil _
  | cons hc _ ih => exact List.forall_mem_cons.mpr ⟨⟨hc.1, hc.2.1⟩, ih⟩

theorem gives_countAll {α : Type} (kind : Kind) {g : α → Text} (f : Disk → α → Counted)
    (hf : ∀ d x, (f d x).row.kind = kind ∧ (f d x).row.Balanced ∧ (f d x).row.id = g x)
    {xs : List α} (hxs : (xs.map g).Nodup) :
    Gives anything coherently (fun cs => OfKind kind (cs.map Counted.row))
      (Prog.mapAll (fun x => Prog.read .disk fun s => f s.disk x) xs : Admin _) := by
  have hall : Gives anything coherently (fun cs => List.Forall₂
      (fun x c => c.row.kind = kind ∧ c.row.Balanced ∧ c.row.id = g x) xs cs)
      (Prog.mapAll (fun x => Prog.read .disk fun s => f s.disk x) xs : Admin _) :=
    Gives.mapAll fun x _ => gives_read .disk fun s _ => hf s.disk x
  exact hall.conseq (fun _ _ h => h) fun r _ _ h cs hr => OfKind.forall₂ (h cs hr) hxs

/-! ### The calls -/

/-- Each part of the scan sees the disk at another time. -/
theorem gives_computeStorageUsageSync :
    Gives anything coherently Snapshot.Coherent computeStorageUsageSync := by
  refine Gives.bind (gives_read (V := fun _ => True) .database fun _ _ => trivial) fun db _ => ?_
  refine Gives.bind (gives_countAll .collection (countCollection db)
    (fun _ _ => ⟨rfl, balanced_row (by decide) .., rfl⟩) db.collections_nodup)
    fun collections hcollections => ?_
  refine Gives.bind (gives_countAll .mosaic countMosaic
    (fun d m => ⟨rfl, balanced_mosaicRow d m, rfl⟩) db.mosaics_nodup) fun mosaics hmosaics => ?_
  refine Gives.bind (gives_read .disk fun s _ => ofKind_orphanTiles s.disk _) fun tiles htiles => ?_
  refine Gives.bind (gives_read .disk fun s _ => ofKind_orphanRasters s.disk _)
    fun rasters hrasters => ?_
  refine Gives.bind (gives_read .disk fun s _ => ofKind_orphanMosaics s.disk _)
    fun views hviews => ?_
  refine Gives.bind (gives_read .disk fun s _ => ofKind_bulkRows s.disk) fun bulk hbulk => ?_
  refine Gives.pure ?_
  have hparts := coherent_parts [(.collection, collections.map Counted.row),
    (.mosaic, mosaics.map Counted.row), (.orphanTiles, tiles), (.orphanRasters, rasters),
    (.orphanMosaic, views), (.bulkUploads, bulk)] (by simp) (by
      simp only [List.forall_mem_cons]
      exact ⟨hcollections, hmosaics, htiles, hrasters, hviews, hbulk, List.forall_mem_nil _⟩)
  simpa [List.append_assoc] using hparts

theorem keeps_computeAndStore : Keeps anything coherently computeAndStore := by
  refine Keeps.bind (keeps_setStatus _ _) fun _ => ?_
  refine Keeps.tryFinally (Keeps.tryCatch ?_ fun e => ?_) keeps_releaseLock
  · refine Triple.bindValue gives_computeStorageUsageSync fun snap hsnap => ?_
    exact Keeps.bind (keeps_saveSnapshot hsnap) fun _ => keeps_setStatus _ _
  · exact Keeps.bind (keeps_setStatus _ _) fun _ => Keeps.throw e

theorem keeps_startRecomputeBackground : Keeps anything coherently startRecomputeBackground := by
  refine Keeps.bind keeps_tryAcquireLock fun got => ?_
  split
  · exact keeps_orElse keeps_computeAndStore ()
  · exact Keeps.pure ()

theorem keeps_waitForScan (rounds : Nat) : Keeps anything coherently (waitForScan rounds) := by
  induction rounds with
  | zero => exact Keeps.throw _
  | succ rounds ih =>
    refine Keeps.bind keeps_tryAcquireLock fun got => ?_
    split
    · exact keeps_computeAndStore
    · refine Keeps.bind gives_getSnapshot.keeps fun snap => ?_
      cases snap with
      | some _ => exact Keeps.pure ()
      | none => exact ih

theorem keeps_recomputeAndStore (rounds : Nat) :
    Keeps anything coherently (recomputeAndStore rounds) := by
  refine Keeps.bind keeps_tryAcquireLock fun got => ?_
  split
  · exact keeps_computeAndStore
  · refine Keeps.bind gives_getSnapshot.keeps fun existing => ?_
    refine Keeps.bind keeps_getStatus fun _ => ?_
    cases existing with
    | some _ => exact Keeps.pure ()
    | none => exact keeps_waitForScan rounds

/-- The snapshot that is written may be made of one that is no longer there. -/
theorem keeps_patchSnapshot {f : Snapshot → Option Snapshot}
    (hf : ∀ snap patched, snap.Coherent → f snap = some patched → patched.Coherent) :
    Keeps anything coherently (patchSnapshot f) := by
  refine Triple.bindValue gives_getSnapshot fun snap hsnap => ?_
  cases snap with
  | none => exact Keeps.pure ()
  | some snap =>
    cases hpatched : f snap with
    | none =>
      simp only [hpatched]
      exact Keeps.pure ()
    | some patched =>
      simp only [hpatched]
      exact keeps_saveSnapshot (hf snap patched (hsnap snap rfl) hpatched)

theorem keeps_patchRow {kind : Kind} {id : Text} {f : UsageRow → UsageRow}
    (hkey : ∀ r, (f r).key = r.key)
    (hbalanced : ∀ r : UsageRow, r.kind = kind → r.Balanced → (f r).Balanced) :
    Keeps anything coherently (patchSnapshot (patchRow kind id f)) :=
  keeps_patchSnapshot fun _ _ h hpatched => coherent_patchRow hkey hbalanced h hpatched

theorem keeps_program (task : Task) : Keeps anything coherently task.program := by
  cases task with
  | refresh => exact keeps_startRecomputeBackground
  | recompute rounds => exact keeps_recomputeAndStore rounds
  | tilesCleared c =>
    exact keeps_patchRow (f := clearTiles) (fun _ => rfl) fun _ => balanced_clearTiles
  | tilesAndRastersCleared c =>
    exact keeps_patchRow (f := clearTilesAndRasters) (fun _ => rfl)
      fun _ => balanced_clearTilesAndRasters
  | mosaicFileCleared v =>
    exact keeps_patchRow (f := clearMosaicFile) (fun _ => rfl) fun _ => balanced_clearMosaicFile
  | rowRemoved kind id =>
    refine keeps_patchSnapshot (f := fun snap => some (removeRowFromSnapshot kind id snap))
      fun snap _ h hpatched => ?_
    cases hpatched
    exact coherent_removeRow h kind id
  | change db disk => exact keeps_write .outside fun _ hs => hs
  | expireSnapshot => exact keeps_write .outside fun _ _ => nofun
  | expireLock => exact keeps_write .outside fun _ hs => hs

/-- However scans and patches overlap, whatever raises and wherever they stop, the snapshot has no
item twice, its rows are sorted, and its totals are theirs. -/
theorem snapshot_coherent (db : Database) (disk : Disk) (status : Option (Text × Text))
    (locked : Bool) (choices : List (Choice Task Text)) :
    ∀ snap ∈ ((⟨⟨db, disk, none, status, locked⟩, [], []⟩ :
      Config Label Server Text).exec Task.program choices).st.snapshot,
      snap.Coherent ∧ snap.totals.totalBytes = (snap.rows.map UsageRow.totalBytes).sum := by
  have hgood := exec_keeps (K := coherently) (fun _ _ _ => trivial) keeps_program
    (s := ⟨db, disk, none, status, locked⟩) nofun choices
  exact fun snap hsnap => ⟨hgood snap hsnap, (hgood snap hsnap).total⟩

def noTables : Database := ⟨[], [], [], List.nodup_nil, List.nodup_nil⟩

/-- One file that no collection has. -/
def orphanDisk : Disk where
  tilesStoragePath := "/tiles".toList
  tilesRoot := ⟨[("a.mbtiles".toList, .file 3)], List.nodup_singleton _, by decide⟩
  rasterRoot := ⟨[], List.nodup_nil, List.forall_mem_nil _⟩
  bulkRoot := ⟨[], List.nodup_nil⟩
  elsewhere _ := none

/-- A refresh from its start to its end. -/
def refreshed : List (Choice Task Text) := .spawn .refresh :: List.replicate 10 (.step 0)

theorem snapshot_coherent_orphan :
    (computeStorageUsage noTables orphanDisk).Coherent ∧
      (computeStorageUsage noTables orphanDisk).totals.totalBytes =
        ((computeStorageUsage noTables orphanDisk).rows.map UsageRow.totalBytes).sum :=
  snapshot_coherent noTables orphanDisk none false refreshed _ rfl

end Usage
end Storage
end Geofastmap
