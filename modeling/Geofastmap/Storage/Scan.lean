import Geofastmap.Storage.Deletions

/-!
# Geofastmap.Storage.Scan

`usage` gives what an item takes by its kind and id, and a scan has one row for each: the lemma is
`findRow_scanRows`. A snapshot is `Fresh` when it has what the items take, and a patch of it changes
that at one place.
-/

namespace Geofastmap
namespace Storage
namespace Usage

open Folders

/-! ## Names and paths -/

/-- The name of one file, and not a path, without blanks. -/
structure ProperName (name : Text) : Prop where
  nonempty : name ≠ []
  slash : '/' ∉ name
  dot : name ≠ ['.']
  dots : hasDots name = false
  blanks : ' ' ∉ name

/-- Ids are names, and files are where they are written. -/
structure Tidy (db : Database) (d : Disk) : Prop where
  ids : ∀ c ∈ db.collections, ProperName c.id ∧ c.id ≠ viewsName
  stored : ∀ c ∈ db.collections, ∀ path ∈ c.pmtilesPath, path = d.inTiles (mbtilesName c.id)
  paths : ∀ m ∈ db.mosaics, m.jsonRelativePath = viewsPath (m.jsonRelativePath.drop 6) ∧
    hasDots m.jsonRelativePath = false
  paths_nodup : (db.mosaics.map MosaicRow.jsonRelativePath).Nodup

theorem mbtilesName_injective {id id' : Text} (h : mbtilesName id = mbtilesName id') : id = id' :=
  List.append_cancel_right h

theorem mbtilesName_slash {id : Text} (h : '/' ∉ id) : '/' ∉ mbtilesName id := by
  rw [mbtilesName, List.mem_append]
  rintro (hid | hsuffix)
  · exact h hid
  · exact absurd hsuffix (by decide)

theorem viewsName_slash : '/' ∉ viewsName := by decide

theorem cut_viewsPath (name : Text) : cut (viewsPath name) = (viewsName, some name) :=
  cut_append viewsName_slash name

theorem isPrefixOf_inTiles (d : Disk) (name : Text) :
    (d.tilesStoragePath ++ ['/']).isPrefixOf (d.inTiles name) = true := by
  rw [List.isPrefixOf_iff_prefix]
  exact ⟨name, by simp [Disk.inTiles]⟩

theorem drop_inTiles (d : Disk) (name : Text) :
    (d.inTiles name).drop (d.tilesStoragePath.length + 1) = name := by
  simp [Disk.inTiles, List.drop_append]

theorem fileSize_inTiles (d : Disk) (name : Text) :
    d.fileSize (d.inTiles name) = d.tilesRoot.fileAt name := by
  rw [Disk.fileSize, if_pos (isPrefixOf_inTiles d name), drop_inTiles]

theorem unlink_inTiles (d : Disk) (name : Text) :
    d.unlink (d.inTiles name) = { d with tilesRoot := d.tilesRoot.unlink name } := by
  rw [Disk.unlink, if_pos (isPrefixOf_inTiles d name), drop_inTiles]

theorem pathName_inTiles (d : Disk) {name : Text} (hne : name ≠ []) (hslash : '/' ∉ name)
    (hdot : name ≠ ['.']) : pathName (d.inTiles name) = name := by
  rw [pathName, Disk.inTiles, List.splitOn_append_cons_self, List.splitOn_eq_singleton hslash,
    List.filter_append]
  simp [hne, hdot]

theorem mbtilesName_ne {id : Text} : mbtilesName id ≠ [] ∧ mbtilesName id ≠ ['.'] := by
  refine ⟨fun h => ?_, fun h => ?_⟩ <;>
  · have hlength := congrArg List.length h
    simp [mbtilesName] at hlength

section Files
variable {db : Database} {d : Disk} (h : Tidy db d)
include h

theorem collectionTiles_tidy {c : CollectionRow} (hc : c ∈ db.collections) :
    collectionTiles d c =
      (d.tilesRoot.file (mbtilesName c.id)).map fun _ => d.inTiles (mbtilesName c.id) := by
  obtain ⟨hid, -⟩ := h.ids c hc
  have hslash := mbtilesName_slash hid.slash
  have hsize : d.fileSize (d.inTiles (mbtilesName c.id)) = d.tilesRoot.file (mbtilesName c.id) := by
    rw [fileSize_inTiles, Folder.fileAt_name _ (cut_name hslash)]
  have hempty : c.id.isEmpty = false := by simp [hid.nonempty]
  have hown : ∀ paths : List Text, paths ≠ [] →
      (∀ p ∈ paths, p = d.inTiles (mbtilesName c.id)) →
      (paths.find? fun p => (d.fileSize p).isSome) =
        (d.tilesRoot.file (mbtilesName c.id)).map fun _ => d.inTiles (mbtilesName c.id) := by
    intro paths hne hpaths
    cases hfile : d.tilesRoot.file (mbtilesName c.id) with
    | none =>
      rw [Option.map_none, List.find?_eq_none]
      intro p hp
      rw [hpaths p hp, hsize, hfile]
      exact Bool.false_ne_true
    | some size =>
      obtain ⟨p, paths, rfl⟩ := List.exists_cons_of_ne_nil hne
      rw [hpaths p List.mem_cons_self, List.find?_cons_of_pos (by rw [hsize, hfile]; rfl)]
      rfl
  unfold collectionTiles collectionMbtilesPath
  rw [hempty]
  rcases hpath : c.pmtilesPath with - | - | ⟨ch, path⟩
  · exact hown _ (by simp) (by simp)
  · exact hown _ (by simp) (by simp)
  · have hstored := h.stored c hc _ hpath
    have hname : pathName (ch :: path) = mbtilesName c.id := by
      rw [hstored, pathName_inTiles d mbtilesName_ne.1 hslash mbtilesName_ne.2]
    dsimp only
    rw [hname, hstored]
    refine hown _ (by simp) fun p hp => ?_
    simpa [mbtilesName_ne.1] using hp

/-- What the file of a collection takes. -/
theorem tilesBytes_tidy {c : CollectionRow} (hc : c ∈ db.collections) :
    (collectionTiles d c).bind d.fileSize = d.tilesRoot.file (mbtilesName c.id) := by
  obtain ⟨hid, -⟩ := h.ids c hc
  rw [collectionTiles_tidy h hc]
  cases hfile : d.tilesRoot.file (mbtilesName c.id) with
  | none => rfl
  | some size =>
    rw [Option.map_some, Option.bind_some, fileSize_inTiles,
      Folder.fileAt_name _ (cut_name (mbtilesName_slash hid.slash)), hfile]

theorem mosaicFile_tidy {m : MosaicRow} (hm : m ∈ db.mosaics) :
    mosaicFile d m = d.rasterRoot.fileAt m.jsonRelativePath := by
  rw [mosaicFile, if_neg]
  rw [(h.paths m hm).1, viewsPath, List.isEmpty_iff]
  simp

/-- A file in the tiles root is known when it is named after a collection. -/
theorem mem_knownTiles {name : Text} {size : Nat} (hfile : d.tilesRoot.file name = some size) :
    name ∈ knownTiles db d ↔ name ∈ db.collections.map fun c => mbtilesName c.id := by
  rw [knownTiles, List.mem_filterMap, List.mem_map]
  refine exists_congr fun c => and_congr_right fun hc => ?_
  obtain ⟨hid, -⟩ := h.ids c hc
  have hname := pathName_inTiles d mbtilesName_ne.1 (mbtilesName_slash hid.slash) mbtilesName_ne.2
  rw [collectionTiles_tidy h hc]
  refine ⟨fun heq => ?_, fun heq => ?_⟩
  · obtain ⟨path, hpath, rfl⟩ := Option.map_eq_some_iff.mp heq
    obtain ⟨-, -, rfl⟩ := Option.map_eq_some_iff.mp hpath
    exact hname.symm
  · rw [heq, hfile, Option.map_some, Option.map_some, ← heq, hname]

theorem mem_knownMosaics {path : Text} {size : Nat} (hfile : d.rasterRoot.fileAt path = some size) :
    path ∈ knownMosaics db d ↔ path ∈ db.mosaics.map MosaicRow.jsonRelativePath := by
  rw [knownMosaics, List.mem_map, List.mem_map]
  refine exists_congr fun m => and_congr_left fun hpath => ?_
  rw [List.mem_filter]
  refine and_iff_left_of_imp fun hm => ?_
  rw [mosaicFile_tidy h hm, hpath, hfile]
  rfl

end Files

theorem mem_knownRasters {db : Database} {d : Disk} {name : Text} {tree : Tree}
    (hdir : d.rasterRoot.dir name = some tree) :
    name ∈ knownRasters db d ↔ name ∈ db.collections.map CollectionRow.id := by
  rw [knownRasters, List.mem_filter]
  refine and_iff_left_of_imp fun _ => ?_
  rw [hdir]
  rfl

/-! ## What an item takes -/

/-- The first row of a kind and an id. -/
def findRow (rows : List UsageRow) (kind : Kind) (id : Text) : Option UsageRow :=
  rows.find? fun r => r.kind = kind && r.id = id

theorem findRow_iff {rows : List UsageRow} (hrows : (rows.map UsageRow.key).Nodup) {kind : Kind}
    {id : Text} {r : UsageRow} :
    findRow rows kind id = some r ↔ r ∈ rows ∧ r.kind = kind ∧ r.id = id := by
  induction rows with
  | nil => simp [findRow]
  | cons r₀ rows ih =>
    rw [List.map_cons, List.nodup_cons] at hrows
    have ih := ih hrows.2
    unfold findRow at ih ⊢
    rw [List.find?_cons, List.mem_cons]
    by_cases hr₀ : r₀.kind = kind ∧ r₀.id = id
    · have hout : ∀ r ∈ rows, ¬(r.kind = kind ∧ r.id = id) := fun r hr hkey =>
        hrows.1 (List.mem_map.mpr ⟨r, hr, Prod.ext (hkey.1.trans hr₀.1.symm)
          (hkey.2.trans hr₀.2.symm)⟩)
      simp only [hr₀, decide_true, Bool.and_self, Option.some.injEq]
      refine ⟨fun h => h ▸ ⟨.inl rfl, hr₀⟩, fun h => ?_⟩
      rcases h.1 with rfl | hr
      · rfl
      · exact absurd h.2 (hout r hr)
    · have hfalse : (decide (r₀.kind = kind) && decide (r₀.id = id)) = false := by
        rw [← Bool.decide_and]
        exact decide_eq_false hr₀
      rw [hfalse]
      refine ih.trans ⟨fun h => ⟨.inr h.1, h.2⟩, fun h => ⟨?_, h.2⟩⟩
      rcases h.1 with rfl | hr
      · exact absurd h.2 hr₀
      · exact hr

theorem OfKind.findRow_other {kind k : Kind} {rows : List UsageRow} (h : OfKind kind rows)
    (hk : kind ≠ k) (id : Text) : findRow rows k id = none := by
  rw [findRow, List.find?_eq_none]
  intro r hr
  simp [(h.each r hr).1, hk]

theorem findRow_parts {parts : List (Kind × List UsageRow)} (hkinds : (parts.map Prod.fst).Nodup)
    (hparts : ∀ p ∈ parts, OfKind p.1 p.2) {p : Kind × List UsageRow} (hp : p ∈ parts) (id : Text) :
    findRow (parts.flatMap Prod.snd) p.1 id = findRow p.2 p.1 id := by
  induction parts with
  | nil => cases hp
  | cons q parts ih =>
    rw [List.map_cons, List.nodup_cons] at hkinds
    have ih := ih hkinds.2 fun q hq => hparts q (List.mem_cons_of_mem _ hq)
    have happend : findRow ((q :: parts).flatMap Prod.snd) p.1 id =
        (findRow q.2 p.1 id).or (findRow (parts.flatMap Prod.snd) p.1 id) := List.find?_append
    rw [happend]
    rcases List.mem_cons.mp hp with rfl | hp
    · have hrest : findRow (parts.flatMap Prod.snd) p.1 id = none := by
        rw [findRow, List.find?_eq_none]
        intro r hr
        obtain ⟨q, hq, hr⟩ := List.mem_flatMap.mp hr
        have hkind : r.kind ≠ p.1 := fun heq =>
          hkinds.1 (heq ▸ ((hparts q (List.mem_cons_of_mem _ hq)).each r hr).1 ▸
            List.mem_map_of_mem hq)
        simp [hkind]
      rw [hrest, Option.or_none]
    · have hne : q.1 ≠ p.1 := fun heq => hkinds.1 (heq ▸ List.mem_map_of_mem hp)
      rw [(hparts q List.mem_cons_self).findRow_other hne, Option.none_or, ih hp]

/-- The row of a scan for a kind and an id. -/
def usage (db : Database) (d : Disk) : Kind → Text → Option UsageRow
  | .collection, id => (getCollection db id).map (collectionRow db d)
  | .mosaic, id => (getView db id).map (mosaicRow d)
  | .orphanTiles, name =>
    if ".mbtiles".toList.isSuffixOf name ∧ name ∉ db.collections.map fun c => mbtilesName c.id then
      (d.tilesRoot.file name).map (orphanTilesRow name)
    else none
  | .orphanRasters, name =>
    if name ≠ viewsName ∧ name.head? ≠ some '.' ∧ name ∉ db.collections.map CollectionRow.id then
      (d.rasterRoot.dir name).map (orphanRastersRow name)
    else none
  | .orphanMosaic, path =>
    if path = viewsPath (path.drop 6) ∧ '/' ∉ path.drop 6 ∧
        path ∉ db.mosaics.map MosaicRow.jsonRelativePath then
      (d.rasterRoot.fileAt path).map (orphanMosaicRow path)
    else none
  | .bulkUploads, id => findRow (bulkRows d) .bulkUploads id

theorem findRow_map {α : Type} (kind : Kind) {f : α → UsageRow} (g : α → Text) (xs : List α)
    (id : Text) (hf : ∀ x, (f x).kind = kind ∧ (f x).id = g x) :
    findRow (xs.map f) kind id = (xs.find? fun x => g x = id).map f := by
  rw [findRow, List.find?_map]
  congr 2
  funext x
  simp [hf x]

theorem lookup_file (f : Folder) {name : Text} {size : Nat} :
    f.file name = some size ↔ (name, .file size) ∈ f.entries := by
  rw [Folder.file, Option.bind_eq_some_iff]
  refine ⟨?_, fun h => ⟨_, (lookup_iff f.nodup).mpr h, rfl⟩⟩
  rintro ⟨n, hn, hsize⟩
  cases n with
  | file size' =>
    cases hsize
    exact (lookup_iff f.nodup).mp hn
  | dir tree => cases hsize

theorem lookup_dir (f : Folder) {name : Text} {tree : Tree} :
    f.dir name = some tree ↔ (name, .dir tree) ∈ f.entries := by
  rw [Folder.dir, Option.bind_eq_some_iff]
  refine ⟨?_, fun h => ⟨_, (lookup_iff f.nodup).mpr h, rfl⟩⟩
  rintro ⟨n, hn, htree⟩
  cases n with
  | file size => cases htree
  | dir tree' =>
    cases htree
    exact (lookup_iff f.nodup).mp hn

theorem findRow_orphanRasters (db : Database) (d : Disk) (name : Text) :
    findRow (orphanRasters d (knownRasters db d)) .orphanRasters name =
      usage db d .orphanRasters name := by
  refine Option.ext fun r => ?_
  rw [findRow_iff (ofKind_orphanRasters d _).keys, orphanRasters, List.mem_filterMap, usage]
  constructor
  · rintro ⟨⟨⟨name', n⟩, he, hr⟩, -, hid⟩
    cases n with
    | file size => cases hr
    | dir tree =>
      have hdir := (lookup_dir d.rasterRoot).mpr he
      dsimp only at hr
      split at hr
      · cases hr
      · rename_i hcond
        cases hr
        obtain rfl : name' = name := hid
        simp only [Bool.or_eq_true, decide_eq_true_eq, List.contains_iff_mem, not_or,
          mem_knownRasters hdir] at hcond
        rw [if_pos ⟨hcond.1.1, hcond.1.2, hcond.2⟩, hdir]
        rfl
  · intro hr
    split at hr
    · rename_i hcond
      obtain ⟨tree, hdir, rfl⟩ := Option.map_eq_some_iff.mp hr
      refine ⟨⟨(name, .dir tree), (lookup_dir d.rasterRoot).mp hdir, ?_⟩, rfl, rfl⟩
      rw [← mem_knownRasters hdir] at hcond
      dsimp only
      rw [if_neg]
      simpa [and_assoc] using hcond
    · cases hr

section Parts
variable {db : Database} {d : Disk} (h : Tidy db d)
include h

theorem findRow_orphanTiles (name : Text) :
    findRow (orphanTiles d (knownTiles db d)) .orphanTiles name = usage db d .orphanTiles name := by
  refine Option.ext fun r => ?_
  rw [findRow_iff (ofKind_orphanTiles d _).keys, orphanTiles, List.mem_filterMap, usage]
  constructor
  · rintro ⟨⟨⟨name', n⟩, he, hr⟩, -, hid⟩
    cases n with
    | dir tree => cases hr
    | file size =>
      have hfile := (lookup_file d.tilesRoot).mpr he
      dsimp only at hr
      split at hr
      · rename_i hcond
        cases hr
        obtain rfl : name' = name := hid
        simp only [Bool.and_eq_true, Bool.not_eq_true', List.contains_iff_mem,
          mem_knownTiles h hfile, ← Bool.not_eq_true] at hcond
        rw [if_pos hcond, hfile]
        rfl
      · cases hr
  · intro hr
    split at hr
    · rename_i hcond
      obtain ⟨size, hfile, rfl⟩ := Option.map_eq_some_iff.mp hr
      refine ⟨⟨(name, .file size), (lookup_file d.tilesRoot).mp hfile, ?_⟩, rfl, rfl⟩
      dsimp only
      rw [← mem_knownTiles h hfile] at hcond
      rw [if_pos]
      simpa using hcond
    · cases hr

theorem findRow_orphanMosaics (path : Text) :
    findRow (orphanMosaics d (knownMosaics db d)) .orphanMosaic path =
      usage db d .orphanMosaic path := by
  refine Option.ext fun r => ?_
  rw [findRow_iff (ofKind_orphanMosaics d _).keys, orphanMosaics, List.mem_filterMap, usage]
  have hfiles : ∀ name size, (name, size) ∈ (d.rasterRoot.dir viewsName).elim [] Tree.files ↔
      d.rasterRoot.fileAt (viewsPath name) = some size := by
    intro name size
    rw [Folder.fileAt_below _ (cut_viewsPath name)]
    cases d.rasterRoot.dir viewsName with
    | none => simp
    | some tree => exact (lookup_iff tree.nodup).symm
  constructor
  · rintro ⟨⟨⟨name, size⟩, he, hr⟩, -, hid⟩
    have hfile := (hfiles name size).mp he
    dsimp only at hr
    split at hr
    · cases hr
    · rename_i hcond
      cases hr
      obtain rfl : viewsPath name = path := hid
      simp only [Bool.or_eq_true, List.contains_iff_mem, not_or, mem_knownMosaics h hfile] at hcond
      have hcond' : viewsPath name = viewsPath ((viewsPath name).drop 6) ∧
          '/' ∉ (viewsPath name).drop 6 ∧
          viewsPath name ∉ db.mosaics.map MosaicRow.jsonRelativePath := ⟨rfl, hcond⟩
      rw [if_pos hcond', hfile]
      rfl
  · intro hr
    split at hr
    · rename_i hcond
      obtain ⟨size, hfile, rfl⟩ := Option.map_eq_some_iff.mp hr
      rw [← mem_knownMosaics h hfile] at hcond
      rw [hcond.1] at hfile
      refine ⟨⟨(path.drop 6, size), (hfiles _ size).mpr hfile, ?_⟩, rfl, rfl⟩
      dsimp only
      rw [← hcond.1, if_neg]
      simpa using hcond.2
    · cases hr

/-- The rows of a scan are what the items take. -/
theorem findRow_scanRows (kind : Kind) (id : Text) :
    findRow (scanRows db d) kind id = usage db d kind id := by
  have hpart : ∀ p ∈ scanParts db d, findRow (scanRows db d) p.1 id = findRow p.2 p.1 id := by
    intro p hp
    rw [scanRows_eq]
    exact findRow_parts (scanParts_kinds db d) (scanParts_ofKind db d) hp id
  simp only [scanParts, List.forall_mem_cons] at hpart
  obtain ⟨hcollections, hmosaics, htiles, hrasters, hviews, hbulk, -⟩ := hpart
  cases kind with
  | collection =>
    exact hcollections.trans (findRow_map .collection CollectionRow.id _ id fun _ => ⟨rfl, rfl⟩)
  | mosaic => exact hmosaics.trans (findRow_map .mosaic MosaicRow.id _ id fun _ => ⟨rfl, rfl⟩)
  | orphanTiles => exact htiles.trans (findRow_orphanTiles h id)
  | orphanRasters => exact hrasters.trans (findRow_orphanRasters db d id)
  | orphanMosaic => exact hviews.trans (findRow_orphanMosaics h id)
  | bulkUploads => exact hbulk

end Parts

/-! ## Patched snapshots -/

/-- All of a row but whether its tiles can be deleted. -/
def plain (r : UsageRow) : UsageRow := { r with canDeleteTiles := false }

/-- What the items take, changed for one of them. -/
def changeAt (f : Option UsageRow → Option UsageRow) (kind : Kind) (id : Text)
    (u : Kind → Text → Option UsageRow) : Kind → Text → Option UsageRow :=
  fun k i => if k = kind ∧ i = id then f (u k i) else u k i

def plainUsage (db : Database) (d : Disk) : Kind → Text → Option UsageRow :=
  fun kind id => (usage db d kind id).map plain

/-- The snapshot is coherent and has what the items take. -/
structure Fresh (snap : Snapshot) (u : Kind → Text → Option UsageRow) : Prop where
  coherent : snap.Coherent
  rows : ∀ kind id, (findRow snap.rows kind id).map plain = u kind id

theorem findRow_sortRows {rows : List UsageRow} (hrows : (rows.map UsageRow.key).Nodup)
    (kind : Kind) (id : Text) : findRow (sortRows rows) kind id = findRow rows kind id := by
  have hperm := sortRows_perm rows
  refine Option.ext fun r => ?_
  rw [findRow_iff ((hperm.map UsageRow.key).nodup_iff.mpr hrows), findRow_iff hrows, hperm.mem_iff]

theorem fresh_computeStorageUsage {db : Database} {d : Disk} (h : Tidy db d) :
    Fresh (computeStorageUsage db d) (plainUsage db d) := by
  have hcoherent := coherent_computeStorageUsage db d
  have hkeys := ((sortRows_perm (scanRows db d)).map UsageRow.key).nodup_iff.mp hcoherent.keys
  refine ⟨hcoherent, fun kind id => ?_⟩
  rw [plainUsage, ← findRow_scanRows h, ← findRow_sortRows hkeys]
  rfl

theorem findRow_cons (r : UsageRow) (rows : List UsageRow) (kind : Kind) (id : Text) :
    findRow (r :: rows) kind id =
      if r.kind = kind ∧ r.id = id then some r else findRow rows kind id := by
  rw [findRow, List.find?_cons, findRow]
  by_cases hr : r.kind = kind ∧ r.id = id
  · simp [hr]
  · rw [if_neg hr, ← Bool.decide_and, decide_eq_false hr]

theorem findRow_patchFirst (kind : Kind) (id : Text) {f : UsageRow → UsageRow}
    (hkey : ∀ r, (f r).key = r.key) (rows : List UsageRow) :
    findRow ((patchFirst kind id f rows).getD rows) =
      changeAt (Option.map f) kind id (findRow rows) := by
  induction rows with
  | nil =>
    funext k i
    simp [patchFirst, changeAt, findRow]
  | cons r rows ih =>
    obtain ⟨hkind, hid⟩ := Prod.mk.inj (hkey r)
    funext k i
    unfold patchFirst
    by_cases hr : r.kind = kind ∧ r.id = id
    · obtain ⟨rfl, rfl⟩ := hr
      rw [if_pos ⟨rfl, rfl⟩, Option.getD_some, findRow_cons, hkind, hid, changeAt, findRow_cons]
      by_cases hki : r.kind = k ∧ r.id = i
      · simp [hki]
      · have hki' : ¬(k = r.kind ∧ i = r.id) := fun h => hki ⟨h.1.symm, h.2.symm⟩
        rw [if_neg hki, if_neg hki', if_neg hki]
    · have hgetD : ((patchFirst kind id f rows).map (r :: ·)).getD (r :: rows) =
          r :: (patchFirst kind id f rows).getD rows := by
        cases patchFirst kind id f rows <;> rfl
      rw [if_neg hr, hgetD, findRow_cons, ih, changeAt, changeAt, findRow_cons]
      by_cases hki : r.kind = k ∧ r.id = i
      · have hki' : ¬(k = kind ∧ i = id) := fun h => hr ⟨hki.1.trans h.1, hki.2.trans h.2⟩
        rw [if_pos hki, if_neg hki', if_pos hki]
      · rw [if_neg hki, if_neg hki]

theorem Fresh.patched {kind : Kind} {id : Text} {f : UsageRow → UsageRow} {snap : Snapshot}
    {u : Kind → Text → Option UsageRow} (h : Fresh snap u) (hkey : ∀ r, (f r).key = r.key)
    (hbalanced : ∀ r : UsageRow, r.kind = kind → r.Balanced → (f r).Balanced)
    (hplain : ∀ r, plain (f r) = f (plain r)) :
    Fresh ((patchRow kind id f snap).getD snap) (changeAt (Option.map f) kind id u) := by
  have hrows : ∀ k i, (findRow ((patchFirst kind id f snap.rows).getD snap.rows) k i).map plain =
      changeAt (Option.map f) kind id u k i := by
    intro k i
    rw [findRow_patchFirst kind id hkey, changeAt, changeAt, ← h.rows]
    split
    · cases findRow snap.rows k i with
      | none => rfl
      | some r => exact congrArg some (hplain r)
    · rfl
  cases hpatch : patchFirst kind id f snap.rows with
  | none =>
    rw [patchRow, hpatch]
    rw [hpatch] at hrows
    exact ⟨h.coherent, hrows⟩
  | some rows =>
    have hsome : patchRow kind id f snap =
        some ⟨sortRows rows, snap.rowCount, totalsOf (sortRows rows)⟩ := by
      rw [patchRow, hpatch]
      rfl
    have hkeys : (rows.map UsageRow.key).Nodup := (patchFirst_spec hkey hpatch).1 ▸ h.coherent.keys
    rw [hpatch] at hrows
    rw [hsome]
    refine ⟨coherent_patchRow hkey hbalanced h.coherent hsome, fun k i => ?_⟩
    rw [Option.getD_some, findRow_sortRows hkeys]
    exact hrows k i

theorem Fresh.removed {snap : Snapshot} {u : Kind → Text → Option UsageRow} (h : Fresh snap u)
    (kind : Kind) (id : Text) :
    Fresh (removeRowFromSnapshot kind id snap) (changeAt (fun _ => none) kind id u) := by
  refine ⟨coherent_removeRow h.coherent kind id, fun k i => ?_⟩
  have hrows : ∀ rows : List UsageRow,
      findRow (rows.filter fun r => !(r.kind = kind && r.id = id)) k i =
        changeAt (fun _ => none) kind id (findRow rows) k i := by
    intro rows
    rw [changeAt, findRow, List.find?_filter]
    split
    · rename_i hki
      obtain ⟨rfl, rfl⟩ := hki
      rw [List.find?_eq_none]
      intro r _
      grind
    · rename_i hki
      rw [findRow]
      congr 1
      funext r
      by_cases hr : r.kind = k ∧ r.id = i
      · have hne : ¬(r.kind = kind ∧ r.id = id) := fun h => hki ⟨hr.1 ▸ h.1, hr.2 ▸ h.2⟩
        rw [← Bool.decide_and, ← Bool.decide_and, decide_eq_false hne, decide_eq_true hr]
        rfl
      · rw [← Bool.decide_and, ← Bool.decide_and, decide_eq_false hr]
        simp
  rw [removeRowFromSnapshot, hrows, changeAt, changeAt, ← h.rows]
  split <;> rfl

end Usage
end Storage
end Geofastmap
