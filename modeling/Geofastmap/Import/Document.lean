import Mathlib.Data.List.TakeWhile
import Geofastmap.Bulk.Tally
import Geofastmap.Import.Parts

/-!
# Geofastmap.Import.Document

GeoJSON files, and what the two readers of `bulk_import.py` see in them. `_import_geojsonl_source`
takes the file line by line (`readLine`); `_import_one_source` takes the features that `fiona` yields
(`readRecord`). `sourceFile` puts both into the `SourceFile` that the session importer works on.

The ids that `uuid7` returns are a stream for each record. The counts do not depend on them
(`sum_created`, `sum_failed`), and as they are all different the rows can be inserted
(`fits_items`).
-/

namespace Geofastmap
namespace Import

open Bulk Db

/-! ## Files -/

/-- A feature of a document: its two members that the import reads. -/
structure Feature where
  geometry : Json
  properties : Json

def Json.isStr (s : Text) : Json → Bool
  | .str t => t == s
  | _ => false

/-- A mapping, or `null`. -/
def Json.isMapping : Json → Bool
  | .null | .obj _ => true
  | _ => false

/-- A GeoJSON `Feature`. -/
def asFeature : Json → Option Feature
  | .obj members =>
    let f : Feature := ⟨Json.get members "geometry".toList, Json.get members "properties".toList⟩
    if (Json.get members "type".toList).isStr "Feature".toList && f.geometry.isMapping &&
        f.properties.isMapping then some f
    else none
  | _ => none

/-- A GeoJSON `FeatureCollection`, which has no geometry and no properties of its own. -/
def asCollection : Json → Option (List Feature)
  | .obj members =>
    if (Json.get members "type".toList).isStr "FeatureCollection".toList &&
        (members.lookup "geometry".toList).isNone && (members.lookup "properties".toList).isNone then
      match Json.get members "features".toList with
      | .arr items => items.mapM asFeature
      | _ => none
    else none
  | _ => none

/-- The lines of a file that is read as bytes, after the characters of a line begun. -/
def rawLinesFrom (line : Text) : Text → List Text
  | [] => if line.isEmpty then [] else [line]
  | ch :: rest =>
    if ch = '\n' then (line ++ [ch]) :: rawLinesFrom [] rest else rawLinesFrom (line ++ [ch]) rest

def rawLines (text : Text) : List Text := rawLinesFrom [] text

/-- The lines that are not blank, without the blanks around them. -/
def textLines (text : Text) : List Text := ((rawLines text).map stripBytes).filter fun l => !l.isEmpty

theorem stripBytes_eq_nil {s : Text} : stripBytes s = [] ↔ ∀ ch ∈ s, isByteSpace ch = true := by
  unfold stripBytes
  rw [List.reverse_eq_nil_iff, List.dropWhile_eq_nil_iff]
  constructor
  · intro h
    by_contra hne
    have hdrop : s.dropWhile isByteSpace ≠ [] := fun he => hne (List.dropWhile_eq_nil_iff.mp he)
    have hhead := List.head_dropWhile_not isByteSpace hdrop
    rw [h _ (by simp)] at hhead
    cases hhead
  · intro h ch hch
    rw [List.mem_reverse] at hch
    exact h ch (List.dropWhile_subset _ hch)

theorem stripBytes_append_left {a b : Text} (h : ∀ ch ∈ a, isByteSpace ch = true) :
    stripBytes (a ++ b) = stripBytes b := by
  unfold stripBytes
  rw [List.dropWhile_append_of_pos h]

theorem stripBytes_append_right {a b : Text} (h : ∀ ch ∈ b, isByteSpace ch = true) :
    stripBytes (a ++ b) = stripBytes a := by
  by_cases ha : ∀ ch ∈ a, isByteSpace ch = true
  · rw [stripBytes_append_left ha, stripBytes_eq_nil.mpr h, stripBytes_eq_nil.mpr ha]
  · have hne : (a.dropWhile isByteSpace).isEmpty = false := by
      rw [List.isEmpty_eq_false_iff]
      exact fun he => ha (List.dropWhile_eq_nil_iff.mp he)
    unfold stripBytes
    rw [List.dropWhile_append, if_neg (by simp [hne]), List.reverse_append,
      List.dropWhile_append_of_pos (fun ch hch => h ch (List.mem_reverse.mp hch))]

theorem flatten_rawLines (text : Text) : (rawLines text).flatten = text := by
  have h : ∀ (text line : Text), (rawLinesFrom line text).flatten = line ++ text := by
    intro text
    induction text with
    | nil =>
      intro line
      unfold rawLinesFrom
      split
      · rename_i hl
        rw [List.isEmpty_iff.mp hl]
        rfl
      · simp
    | cons ch rest ih =>
      intro line
      unfold rawLinesFrom
      split
      · simp [ih]
      · simp [ih]
  exact h text []

/-- The first line that is not blank, and what comes after it. -/
theorem split_textLines {raws : List Text} {l : Text} {ls : List Text}
    (h : (raws.map stripBytes).filter (fun l => !l.isEmpty) = l :: ls) :
    ∃ a b, raws.flatten = a ++ b ∧ stripBytes a = l ∧ (stripBytes b = [] ↔ ls = []) := by
  induction raws with
  | nil => cases h
  | cons raw raws ih =>
    rw [List.map_cons, List.filter_cons] at h
    split at h
    · rename_i hraw
      obtain ⟨rfl, rfl⟩ := List.cons.inj h
      refine ⟨raw, raws.flatten, by simp, rfl, ?_⟩
      rw [stripBytes_eq_nil, List.filter_eq_nil_iff]
      constructor
      · intro hb l hl
        obtain ⟨r, hr, rfl⟩ := List.mem_map.mp hl
        simp [stripBytes_eq_nil.mpr fun ch hch => hb ch (List.mem_flatten.mpr ⟨r, hr, hch⟩)]
      · intro hall ch hch
        obtain ⟨r, hr, hch⟩ := List.mem_flatten.mp hch
        have := hall (stripBytes r) (List.mem_map_of_mem hr)
        exact stripBytes_eq_nil.mp (by simpa using this) ch hch
    · rename_i hraw
      obtain ⟨a, b, hab, ha, hb⟩ := ih h
      have hblank : ∀ ch ∈ raw, isByteSpace ch = true := stripBytes_eq_nil.mp (by simpa using hraw)
      exact ⟨raw ++ a, b, by simp [hab], by rw [stripBytes_append_left hblank, ha], hb⟩

/-- The libraries, the database and the settings that the readers use, and how deep Python may
recurse. -/
structure Env (G : Type) where
  /-- `orjson.loads`, which raises on what is not JSON. -/
  loads : Text → Option Json
  /-- The text of an object ends where its brace is closed. -/
  loads_whole : ∀ (a b : Text) (members : List (Text × Json)),
    loads (stripBytes (a ++ b)) = some (.obj members) → stripBytes a ≠ [] → stripBytes b ≠ [] →
      loads (stripBytes a) = none
  shapely : Shapely G
  postgis : Postgis
  limits : Limits
  depth : Nat

/-! ## The readers -/

inductive LineParts where
  | blank
  | bad
  | feature (parts : List Part)

section
variable {G : Type} (env : Env G)

/-- The parts of a record. -/
def recordParts (geom : Json) (props : List (Text × Json)) : Except Raised (List Part) :=
  if geom.truthy then do
    let base ← env.shapely.shape geom
    let geoms ← explodeToSimpleParts env.shapely env.depth base
    return geoms.map fun g =>
      partOf env.shapely env.postgis env.limits env.depth props (some g)
  else return [partOf env.shapely env.postgis env.limits env.depth props none]

/-- A line of `_import_geojsonl_source` without the blanks around it. Only `dict(...)` is outside a
`try`. -/
def readStripped (line : Text) : Except Raised LineParts :=
  if line.isEmpty then .ok .blank
  else
    match env.loads line with
    | some (.obj rec) => do
      let props ← Json.dict (Json.get rec "properties".toList)
      match recordParts env (Json.get rec "geometry".toList) props with
      | .error _ | .ok [] => return .bad
      | .ok (p :: ps) => return .feature (p :: ps)
    | _ => .ok .bad

def readLine (raw : Text) : Except Raised LineParts := readStripped env (stripBytes raw)

/-- A record of `_import_one_source`. -/
def readRecord (f : Feature) : Except Raised (List Part) := do
  let props ← Json.dict f.properties
  recordParts env f.geometry props

end

/-- What a loop reads before the exception that ends it. -/
def readAll {α β : Type} (read : α → Except Raised β) : List α → List β × Option Raised
  | [] => ([], none)
  | x :: xs =>
    match read x with
    | .error e => ([], some e)
    | .ok b => (b :: (readAll read xs).1, (readAll read xs).2)

def LineParts.content (id : Nat → Text) : LineParts → LineContent
  | .blank => .blank
  | .bad => .bad
  | .feature ps => .feature (geometries id ps)

/-- What a run of a reader meets: the ids that are drawn for each record, and before which record
the heartbeat is due. -/
structure Draws where
  uuid : Nat → Nat → Text
  beat : Nat → Bool

def Draws.next (d : Draws) : Draws := ⟨fun n => d.uuid (n + 1), fun n => d.beat (n + 1)⟩

def numberLines : Draws → List LineParts → List Line
  | _, [] => []
  | d, l :: ls => ⟨d.beat 0, l.content (d.uuid 0)⟩ :: numberLines d.next ls

def numberRecords : Draws → List (List Part) → List FionaRecord
  | _, [] => []
  | d, ps :: rest => ⟨d.beat 0, geometries (d.uuid 0) ps⟩ :: numberRecords d.next rest

/-- A file with this text, of which `fiona` yields the features `fs`. -/
def sourceFile {G : Type} (env : Env G) (d d' : Draws) (text : Text) (fs : List Feature) :
    SourceFile where
  geojson := true
  lines := numberLines d (readAll (readLine env) (rawLines text)).1
  linesError := (readAll (readLine env) (rawLines text)).2
  records := numberRecords d' (readAll (readRecord env) fs).1
  recordsError := (readAll (readRecord env) fs).2

/-! ## The counts -/

/-- What a part leaves in the database. -/
def Part.draft : Part → Option (Except Raised Draft)
  | .insert _ d => some d
  | _ => none

def Part.failures : Part → Nat
  | .tooLarge => 1
  | .noPieces oversize => oversize
  | .insert oversize (.ok _) => oversize
  | .insert oversize (.error _) => oversize + 1

def LineParts.drafts : LineParts → List (Except Raised Draft)
  | .feature ps => ps.filterMap Part.draft
  | _ => []

def LineParts.created (l : LineParts) : Nat := if l.drafts.isEmpty then 0 else 1

def LineParts.failed : LineParts → Nat
  | .blank => 0
  | .bad => 1
  | .feature ps => ps.countP fun p => p.draft.isNone

def recordDrafts (ps : List Part) : List Draft :=
  ps.filterMap fun p => p.draft.bind Except.toOption

def recordFailed (ps : List Part) : Nat := if ps.isEmpty then 1 else (ps.map Part.failures).sum

def Item.draft (it : Item) : Draft := ⟨it.properties, it.geometries, it.nonempty⟩

/-- What does not depend on the ids. -/
theorem map_geometries {β : Type} {f : Geometry → β} {f' : Part → β}
    (h : ∀ id p, f (p.geometry id) = f' p) (id : Nat → Text) (ps : List Part) :
    (geometries id ps).map f = ps.map f' := by
  induction ps generalizing id with
  | nil => rfl
  | cons p ps ih => rw [geometries, List.map_cons, List.map_cons, h, ih]

theorem filterMap_geometries {β : Type} {f : Geometry → Option β} {f' : Part → Option β}
    (h : ∀ id p, f (p.geometry id) = f' p) (id : Nat → Text) (ps : List Part) :
    (geometries id ps).filterMap f = ps.filterMap f' := by
  have hmap := congrArg (List.filterMap fun x => x) (map_geometries h id ps)
  rwa [List.filterMap_map, List.filterMap_map] at hmap

theorem statement_geometry (id : Text) (p : Part) :
    (p.geometry id).statement.map (Except.map Item.draft) = p.draft := by
  cases p with
  | tooLarge => rfl
  | noPieces n => rfl
  | insert n d => cases d <;> rfl

theorem statements_content (id : Nat → Text) (l : LineParts) :
    (l.content id).statements.map (Except.map Item.draft) = l.drafts := by
  cases l with
  | blank => rfl
  | bad => rfl
  | feature ps =>
    simp only [LineParts.content, LineContent.statements, LineParts.drafts, List.map_filterMap]
    exact filterMap_geometries statement_geometry id ps

theorem created_content (id : Nat → Text) (l : LineParts) : (l.content id).created = l.created := by
  unfold LineContent.created LineParts.created
  rw [← statements_content id l, List.isEmpty_map]

theorem failed_content (id : Nat → Text) (l : LineParts) : (l.content id).failed = l.failed := by
  cases l with
  | blank => rfl
  | bad => rfl
  | feature ps =>
    have hnone : ∀ id p, (Part.geometry id p).statement.isNone = p.draft.isNone := by
      intro id p
      cases p <;> rfl
    have hmap : (geometries id ps).map (fun g => g.statement.isNone) =
        ps.map fun p => p.draft.isNone := map_geometries hnone id ps
    have hcount := congrArg (List.countP fun b => b) hmap
    rwa [List.countP_map, List.countP_map] at hcount

theorem items_geometries (id : Nat → Text) (ps : List Part) :
    ((geometries id ps).filterMap Geometry.item).map Item.draft = recordDrafts ps := by
  have hitem : ∀ id p, (Part.geometry id p).item.map Item.draft =
      p.draft.bind Except.toOption := by
    intro id p
    cases p with
    | tooLarge => rfl
    | noPieces n => rfl
    | insert n d => cases d <;> rfl
  rw [List.map_filterMap]
  exact filterMap_geometries hitem id ps

theorem failed_geometries (beat : Bool) (id : Nat → Text) (ps : List Part) :
    (FionaRecord.mk beat (geometries id ps)).failed = recordFailed ps := by
  have hfailures : ∀ id p, (Part.geometry id p).failures = p.failures := by
    intro id p
    cases p with
    | tooLarge => rfl
    | noPieces n => rfl
    | insert n d => cases d <;> rfl
  unfold FionaRecord.failed recordFailed
  rw [map_geometries hfailures]
  cases ps <;> rfl

theorem sum_lines {f : LineContent → Nat} {f' : LineParts → Nat}
    (h : ∀ id l, f (LineParts.content id l) = f' l) (d : Draws) (ls : List LineParts) :
    ((numberLines d ls).map fun l => f l.content).sum = (ls.map f').sum := by
  induction ls generalizing d with
  | nil => rfl
  | cons l ls ih => simp [numberLines, h, ih]

theorem drafts_lines (d : Draws) (ls : List LineParts) :
    ((numberLines d ls).flatMap fun l => l.content.statements).map (Except.map Item.draft) =
      ls.flatMap LineParts.drafts := by
  induction ls generalizing d with
  | nil => rfl
  | cons l ls ih => simp [numberLines, statements_content, ih]

theorem failed_records (d : Draws) (rs : List (List Part)) :
    ((numberRecords d rs).map FionaRecord.failed).sum = (rs.map recordFailed).sum := by
  induction rs generalizing d with
  | nil => rfl
  | cons ps rs ih => simp [numberRecords, failed_geometries, ih]

theorem drafts_records (d : Draws) (rs : List (List Part)) :
    ((numberRecords d rs).flatMap FionaRecord.items).map Item.draft = rs.flatMap recordDrafts := by
  induction rs generalizing d with
  | nil => rfl
  | cons ps rs ih => simp [numberRecords, FionaRecord.items, items_geometries, ih]

/-! ## The ids -/

/-- No id is drawn twice. -/
def Draws.Distinct (d : Draws) : Prop := ∀ n i m j, d.uuid n i = d.uuid m j → n = m ∧ i = j

theorem Draws.Distinct.next {d : Draws} (h : d.Distinct) : d.next.Distinct := by
  intro n i m j he
  obtain ⟨h1, h2⟩ := h _ _ _ _ he
  exact ⟨Nat.succ.inj h1, h2⟩

/-- Features of different ids, each drawn for a part of a record. -/
structure Drawn (d : Draws) (items : List Item) : Prop where
  ids : (items.map Item.id).Nodup
  range : ∀ it ∈ items, ∃ n i, it.id = d.uuid n i

theorem geometries_ids {id : Nat → Text} (hid : ∀ i j, id i = id j → i = j) (ps : List Part) :
    (((geometries id ps).filterMap Geometry.item).map Item.id).Nodup ∧
      ∀ it ∈ (geometries id ps).filterMap Geometry.item, ∃ i, it.id = id i := by
  induction ps generalizing id with
  | nil => exact ⟨List.nodup_nil, by simp [geometries]⟩
  | cons p ps ih =>
    obtain ⟨hnodup, hrange⟩ := ih fun i j h => Nat.succ.inj (hid _ _ h)
    have hfirst : ∀ it ∈ (p.geometry (id 0)).item, it.id = id 0 := by
      intro it hit
      cases p with
      | tooLarge => cases hit
      | noPieces n => cases hit
      | insert n d =>
        cases d with
        | error e => cases hit
        | ok d =>
          cases hit
          rfl
    cases hp : (p.geometry (id 0)).item with
    | none =>
      rw [geometries, List.filterMap_cons_none hp]
      refine ⟨hnodup, fun it hit => ?_⟩
      obtain ⟨i, hi⟩ := hrange it hit
      exact ⟨i + 1, hi⟩
    | some it₀ =>
      rw [geometries, List.filterMap_cons_some hp]
      have hid₀ := hfirst it₀ hp
      refine ⟨List.nodup_cons.mpr ⟨fun hmem => ?_, hnodup⟩, fun it hit => ?_⟩
      · obtain ⟨it, hit, he⟩ := List.mem_map.mp hmem
        obtain ⟨i, hi⟩ := hrange it hit
        exact absurd (hid _ _ (hi.symm.trans (he.trans hid₀))) (Nat.succ_ne_zero i)
      · rcases List.mem_cons.mp hit with rfl | hit
        · exact ⟨0, hid₀⟩
        · obtain ⟨i, hi⟩ := hrange it hit
          exact ⟨i + 1, hi⟩

/-- The features of a record come before those of the next ones. -/
theorem Drawn.cons {d : Draws} (hd : d.Distinct) {items rest : List Item}
    (hnodup : (items.map Item.id).Nodup) (hrange : ∀ it ∈ items, ∃ i, it.id = d.uuid 0 i)
    (h : Drawn d.next rest) : Drawn d (items ++ rest) where
  ids := by
    rw [List.map_append, List.nodup_append]
    refine ⟨hnodup, h.ids, fun a ha b hb he => ?_⟩
    obtain ⟨it, hit, rfl⟩ := List.mem_map.mp ha
    obtain ⟨it', hit', rfl⟩ := List.mem_map.mp hb
    obtain ⟨i, hi⟩ := hrange it hit
    obtain ⟨n, j, hj⟩ := h.range it' hit'
    exact absurd (hd _ _ _ _ (hi.symm.trans (he.trans hj))).1 (Nat.succ_ne_zero n).symm
  range it hit := by
    rcases List.mem_append.mp hit with hit | hit
    · exact ⟨0, hrange it hit⟩
    · obtain ⟨n, i, hi⟩ := h.range it hit
      exact ⟨n + 1, i, hi⟩

theorem drawn_records {d : Draws} (hd : d.Distinct) (rs : List (List Part)) :
    Drawn d ((numberRecords d rs).flatMap FionaRecord.items) := by
  induction rs generalizing d with
  | nil => exact ⟨List.nodup_nil, by simp [numberRecords]⟩
  | cons ps rs ih =>
    obtain ⟨hnodup, hrange⟩ := geometries_ids (fun i j h => (hd 0 i 0 j h).2) ps
    exact Drawn.cons hd hnodup hrange (ih hd.next)

/-- The features that the statements of a line insert. -/
theorem items_statements (gs : List Geometry) :
    (gs.filterMap Geometry.statement).filterMap Except.toOption = gs.filterMap Geometry.item := by
  rw [List.filterMap_filterMap]
  rfl

theorem drawn_lines {d : Draws} (hd : d.Distinct) (ls : List LineParts) :
    Drawn d (((numberLines d ls).flatMap fun l => l.content.statements).filterMap
      Except.toOption) := by
  induction ls generalizing d with
  | nil => exact ⟨List.nodup_nil, by simp [numberLines]⟩
  | cons l ls ih =>
    rw [numberLines, List.flatMap_cons, List.filterMap_append]
    refine Drawn.cons hd ?_ ?_ (ih hd.next)
    all_goals cases l with
      | blank => simp [LineParts.content, LineContent.statements]
      | bad => simp [LineParts.content, LineContent.statements]
      | feature ps =>
        have hids := geometries_ids (fun i j h => (hd 0 i 0 j h).2) ps
        simp only [LineParts.content, LineContent.statements, items_statements]
        first
          | exact hids.1
          | exact hids.2

/-- New ids can be inserted. -/
theorem fits_items {c : CollectionId} {jobId : Option JobId} {now : Nat} {k : Catalog}
    {items : List Item} (hopen : k.Open c) (hids : (items.map Item.id).Nodup)
    (hnew : ∀ it ∈ items, ∀ r ∈ k.rowsOf c, r.id ≠ it.id) :
    Fits k (items.flatMap (Item.rows c jobId now)) := by
  have hrow : ∀ it : Item, ∀ r ∈ it.rows c jobId now, r.id = it.id ∧ r.collectionId = c := by
    intro it r hr
    obtain ⟨i, _, rfl⟩ := List.mem_mapIdx.mp hr
    exact ⟨rfl, rfl⟩
  refine Catalog.insertFeatures_open hopen (fun r hr => ?_) ?_
  · obtain ⟨it, _, hr⟩ := List.mem_flatMap.mp hr
    exact (hrow it r hr).2
  · rw [List.map_append, List.nodup_append]
    refine ⟨k.rowsOf_keys c, ?_, fun a ha b hb he => ?_⟩
    · rw [List.map_flatMap, List.nodup_flatMap]
      refine ⟨fun it _ => ?_, (List.pairwise_map.mp hids).imp fun {it it'} hne => ?_⟩
      · refine List.Nodup.of_map (fun key => key.2.2) ?_
        have hparts : ((it.rows c jobId now).map Row.key).map (fun key => key.2.2) =
            List.range it.geometries.length :=
          List.ext_getElem (by simp [Item.rows]) fun i h1 h2 => by simp [Item.rows, Row.key]
        rw [hparts]
        exact List.nodup_range
      · intro a ha hb
        obtain ⟨r, hr, rfl⟩ := List.mem_map.mp ha
        obtain ⟨r', hr', he⟩ := List.mem_map.mp hb
        have : r'.id = r.id := congrArg (·.1) he
        rw [(hrow it r hr).1, (hrow it' r' hr').1] at this
        exact hne this.symm
    · obtain ⟨r, hr, rfl⟩ := List.mem_map.mp ha
      obtain ⟨r', hr', rfl⟩ := List.mem_map.mp hb
      obtain ⟨it, hit, hr'⟩ := List.mem_flatMap.mp hr'
      have : r.id = r'.id := congrArg (·.1) he
      exact hnew it hit r hr (this.trans (hrow it r' hr').1)

end Import
end Geofastmap
