import Geofastmap.Import.Inserts
import Geofastmap.Import.Readers

/-!
# Geofastmap.Import.Buffer

`FeatureInsertBuffer` of `feature_subdivide.py`, with a session in which the statements are
executed.

`Inserted` : what the rows of a feature are. `run_spec` : any calls have executed the rows of the
features that were added and are not pending any more.
-/

namespace Geofastmap
namespace Inserts

open Db Import

/-! ## The rows of a statement -/

section
variable (D : Postgis)

/-- `CAST(:props AS jsonb)`; `NULL` is the empty text. -/
def propsValue : Option Text → Except Raised Text
  | none => .ok []
  | some text => (D.jsonb text).map Subtype.val

def missingParameter : Raised :=
  ("StatementError".toList, "A value is required for bind parameter".toList)

/-- The geometry of a row of `VALUES`. -/
def boundGeometry : Option Text → Except Raised Text
  | none => .error missingParameter
  | some wkt => D.force2d wkt

/-- The row with an index and a geometry. -/
def Params.row (p : Params) (properties : Text) (partIndex : Nat) (geometry : Option Text) : Row :=
  { id := p.id, collectionId := p.cid, partIndex := partIndex, geometry := geometry
    properties := properties, bulkImportJobId := p.bulkJid, createdAt := p.now, updatedAt := p.now }

/-- `session.execute(text(sql), params)`: the rows it inserts. -/
def Insert.rows : Insert → Except Raised (List Row)
  | .values p wkts rows => do
    let properties ← propsValue D p.props
    (boundRows wkts rows).mapM fun entry => do
      let g ← boundGeometry D entry.2
      return p.row properties entry.1 (some g)
  | .null p => do
    let properties ← propsValue D p.props
    return [p.row properties 0 none]
  | .subdivide p wkt maxVertices => do
    let properties ← propsValue D p.props
    let parts ← D.subdivide wkt maxVertices
    return parts.1.zipIdx.map fun part => p.row properties part.2 (some part.1)

/-- Statements, one after the other, in a session that has inserted rows. -/
def executeAll : List Insert → List Row → Except Raised (List Row)
  | [], session => .ok session
  | ins :: rest, session => do
    let rows ← ins.rows D
    executeAll rest (session ++ rows)

end

/-! ## The buffer -/

/-- `PendingFeatureInsert`. -/
structure PendingFeatureInsert where
  featureId : Text
  wkt : Option Text
  properties : List (Text × Json)
  wktList : Option (List Text)

/-- `FeatureInsertBuffer`. -/
structure FeatureInsertBuffer where
  collectionId : CollectionId
  now : Nat
  maxVertices : Nat
  bulkImportJobId : Option Text
  insertPartsBatchSize : Nat
  pending : List PendingFeatureInsert

namespace FeatureInsertBuffer

/-- `add`. -/
def add (b : FeatureInsertBuffer) (item : PendingFeatureInsert) : FeatureInsertBuffer :=
  { b with pending := b.pending ++ [item] }

def clear (b : FeatureInsertBuffer) : FeatureInsertBuffer := { b with pending := [] }

def params (b : FeatureInsertBuffer) (item : PendingFeatureInsert) : Params :=
  Inserts.params item.featureId b.collectionId item.properties b.now b.bulkImportJobId

/-- The statements of `flush` for a feature. -/
def statements (b : FeatureInsertBuffer) (item : PendingFeatureInsert) : List Insert :=
  match item.wktList with
  | some (wkt :: wkts) =>
    insertFeaturePartsBatched (b.params item) (wkt :: wkts) b.insertPartsBatchSize
  | some [] | none => [insertFeatureSubdividedSql (b.params item) item.wkt b.maxVertices]

variable (D : Postgis)

/-- The loop of `flush`. -/
def flushItems (b : FeatureInsertBuffer) :
    List PendingFeatureInsert → List Row → Except Raised (List Row)
  | [], session => .ok session
  | item :: items, session => do
    let session ← executeAll D (b.statements item) session
    flushItems b items session

/-- `flush`, with the number it returns. -/
def flush (b : FeatureInsertBuffer) (session : List Row) :
    Except Raised (FeatureInsertBuffer × List Row × Nat) :=
  if b.pending.isEmpty then .ok (b, session, 0)
  else do
    let session ← b.flushItems D b.pending session
    return (b.clear, session, b.pending.length)

end FeatureInsertBuffer

inductive Call where
  | add (item : PendingFeatureInsert)
  | flush

/-- Calls on a buffer; an exception ends the import and its transaction. -/
def run (D : Postgis) : List Call → FeatureInsertBuffer → List Row →
    Except Raised (FeatureInsertBuffer × List Row)
  | [], b, session => .ok (b, session)
  | .add item :: calls, b, session => run D calls (b.add item) session
  | .flush :: calls, b, session => do
    let (b, session, _) ← b.flush D session
    run D calls b session

/-- The features that calls add. -/
def added : List Call → List PendingFeatureInsert
  | [] => []
  | .add item :: calls => item :: added calls
  | .flush :: calls => added calls

/-! ## What a feature asks for -/

section
variable (D : Postgis) (b : FeatureInsertBuffer)

/-- A text and a row with its geometry. -/
def Converted (wkt : Text) (r : Row) : Prop := ∃ g, D.force2d wkt = .ok g ∧ r.geometry = some g

/-- The geometries of the rows of a feature: the parts that are not empty, or else the parts that
the database makes, of which an empty geometry has one. -/
def Geometries (item : PendingFeatureInsert) (rows : List Row) : Prop :=
  match item.wktList with
  | some (wkt :: wkts) => List.Forall₂ (Converted D) (nonEmpty (wkt :: wkts)) rows
  | some [] | none =>
    match item.wkt with
    | none => rows.map Row.geometry = [none]
    | some wkt =>
      if isEmptyOrNullWkt (some wkt) then rows.map Row.geometry = [none]
      else ∃ parts, D.subdivide wkt b.maxVertices = .ok parts ∧
        rows.map Row.geometry = parts.1.map some

/-- The rows of a feature. -/
structure Inserted (item : PendingFeatureInsert) (rows : List Row) : Prop where
  columns : ∀ r ∈ rows, ∃ properties, propsValue D (b.params item).props = .ok properties ∧
    r = (b.params item).row properties r.partIndex r.geometry
  increasing : (rows.map Row.partIndex).Pairwise (· < ·)
  geometries : Geometries D b item rows

/-- The database takes the properties and the texts of a feature. -/
def Accepted (item : PendingFeatureInsert) : Prop :=
  (∃ properties, propsValue D (b.params item).props = .ok properties) ∧
    match item.wktList with
    | some (wkt :: wkts) => ∀ text ∈ nonEmpty (wkt :: wkts), ∃ g, D.force2d text = .ok g
    | some [] | none => ∀ wkt ∈ item.wkt, isEmptyOrNullWkt (some wkt) = false →
        ∃ parts, D.subdivide wkt b.maxVertices = .ok parts

end

/-! ## Statements in order -/

theorem mapM_ok_iff {α β ε : Type} {f : α → Except ε β} {xs : List α} {ys : List β} :
    xs.mapM f = .ok ys ↔ List.Forall₂ (fun x y => f x = .ok y) xs ys := by
  induction xs generalizing ys with
  | nil =>
    rw [List.mapM_nil, List.forall₂_nil_left_iff]
    constructor
    · rintro ⟨⟩
      rfl
    · rintro rfl
      rfl
  | cons x xs ih =>
    rw [List.mapM_cons, Catalog.bind_eq_ok, List.forall₂_cons_left_iff]
    constructor
    · rintro ⟨y, hy, h⟩
      obtain ⟨zs, hzs, h⟩ := Catalog.bind_eq_ok.mp h
      cases h
      exact ⟨y, zs, hy, ih.mp hzs, rfl⟩
    · rintro ⟨y, zs, hy, hzs, rfl⟩
      exact ⟨y, hy, Catalog.bind_eq_ok.mpr ⟨zs, ih.mpr hzs, rfl⟩⟩

theorem exists_of_mem_right {α β : Type} {R : α → β → Prop} {xs : List α} {ys : List β}
    (h : List.Forall₂ R xs ys) {y : β} (hy : y ∈ ys) : ∃ x ∈ xs, R x y := by
  induction h with
  | nil => cases hy
  | cons hxy _ ih =>
    rcases List.mem_cons.mp hy with rfl | hy
    · exact ⟨_, List.mem_cons_self, hxy⟩
    · obtain ⟨x, hx, hR⟩ := ih hy
      exact ⟨x, List.mem_cons_of_mem _ hx, hR⟩

section
variable {D : Postgis} {b : FeatureInsertBuffer} {p : Params}

/-- A row of `VALUES` with its text, as it is inserted. -/
def BoundRow (D : Postgis) (p : Params) (entry : Nat × Option Text) (r : Row) : Prop :=
  ∃ properties wkt g, propsValue D p.props = .ok properties ∧ entry.2 = some wkt ∧
    D.force2d wkt = .ok g ∧ r = p.row properties entry.1 (some g)

theorem values_rows {wkts : List (Text × Text)} {rows : List (Nat × Text)} {out : List Row}
    (h : (Insert.values p wkts rows).rows D = .ok out) :
    List.Forall₂ (BoundRow D p) (boundRows wkts rows) out := by
  obtain ⟨properties, hprops, h⟩ := Catalog.bind_eq_ok.mp h
  refine (mapM_ok_iff.mp h).imp fun entry r hr => ?_
  obtain ⟨g, hg, hr⟩ := Catalog.bind_eq_ok.mp hr
  cases hr
  cases hwkt : entry.2 with
  | none =>
    rw [hwkt] at hg
    cases hg
  | some wkt =>
    rw [hwkt] at hg
    exact ⟨properties, wkt, g, hprops, hwkt, hg, rfl⟩

theorem values_rows_ok {properties : Text} (hprops : propsValue D p.props = .ok properties)
    {wkts : List (Text × Text)} {rows : List (Nat × Text)}
    (h : ∀ entry ∈ boundRows wkts rows, ∃ wkt g, entry.2 = some wkt ∧ D.force2d wkt = .ok g) :
    ∃ out, (Insert.values p wkts rows).rows D = .ok out := by
  have hentries : ∀ entries : List (Nat × Option Text),
      (∀ entry ∈ entries, ∃ wkt g, entry.2 = some wkt ∧ D.force2d wkt = .ok g) →
        ∃ out, entries.mapM (fun entry => do
          let g ← boundGeometry D entry.2
          return p.row properties entry.1 (some g)) = Except.ok out := by
    intro entries
    induction entries with
    | nil => exact fun _ => ⟨[], rfl⟩
    | cons entry entries ih =>
      intro hall
      obtain ⟨wkt, g, hwkt, hg⟩ := hall entry List.mem_cons_self
      obtain ⟨out, hout⟩ := ih fun e he => hall e (List.mem_cons_of_mem _ he)
      refine ⟨p.row properties entry.1 (some g) :: out, mapM_ok_iff.mpr (.cons ?_ ?_)⟩
      · rw [hwkt]
        exact Catalog.bind_eq_ok.mpr ⟨g, hg, rfl⟩
      · exact mapM_ok_iff.mp hout
  obtain ⟨out, hout⟩ := hentries _ h
  exact ⟨out, Catalog.bind_eq_ok.mpr ⟨properties, hprops, hout⟩⟩

theorem executeAll_values {statements : List Insert} (hvalues : ∀ ins ∈ statements, IsValues p ins)
    {session out : List Row} (h : executeAll D statements session = .ok out) :
    ∃ rows, out = session ++ rows ∧
      List.Forall₂ (BoundRow D p) (statements.flatMap Insert.bound) rows := by
  induction statements generalizing session with
  | nil =>
    cases h
    exact ⟨[], by simp, .nil⟩
  | cons ins rest ih =>
    obtain ⟨rows, hrows, h⟩ := Catalog.bind_eq_ok.mp h
    obtain ⟨later, rfl, hlater⟩ := ih (fun i hi => hvalues i (List.mem_cons_of_mem _ hi)) h
    obtain ⟨wkts, values, rfl⟩ := hvalues ins List.mem_cons_self
    exact ⟨rows ++ later, List.append_assoc .., List.rel_append (values_rows hrows) hlater⟩

theorem executeAll_values_ok {properties : Text} (hprops : propsValue D p.props = .ok properties)
    {statements : List Insert} (hvalues : ∀ ins ∈ statements, IsValues p ins)
    (h : ∀ entry ∈ statements.flatMap Insert.bound, ∃ wkt g, entry.2 = some wkt ∧
      D.force2d wkt = .ok g) (session : List Row) :
    ∃ out, executeAll D statements session = .ok out := by
  induction statements generalizing session with
  | nil => exact ⟨session, rfl⟩
  | cons ins rest ih =>
    obtain ⟨wkts, values, rfl⟩ := hvalues ins List.mem_cons_self
    obtain ⟨rows, hrows⟩ := @values_rows_ok _ _ _ hprops wkts values fun entry he =>
      h entry (List.mem_append_left _ he)
    obtain ⟨out, hout⟩ := ih (fun i hi => hvalues i (List.mem_cons_of_mem _ hi))
      (fun entry he => h entry (List.mem_append_right _ he)) (session ++ rows)
    exact ⟨out, Catalog.bind_eq_ok.mpr ⟨rows, hrows, hout⟩⟩

/-! ## One feature -/

/-- The rows of a feature that comes in parts. -/
theorem inserted_parts {item : PendingFeatureInsert} {wkt : Text} {wkts : List Text}
    (hlist : item.wktList = some (wkt :: wkts)) (hbatch : 1 ≤ b.insertPartsBatchSize)
    {rows : List Row}
    (h : List.Forall₂ (BoundRow D (b.params item)) ((insertFeaturePartsBatched (b.params item)
      (wkt :: wkts) b.insertPartsBatchSize).flatMap Insert.bound) rows) :
    Inserted D b item rows := by
  obtain ⟨htexts, hindices⟩ := bound_batched (b.params item) (wkt :: wkts) hbatch
  revert htexts hindices h
  generalize (insertFeaturePartsBatched _ _ _).flatMap Insert.bound = entries
  intro h htexts hindices
  have hindex : rows.map Row.partIndex = entries.map Prod.fst := by
    clear htexts hindices
    induction h with
    | nil => rfl
    | cons hrow _ ih =>
      obtain ⟨properties, wkt, g, -, -, -, rfl⟩ := hrow
      rw [List.map_cons, List.map_cons, ih]
      rfl
  refine ⟨?_, hindex ▸ hindices, ?_⟩
  · intro r hr
    obtain ⟨entry, -, properties, _, g, hprops, -, -, rfl⟩ := exists_of_mem_right h hr
    exact ⟨properties, hprops, rfl⟩
  · rw [Geometries, hlist]
    have hmap : List.Forall₂ (fun text r => ∀ wkt ∈ text, Converted D wkt r)
        (entries.map Prod.snd) rows := by
      refine List.forall₂_map_left_iff.mpr (h.imp ?_)
      rintro entry r ⟨properties, text, g, -, htext, hg, rfl⟩ wkt hwkt
      rw [htext] at hwkt
      cases hwkt
      exact ⟨g, hg, rfl⟩
    rw [htexts, List.forall₂_map_left_iff] at hmap
    exact hmap.imp fun text r hr => hr text rfl

/-- The rows of a feature that the database cuts. -/
theorem inserted_subdivided {item : PendingFeatureInsert}
    (hlist : ∀ wkt wkts, item.wktList ≠ some (wkt :: wkts)) {rows : List Row}
    (h : (insertFeatureSubdividedSql (b.params item) item.wkt b.maxVertices).rows D = .ok rows) :
    Inserted D b item rows := by
  have hnull : (Insert.null (b.params item)).rows D = .ok rows →
      rows.map Row.geometry = [none] ∧ (∀ r ∈ rows, ∃ properties,
        propsValue D (b.params item).props = .ok properties ∧
          r = (b.params item).row properties r.partIndex r.geometry) ∧
        (rows.map Row.partIndex).Pairwise (· < ·) := by
    intro h
    obtain ⟨properties, hprops, h⟩ := Catalog.bind_eq_ok.mp h
    cases h
    refine ⟨rfl, fun r hr => ⟨properties, hprops, ?_⟩, List.pairwise_singleton ..⟩
    rw [List.mem_singleton.mp hr]
    rfl
  have hwhole : Geometries D b item rows ↔
      match item.wkt with
      | none => rows.map Row.geometry = [none]
      | some wkt =>
        if isEmptyOrNullWkt (some wkt) then rows.map Row.geometry = [none]
        else ∃ parts, D.subdivide wkt b.maxVertices = .ok parts ∧
          rows.map Row.geometry = parts.1.map some := by
    unfold Geometries
    split
    · rename_i heq
      exact absurd heq (hlist _ _)
    · exact Iff.rfl
    · exact Iff.rfl
  unfold insertFeatureSubdividedSql at h
  cases hwkt : item.wkt with
  | none =>
    rw [hwkt] at h hwhole
    obtain ⟨hg, hcols, hinc⟩ := hnull h
    exact ⟨hcols, hinc, hwhole.mpr hg⟩
  | some wkt =>
    rw [hwkt] at h hwhole
    dsimp only at h hwhole
    by_cases hempty : isEmptyOrNullWkt (some wkt) = true
    · rw [if_pos hempty] at h hwhole
      obtain ⟨hg, hcols, hinc⟩ := hnull h
      exact ⟨hcols, hinc, hwhole.mpr hg⟩
    · rw [if_neg hempty] at h hwhole
      obtain ⟨properties, hprops, h⟩ := Catalog.bind_eq_ok.mp h
      obtain ⟨parts, hparts, h⟩ := Catalog.bind_eq_ok.mp h
      cases h
      refine ⟨?_, ?_, hwhole.mpr ⟨parts, hparts, ?_⟩⟩
      · intro r hr
        obtain ⟨part, -, rfl⟩ := List.mem_map.mp hr
        exact ⟨properties, hprops, rfl⟩
      · have hindices : (parts.1.zipIdx.map fun part =>
            (b.params item).row properties part.2 (some part.1)).map Row.partIndex =
              List.range' 0 parts.1.length := by
          rw [List.map_map]
          exact List.zipIdx_map_snd ..
        rw [hindices]
        exact List.pairwise_lt_range'
      · rw [List.map_map]
        calc parts.1.zipIdx.map (fun part => some part.1)
            = (parts.1.zipIdx.map Prod.fst).map some := by rw [List.map_map]; rfl
          _ = parts.1.map some := by rw [List.zipIdx_map_fst]

theorem executeAll_item (hbatch : 1 ≤ b.insertPartsBatchSize) {item : PendingFeatureInsert}
    {session out : List Row} (h : executeAll D (b.statements item) session = .ok out) :
    ∃ rows, out = session ++ rows ∧ Inserted D b item rows := by
  have hone : ∀ ins, executeAll D [ins] session = .ok out →
      ∃ rows, ins.rows D = .ok rows ∧ out = session ++ rows := by
    intro ins h
    obtain ⟨rows, hrows, h⟩ := Catalog.bind_eq_ok.mp h
    cases h
    exact ⟨rows, hrows, rfl⟩
  unfold FeatureInsertBuffer.statements at h
  split at h
  · rename_i wkt wkts hlist
    obtain ⟨rows, rfl, hrows⟩ := executeAll_values isValues_batched h
    exact ⟨rows, rfl, inserted_parts hlist hbatch hrows⟩
  · rename_i hlist
    obtain ⟨rows, hrows, rfl⟩ := hone _ h
    exact ⟨rows, rfl, inserted_subdivided (by simp [hlist]) hrows⟩
  · rename_i hlist
    obtain ⟨rows, hrows, rfl⟩ := hone _ h
    exact ⟨rows, rfl, inserted_subdivided (by simp [hlist]) hrows⟩

/-- The statement of a feature that the database cuts returns. -/
theorem subdivided_ok {item : PendingFeatureInsert} {properties : Text}
    (hprops : propsValue D (b.params item).props = .ok properties)
    (h : ∀ wkt ∈ item.wkt, isEmptyOrNullWkt (some wkt) = false →
      ∃ parts, D.subdivide wkt b.maxVertices = .ok parts) (session : List Row) :
    ∃ out, executeAll D [insertFeatureSubdividedSql (b.params item) item.wkt b.maxVertices]
      session = .ok out := by
  have hrows : ∃ rows, (insertFeatureSubdividedSql (b.params item) item.wkt b.maxVertices).rows D =
      .ok rows := by
    unfold insertFeatureSubdividedSql
    cases hwkt : item.wkt with
    | none => exact ⟨_, Catalog.bind_eq_ok.mpr ⟨properties, hprops, rfl⟩⟩
    | some wkt =>
      dsimp only
      split
      · exact ⟨_, Catalog.bind_eq_ok.mpr ⟨properties, hprops, rfl⟩⟩
      · rename_i hfull
        obtain ⟨parts, hparts⟩ := h wkt hwkt (by simpa using hfull)
        exact ⟨_, Catalog.bind_eq_ok.mpr ⟨properties, hprops,
          Catalog.bind_eq_ok.mpr ⟨parts, hparts, rfl⟩⟩⟩
  obtain ⟨rows, hrows⟩ := hrows
  exact ⟨session ++ rows, Catalog.bind_eq_ok.mpr ⟨rows, hrows, rfl⟩⟩

theorem executeAll_item_ok (hbatch : 1 ≤ b.insertPartsBatchSize) {item : PendingFeatureInsert}
    (h : Accepted D b item) (session : List Row) :
    ∃ out, executeAll D (b.statements item) session = .ok out := by
  obtain ⟨⟨properties, hprops⟩, htexts⟩ := h
  unfold FeatureInsertBuffer.statements
  split
  · rename_i wkt wkts hlist
    rw [hlist] at htexts
    refine executeAll_values_ok hprops isValues_batched (fun entry hentry => ?_) session
    have htext : entry.2 ∈ (nonEmpty (wkt :: wkts)).map some := by
      rw [← (bound_batched (b.params item) (wkt :: wkts) hbatch).1]
      exact List.mem_map_of_mem hentry
    obtain ⟨text, htext, heq⟩ := List.mem_map.mp htext
    obtain ⟨g, hg⟩ := htexts text htext
    exact ⟨text, g, heq.symm, hg⟩
  · rename_i hlist
    rw [hlist] at htexts
    exact subdivided_ok hprops htexts session
  · rename_i hlist
    rw [hlist] at htexts
    exact subdivided_ok hprops htexts session

/-! ## All calls -/

theorem flushItems_spec (hbatch : 1 ≤ b.insertPartsBatchSize) {items : List PendingFeatureInsert}
    {session out : List Row} (h : b.flushItems D items session = .ok out) :
    ∃ rowss, List.Forall₂ (Inserted D b) items rowss ∧ out = session ++ rowss.flatten := by
  induction items generalizing session with
  | nil =>
    cases h
    exact ⟨[], .nil, by simp⟩
  | cons item items ih =>
    obtain ⟨_, hitem, h⟩ := Catalog.bind_eq_ok.mp h
    obtain ⟨rows, rfl, hrows⟩ := executeAll_item hbatch hitem
    obtain ⟨rowss, hrowss, rfl⟩ := ih h
    exact ⟨rows :: rowss, .cons hrows hrowss, by simp⟩

theorem flushItems_ok (hbatch : 1 ≤ b.insertPartsBatchSize) {items : List PendingFeatureInsert}
    (h : ∀ item ∈ items, Accepted D b item) (session : List Row) :
    ∃ out, b.flushItems D items session = .ok out := by
  induction items generalizing session with
  | nil => exact ⟨session, rfl⟩
  | cons item items ih =>
    obtain ⟨mid, hmid⟩ := executeAll_item_ok hbatch (h item List.mem_cons_self) session
    obtain ⟨out, hout⟩ := ih (fun i hi => h i (List.mem_cons_of_mem _ hi)) mid
    exact ⟨out, Catalog.bind_eq_ok.mpr ⟨mid, hmid, hout⟩⟩

/-- What is pending is inserted, each feature once, and the buffer is empty. -/
theorem flush_spec (hbatch : 1 ≤ b.insertPartsBatchSize) {b' : FeatureInsertBuffer}
    {session out : List Row} {n : Nat} (h : b.flush D session = .ok (b', out, n)) :
    b' = b.clear ∧ n = b.pending.length ∧
      ∃ rowss, List.Forall₂ (Inserted D b) b.pending rowss ∧ out = session ++ rowss.flatten := by
  unfold FeatureInsertBuffer.flush at h
  split at h
  · rename_i hnone
    have hpending : b.pending = [] := List.isEmpty_iff.mp hnone
    cases h
    refine ⟨?_, by rw [hpending]; rfl, [], hpending ▸ .nil, by simp⟩
    rw [FeatureInsertBuffer.clear, ← hpending]
  · obtain ⟨mid, hmid, h⟩ := Catalog.bind_eq_ok.mp h
    cases h
    exact ⟨rfl, rfl, flushItems_spec hbatch hmid⟩

theorem flush_ok (hbatch : 1 ≤ b.insertPartsBatchSize) (h : ∀ item ∈ b.pending, Accepted D b item)
    (session : List Row) : ∃ out n, b.flush D session = .ok (b.clear, out, n) := by
  unfold FeatureInsertBuffer.flush
  split
  · rename_i hnone
    have hpending : b.pending = [] := List.isEmpty_iff.mp hnone
    refine ⟨session, 0, ?_⟩
    rw [FeatureInsertBuffer.clear, ← hpending]
  · obtain ⟨out, hout⟩ := flushItems_ok hbatch h session
    exact ⟨out, _, Catalog.bind_eq_ok.mpr ⟨out, hout, rfl⟩⟩

theorem inserted_pending {items : List PendingFeatureInsert} {item : PendingFeatureInsert}
    {rows : List Row} :
    Inserted D { b with pending := items } item rows ↔ Inserted D b item rows :=
  ⟨fun h => ⟨h.columns, h.increasing, h.geometries⟩,
    fun h => ⟨h.columns, h.increasing, h.geometries⟩⟩

/-- The rows that calls have executed are those of the features that are added and no longer
pending. -/
theorem run_spec (hbatch : 1 ≤ b.insertPartsBatchSize) {calls : List Call}
    {b' : FeatureInsertBuffer} {session out : List Row}
    (h : run D calls b session = .ok (b', out)) :
    ∃ done rowss, List.Forall₂ (Inserted D b) done rowss ∧ out = session ++ rowss.flatten ∧
      b.pending ++ added calls = done ++ b'.pending ∧ b' = { b with pending := b'.pending } := by
  induction calls generalizing b session with
  | nil =>
    cases h
    exact ⟨[], [], .nil, by simp, by simp [added], rfl⟩
  | cons call calls ih =>
    cases call with
    | add item =>
      obtain ⟨done, rowss, hrowss, rfl, hpending, hb'⟩ := ih (b := b.add item) hbatch h
      refine ⟨done, rowss, hrowss.imp fun _ _ => inserted_pending.mp, rfl, ?_, hb'⟩
      rw [← hpending, added, FeatureInsertBuffer.add]
      simp
    | flush =>
      obtain ⟨⟨_, mid, n⟩, hflush, h⟩ := Catalog.bind_eq_ok.mp h
      obtain ⟨rfl, -, first, hfirst, rfl⟩ := flush_spec hbatch hflush
      obtain ⟨done, rowss, hrowss, rfl, hpending, hb'⟩ := ih (b := b.clear) hbatch h
      refine ⟨b.pending ++ done, first ++ rowss,
        List.rel_append hfirst (hrowss.imp fun _ _ => inserted_pending.mp), by simp, ?_, hb'⟩
      rw [List.append_assoc, ← hpending]
      rfl

theorem run_ok (hbatch : 1 ≤ b.insertPartsBatchSize) {calls : List Call}
    (h : ∀ item ∈ b.pending ++ added calls, Accepted D b item) (session : List Row) :
    ∃ b' out, run D calls b session = .ok (b', out) := by
  induction calls generalizing b session with
  | nil => exact ⟨b, session, rfl⟩
  | cons call calls ih =>
    cases call with
    | add item =>
      refine ih (b := b.add item) hbatch (fun i hi => ?_) session
      exact h i (by simpa [added, FeatureInsertBuffer.add] using hi)
    | flush =>
      obtain ⟨mid, n, hflush⟩ := flush_ok hbatch
        (fun i hi => h i (List.mem_append_left _ hi)) session
      obtain ⟨b', out, hout⟩ := ih (b := b.clear) hbatch
        (fun i hi => h i (List.mem_append_right _ hi)) mid
      exact ⟨b', out, Catalog.bind_eq_ok.mpr ⟨(b.clear, mid, n), hflush, hout⟩⟩

theorem run_append (calls more : List Call) (b : FeatureInsertBuffer) (session : List Row) :
    run D (calls ++ more) b session =
      (run D calls b session >>= fun (b, session) => run D more b session) := by
  induction calls generalizing b session with
  | nil => rfl
  | cons call calls ih =>
    cases call with
    | add item => exact ih (b.add item) session
    | flush =>
      rw [List.cons_append, run, run, bind_assoc]
      refine congrArg _ (funext fun ⟨b, session, _⟩ => ih b session)

theorem pending_after_flush (hbatch : 1 ≤ b.insertPartsBatchSize) {calls : List Call}
    {b' : FeatureInsertBuffer} {session out : List Row}
    (h : run D (calls ++ [.flush]) b session = .ok (b', out)) : b'.pending = [] := by
  rw [run_append] at h
  obtain ⟨⟨b₁, before⟩, hcalls, h⟩ := Catalog.bind_eq_ok.mp h
  obtain ⟨-, -, -, -, -, hb₁⟩ := run_spec hbatch hcalls
  obtain ⟨⟨b₂, _, n⟩, hflush, h⟩ := Catalog.bind_eq_ok.mp h
  obtain ⟨rfl, -⟩ := flush_spec (by rw [hb₁]; exact hbatch) hflush
  cases h
  rfl

theorem run_adds (later : List PendingFeatureInsert) (b : FeatureInsertBuffer)
    (session : List Row) : run D (later.map .add) b session =
      .ok ({ b with pending := b.pending ++ later }, session) := by
  induction later generalizing b with
  | nil => simp [run]
  | cons item later ih =>
    rw [List.map_cons, run, ih]
    simp [FeatureInsertBuffer.add]

theorem added_append (calls more : List Call) :
    added (calls ++ more) = added calls ++ added more := by
  induction calls with
  | nil => rfl
  | cons call calls ih =>
    cases call with
    | add item => exact congrArg (item :: ·) ih
    | flush => exact ih

/-- Rows of features with different ids are apart. -/
theorem nodup_keys {items : List PendingFeatureInsert} {rowss : List (List Row)}
    (h : List.Forall₂ (Inserted D b) items rowss)
    (hids : (items.map PendingFeatureInsert.featureId).Nodup) :
    (rowss.flatten.map fun r => (r.id, r.partIndex)).Nodup := by
  have hid : ∀ {item rows}, Inserted D b item rows → ∀ r ∈ rows, r.id = item.featureId := by
    intro item rows hrows r hr
    obtain ⟨properties, -, heq⟩ := hrows.columns r hr
    exact congrArg Row.id heq
  induction h with
  | nil => exact List.nodup_nil
  | @cons item rows items rowss hrows hrest ih =>
    rw [List.map_cons, List.nodup_cons] at hids
    rw [List.flatten_cons, List.map_append, List.nodup_append]
    refine ⟨?_, ih hids.2, ?_⟩
    · have hindices : (rows.map Row.partIndex).Nodup := hrows.increasing.imp Nat.ne_of_lt
      refine List.Nodup.of_map Prod.snd ?_
      rw [List.map_map]
      exact hindices
    · intro key hkey other hother heq
      obtain ⟨r, hr, rfl⟩ := List.mem_map.mp hkey
      obtain ⟨r', hr', rfl⟩ := List.mem_map.mp hother
      obtain ⟨rows', hrows', hr'⟩ := List.mem_flatten.mp hr'
      obtain ⟨item', hitem', hins⟩ := exists_of_mem_right hrest hrows'
      refine hids.1 (List.mem_map.mpr ⟨item', hitem', ?_⟩)
      rw [← hid hins r' hr', ← hid hrows r hr]
      exact (congrArg Prod.fst heq).symm

end

/-- A buffer with batches of two parts. -/
def smallBuffer : FeatureInsertBuffer := ⟨"c".toList, 0, 256, none, 2, []⟩

/-- A feature of three parts with an empty one, and a feature without a geometry. -/
def twoAdds : List Call :=
  [.add ⟨"a".toList, none, [], some ["POINT (0 0)".toList, "POINT EMPTY".toList,
      "POINT (1 1)".toList]⟩,
    .add ⟨"b".toList, none, [], none⟩]

theorem accepted_twoAdds : ∀ item ∈ added twoAdds, Accepted plainPostgis smallBuffer item := by
  intro item hitem
  rcases List.mem_cons.mp hitem with rfl | hitem
  · exact ⟨⟨[], rfl⟩, fun text _ => ⟨text, rfl⟩⟩
  · rw [List.mem_singleton.mp hitem]
    exact ⟨⟨[], rfl⟩, by rintro _ ⟨⟩⟩

end Inserts
end Geofastmap
