import Mathlib.Data.Prod.Lex
import Mathlib.Order.WithBot
import Geofastmap.Db.Table
import Geofastmap.Import.Json
import Geofastmap.Paging.Arrange
import Geofastmap.Paging.Groups

/-!
# Geofastmap.Process.Dissolve

The union process: the rows of a collection are read page by page, each page is united by group
in a scratch table, and the groups of the page are merged into the accumulator table. The union
of geometries is the join of a semilattice; `NULL`, which `ST_Collect` leaves out, is the bottom
of `WithBot`.

`union_dissolves`: however the pages cut the groups, the accumulator ends with one row for each
group and the union of all its geometries.
-/

namespace Geofastmap
namespace Process

open Db Import Paging

/-- PostGIS, the driver and Python's `str` as far as the union process uses them. Ids sort by
`collate`. -/
structure UnionEnv (G κ : Type) where
  collate : Text → κ
  collate_injective : Function.Injective collate
  /-- The `properties` column as Python receives it. -/
  properties : Text → Option (List (Text × Json))
  /-- `str(v)`. -/
  str : Json → Text
  /-- `ST_AsBinary(geometry)`. -/
  asBinary : Text → Text
  asBinary_ne_nil : ∀ geometry, asBinary geometry ≠ []
  /-- `ST_GeomFromWKB(bytes, 4326)`. -/
  geomFromWkb : Text → G

structure UnionPayload where
  collectionIdA : CollectionId
  featureIds : Option (List Text)
  groupByProperty : Option Text

variable {G κ : Type} (env : UnionEnv G κ)
variable (payload : UnionPayload)

/-- The `WHERE` clause; an empty list of ids is no list. -/
def UnionPayload.selects (r : Row) : Bool :=
  r.collectionId == payload.collectionIdA && r.geometry.isSome &&
    match payload.featureIds with
    | none => true
    | some [] => true
    | some ids => ids.contains r.id

/-- The group of a row with these properties. -/
def gval (props : List (Text × Json)) : Text :=
  match payload.groupByProperty with
  | none => "_all".toList
  | some [] => "_all".toList
  | some key =>
    match Json.get props key with
    | .null => []
    | v => env.str v

/-- The row that a row of the collection adds to the scratch table. -/
def batchTmpRow (r : Row) : Option (Text × WithBot G) :=
  match r.geometry with
  | none => none
  | some geometry =>
    let gbytes := env.asBinary geometry
    if gbytes.isEmpty then none
    else some (gval env payload ((env.properties r.properties).getD []), env.geomFromWkb gbytes)

/-- A row's group and its geometry. -/
def grouped (r : Row) : Text × WithBot G :=
  (gval env payload ((env.properties r.properties).getD []),
    match r.geometry with
    | none => ⊥
    | some geometry => env.geomFromWkb (env.asBinary geometry))

theorem batchTmpRow_eq {r : Row} (h : payload.selects r = true) :
    batchTmpRow env payload r = some (grouped env payload r) := by
  obtain ⟨geometry, hg⟩ : ∃ geometry, r.geometry = some geometry := by
    simp only [UnionPayload.selects, Bool.and_eq_true] at h
    exact Option.isSome_iff_exists.mp h.1.2
  have hne := env.asBinary_ne_nil geometry
  simp [batchTmpRow, grouped, hg, hne]

theorem filterMap_batchTmpRow {rows : List Row} (h : ∀ r ∈ rows, payload.selects r = true) :
    rows.filterMap (batchTmpRow env payload) = rows.map (grouped env payload) := by
  rw [← List.filterMap_eq_map]
  apply List.filterMap_congr
  intro r hr
  exact batchTmpRow_eq env payload (h r hr)

/-! ## The pages -/

variable [LinearOrder κ]

/-- `ORDER BY id, part_index`. -/
def byIdPart (a b : Row) : Bool :=
  decide (toLex (env.collate a.id, a.partIndex) ≤ toLex (env.collate b.id, b.partIndex))

theorem byIdPart_trans (a b c : Row) (hab : byIdPart env a b = true)
    (hbc : byIdPart env b c = true) : byIdPart env a c = true := by
  simp only [byIdPart, decide_eq_true_eq] at *
  exact hab.trans hbc

theorem byIdPart_total (a b : Row) : (byIdPart env a b || byIdPart env b a) = true := by
  simp only [byIdPart, Bool.or_eq_true, decide_eq_true_eq]
  exact le_total _ _

/-- Rows of one collection that sort equal have one primary key. -/
theorem key_eq_of_byIdPart {a b : Row} (hc : a.collectionId = b.collectionId)
    (hab : byIdPart env a b = true) (hba : byIdPart env b a = true) : a.key = b.key := by
  simp only [byIdPart, decide_eq_true_eq] at hab hba
  have he := toLex.injective (le_antisymm hab hba)
  obtain ⟨hid, hpart⟩ := Prod.mk.inj he
  simp [Row.key, hc, env.collate_injective hid, hpart]

/-- Every run of the statement sees one arrangement. -/
theorem arrange_selected (features : Table) (rank rank' : Row → Nat) :
    arrange (byIdPart env) rank (features.rows.filter payload.selects) =
      arrange (byIdPart env) rank' (features.rows.filter payload.selects) := by
  have harr := arrange_arranged (byIdPart_trans env) (byIdPart_total env) rank
    (features.rows.filter payload.selects)
  have harr' := arrange_arranged (byIdPart_trans env) (byIdPart_total env) rank'
    (features.rows.filter payload.selects)
  apply List.Perm.eq_of_pairwise _ harr.2 harr'.2 (harr.1.trans harr'.1.symm)
  intro a b ha hb hab hba
  obtain ⟨hain, hasel⟩ := List.mem_filter.mp (harr.1.mem_iff.mp ha)
  obtain ⟨hbin, hbsel⟩ := List.mem_filter.mp (harr'.1.mem_iff.mp hb)
  have hc : a.collectionId = b.collectionId := by
    simp only [UnionPayload.selects, Bool.and_eq_true, beq_iff_eq] at hasel hbsel
    rw [hasel.1.1, hbsel.1.1]
  exact List.inj_on_of_nodup_map features.pk hain hbin (key_eq_of_byIdPart env hc hab hba)

/-- `max(1, settings.process_union_batch_size)`. -/
def unionBatchSize (setting : Int) : Nat := (max 1 setting).toNat

theorem unionBatchSize_pos (setting : Int) : 0 < unionBatchSize setting := by
  unfold unionBatchSize
  omega

/-- The page at an offset. `rank offset` is how this run of the statement arranges rows that its
`ORDER BY` leaves equal. -/
def unionPage (rank : Nat → Row → Nat) (selected : List Row) (size offset : Nat) : List Row :=
  window offset size (arrange (byIdPart env) (rank offset) selected)

theorem lt_length_of_unionPage {rank : Nat → Row → Nat} {selected : List Row} {size offset : Nat}
    (h : unionPage env rank selected size offset ≠ []) : offset < selected.length := by
  by_contra hlt
  apply h
  apply window_of_length_le
  rw [(arrange_perm _ _).length_eq]
  omega

/-! ## The loop -/

variable [SemilatticeSup G]

/-- The loop over the pages; `acc` is the accumulator table. -/
def unionFrom (rank : Nat → Row → Nat) (setting : Int) (selected : List Row) (offset : Nat)
    (acc : List (Text × WithBot G)) : List (Text × WithBot G) :=
  let size := unionBatchSize setting
  let rowsBatch := unionPage env rank selected size offset
  if _h : rowsBatch = [] then acc
  else
    let batchTmp := rowsBatch.filterMap (batchTmpRow env payload)
    if batchTmp.isEmpty then
      if rowsBatch.length < size then acc
      else unionFrom rank setting selected (offset + size) acc
    else
      let acc' := upsert acc (aggregate batchTmp)
      if rowsBatch.length < size then acc'
      else unionFrom rank setting selected (offset + size) acc'
termination_by selected.length - offset
decreasing_by
  all_goals
    have := lt_length_of_unionPage env _h
    have := unionBatchSize_pos setting
    omega

/-- The accumulator when the loop ends. -/
def processUnion (features : Table) (rank : Nat → Row → Nat) (setting : Int) :
    List (Text × WithBot G) :=
  unionFrom env payload rank setting (features.rows.filter payload.selects) 0 []

/-- From any offset, the loop completes the aggregates of the rows before it. -/
theorem unionFrom_aggregates (rank : Nat → Row → Nat) (setting : Int) (selected l : List Row)
    (hsel : ∀ r ∈ l, payload.selects r = true)
    (hl : ∀ o, arrange (byIdPart env) (rank o) selected = l) (offset : Nat)
    (acc : List (Text × WithBot G))
    (hacc : Aggregates acc ((l.take offset).map (grouped env payload))) :
    Aggregates (unionFrom env payload rank setting selected offset acc)
      (l.map (grouped env payload)) := by
  have hsize := unionBatchSize_pos setting
  have hpage : ∀ o, unionPage env rank selected (unionBatchSize setting) o =
      window o (unionBatchSize setting) l := fun o => by rw [unionPage, hl]
  induction hn : l.length - offset using Nat.strong_induction_on generalizing offset acc with
  | _ n ih =>
    have hdone : (window offset (unionBatchSize setting) l).length < unionBatchSize setting →
        l.take (offset + unionBatchSize setting) = l := by
      intro hshort
      rw [length_window] at hshort
      exact List.take_of_length_le (by omega)
    have htmp : (window offset (unionBatchSize setting) l).filterMap (batchTmpRow env payload) =
        (window offset (unionBatchSize setting) l).map (grouped env payload) :=
      filterMap_batchTmpRow env payload fun r hr => hsel r ((window_sublist _ _ _).subset hr)
    unfold unionFrom
    simp only [hpage, htmp]
    by_cases hnil : window offset (unionBatchSize setting) l = []
    · have hall : l.take offset = l := by
        have hlen := length_window offset (unionBatchSize setting) l
        rw [hnil] at hlen
        apply List.take_of_length_le
        simp only [List.length_nil] at hlen
        omega
      rw [dif_pos hnil]
      rw [hall] at hacc
      exact hacc
    · have hne : ((window offset (unionBatchSize setting) l).map
          (grouped env payload)).isEmpty = false := by simpa using hnil
      have hstep : Aggregates
          (upsert acc (aggregate ((window offset (unionBatchSize setting) l).map
            (grouped env payload))))
          ((l.take (offset + unionBatchSize setting)).map (grouped env payload)) := by
        rw [take_add_window, List.map_append]
        exact hacc.upsert (Aggregates.of_aggregate _)
      have hlt : offset < l.length := by
        by_contra hge
        exact hnil (window_of_length_le (by omega))
      rw [dif_neg hnil, hne]
      simp only [Bool.false_eq_true, if_false]
      split
      next hshort =>
        rw [hdone hshort] at hstep
        exact hstep
      next hfull => exact ih _ (by omega) _ _ hstep rfl

/-- The accumulator holds the aggregates of the selected rows. -/
theorem processUnion_aggregates (features : Table) (rank : Nat → Row → Nat) (setting : Int) :
    Aggregates (processUnion env payload features rank setting)
      ((features.rows.filter payload.selects).map (grouped env payload)) := by
  have hperm : (arrange (byIdPart env) (rank 0) (features.rows.filter payload.selects)).Perm
      (features.rows.filter payload.selects) := arrange_perm _ _
  have hrun := unionFrom_aggregates env payload rank setting
    (features.rows.filter payload.selects) _
    (fun r hr => (List.mem_filter.mp (hperm.mem_iff.mp hr)).2)
    (fun o => arrange_selected env payload features (rank o) (rank 0)) 0 [] (by
      simpa using Aggregates.nil)
  exact hrun.perm (hperm.map _)

/-! ## What the request asks for -/

/-- The rows whose geometries are to be united. -/
structure Selected (r : Row) : Prop where
  source : r.collectionId = payload.collectionIdA
  geometry : r.geometry ≠ none
  ids : ∀ ids, payload.featureIds = some ids → ids ≠ [] → r.id ∈ ids

/-- `v` is the group of a row with these properties: one group for all without a property, the
text of the property with one, which is empty where the row lacks it or holds null. -/
inductive GroupOf (props : List (Text × Json)) (v : Text) : Prop
  | all (hname : payload.groupByProperty.getD [] = []) (hv : v = "_all".toList)
  | missing (key : Text) (hname : payload.groupByProperty = some key) (hkey : key ≠ [])
      (hprops : ∀ x, (key, x) ∉ props) (hv : v = [])
  | null (key : Text) (hname : payload.groupByProperty = some key) (hkey : key ≠ [])
      (hprops : props.lookup key = some .null) (hv : v = [])
  | text (key : Text) (x : Json) (hname : payload.groupByProperty = some key) (hkey : key ≠ [])
      (hprops : props.lookup key = some x) (hx : x ≠ .null) (hv : v = env.str x)

/-- The geometries of the selected rows of a group. -/
def groupGeometries (features : Table) (v : Text) : Set (WithBot G) :=
  {g | ∃ r ∈ features.rows, Selected payload r ∧
    GroupOf env payload ((env.properties r.properties).getD []) v ∧
    ∃ geometry, r.geometry = some geometry ∧ g = env.geomFromWkb (env.asBinary geometry)}

omit [LinearOrder κ] [SemilatticeSup G] in
theorem selects_iff (r : Row) : payload.selects r = true ↔ Selected payload r := by
  rw [UnionPayload.selects, Bool.and_eq_true, Bool.and_eq_true, beq_iff_eq,
    Option.isSome_iff_ne_none]
  constructor
  · rintro ⟨⟨hsource, hgeometry⟩, hids⟩
    refine ⟨hsource, hgeometry, fun ids hpayload hne => ?_⟩
    rw [hpayload] at hids
    cases ids with
    | nil => exact absurd rfl hne
    | cons i is => exact List.contains_iff_mem.mp hids
  · rintro ⟨hsource, hgeometry, hids⟩
    refine ⟨⟨hsource, hgeometry⟩, ?_⟩
    cases hpayload : payload.featureIds with
    | none => rfl
    | some ids =>
      cases ids with
      | nil => rfl
      | cons i is => exact List.contains_iff_mem.mpr (hids _ hpayload (List.cons_ne_nil i is))

omit [LinearOrder κ] [SemilatticeSup G] in
theorem groupOf_iff (props : List (Text × Json)) (v : Text) :
    GroupOf env payload props v ↔ gval env payload props = v := by
  unfold gval
  constructor
  · rintro (⟨hname, rfl⟩ | ⟨key, hname, hkey, hprops, rfl⟩ | ⟨key, hname, hkey, hprops, rfl⟩ |
      ⟨key, x, hname, hkey, hprops, hx, rfl⟩)
    · cases hp : payload.groupByProperty with
      | none => rfl
      | some name =>
        rw [hp] at hname
        cases hname
        rfl
    · have hnone : props.lookup key = none := by
        rw [List.lookup_eq_none_iff]
        rintro ⟨k, x⟩ hmem
        rw [bne_iff_ne]
        rintro rfl
        exact hprops x hmem
      rw [hname]
      cases key with
      | nil => exact absurd rfl hkey
      | cons c cs => simp [Json.get, hnone]
    · rw [hname]
      cases key with
      | nil => exact absurd rfl hkey
      | cons c cs => simp [Json.get, hprops]
    · rw [hname]
      cases key with
      | nil => exact absurd rfl hkey
      | cons c cs =>
        simp only [Json.get, hprops, Option.getD_some]
  · rintro rfl
    split
    next hname => exact .all (by rw [hname]; rfl) rfl
    next hname => exact .all (by rw [hname]; rfl) rfl
    next key hkey hname =>
      cases hlookup : props.lookup key with
      | none =>
        refine .missing key hname hkey (fun x hmem => ?_) (by simp [Json.get, hlookup])
        have hne := List.lookup_eq_none_iff.mp hlookup _ hmem
        simp at hne
      | some x =>
        by_cases hx : x = .null
        · subst hx
          exact .null key hname hkey hlookup (by simp [Json.get, hlookup])
        · exact .text key x hname hkey hlookup hx (by simp only [Json.get, hlookup, Option.getD_some])

theorem union_dissolves (features : Table) (rank : Nat → Row → Nat) (setting : Int) :
    let acc := processUnion env payload features rank setting
    (acc.map Prod.fst).Nodup ∧
    ∀ v g, (v, g) ∈ acc ↔
      (groupGeometries env payload features v).Nonempty ∧
        IsLUB (groupGeometries env payload features v) g := by
  intro acc
  have hacc := processUnion_aggregates env payload features rank setting
  refine ⟨hacc.nodup, fun v g => ?_⟩
  have hset : {g | (v, g) ∈ (features.rows.filter payload.selects).map (grouped env payload)} =
      groupGeometries env payload features v := by
    ext g
    simp only [Set.mem_ofPred_eq, List.mem_map, List.mem_filter, grouped, Prod.mk.injEq,
      groupGeometries, selects_iff, groupOf_iff]
    constructor
    · rintro ⟨r, ⟨hr, hsel⟩, hgroup, rfl⟩
      obtain ⟨geometry, hg⟩ := Option.ne_none_iff_exists'.mp hsel.geometry
      exact ⟨r, hr, hsel, hgroup, geometry, hg, by rw [hg]⟩
    · rintro ⟨r, hr, hsel, hgroup, geometry, hg, rfl⟩
      exact ⟨r, ⟨hr, hsel⟩, hgroup, by rw [hg]⟩
  have htotal := isLUB_total ((features.rows.filter payload.selects).map (grouped env payload)) v
  rw [hset] at htotal
  rw [hacc.mem_iff, ← hset]
  refine and_congr ?_ ⟨?_, ?_⟩
  · simp only [List.mem_map, Prod.exists, exists_and_right, exists_eq_right, Set.Nonempty,
      Set.mem_ofPred_eq]
  · rintro rfl
    rw [hset]
    exact htotal
  · intro hg
    rw [hset] at hg
    exact hg.unique htotal

end Process
end Geofastmap
