import Mathlib.Data.List.ReduceOption
import Geofastmap.Sql.Text

/-!
# Geofastmap.Db.Table

A stored table. Its heap is a list of slots; the position of a slot is the `ctid` of its row, so
row ids are unique inside one table and mean nothing across tables. A deleted row leaves its slot
empty. The primary key `(id, collection_id, part_index)` is part of the type: a table with two
rows of one key cannot be built.
-/

namespace Geofastmap
namespace Db

abbrev RelName := Text
abbrev CollectionId := Text

/-- A row of `features`, or of a table with its columns. Times count microseconds. -/
structure Row where
  id : Text
  collectionId : CollectionId
  partIndex : Nat
  geometry : Option Text
  properties : Text
  bulkImportJobId : Option Text
  createdAt : Nat
  updatedAt : Nat
deriving DecidableEq, Repr

def Row.key (r : Row) : Text × CollectionId × Nat := (r.id, r.collectionId, r.partIndex)

/-- A partition bound of `features`: `DEFAULT`, or `FOR VALUES IN (...)`. -/
inductive Bound where
  | default
  | values (vs : List CollectionId)
deriving DecidableEq, Repr

structure Table where
  name : RelName
  heap : List (Option Row)
  /-- `some b` when the table is attached to `features`. -/
  bound : Option Bound
  unlogged : Bool
  /-- `CHECK (collection_id = '...')` constraints, by name. -/
  checks : List (RelName × CollectionId)
  pk : (heap.reduceOption.map Row.key).Nodup
deriving DecidableEq

namespace Table

theorem noRows_nodup : (([] : List (Option Row)).reduceOption.map Row.key).Nodup := List.nodup_nil

def rows (t : Table) : List Row := t.heap.reduceOption

/-- The collection ids a partition was created for. -/
def values (t : Table) : List CollectionId :=
  match t.bound with
  | some (.values vs) => vs
  | _ => []

def attached (t : Table) : Bool := t.bound.isSome

/-- The live rows of `c` that the table holds. -/
def part (c : CollectionId) (t : Table) : List Row :=
  if t.attached then t.rows.filter (·.collectionId == c) else []

theorem pk_rows (t : Table) : (t.rows.map Row.key).Nodup := t.pk

theorem reduceOption_map_some (rs : List Row) : (rs.map some).reduceOption = rs := by
  simp [List.reduceOption, List.filterMap_map]

/-! ## Changes of one table -/

/-- `DELETE ... WHERE NOT keep`: the slots of the other rows become empty. -/
def keep (f : Row → Bool) (t : Table) : Table where
  name := t.name
  heap := t.heap.map fun o => o.filter f
  bound := t.bound
  unlogged := t.unlogged
  checks := t.checks
  pk := by
    refine t.pk.sublist (List.Sublist.map _ ?_)
    induction t.heap with
    | nil => exact .slnil
    | cons o os ih =>
      cases o with
      | none => simpa using ih
      | some r =>
        by_cases hr : f r = true
        · simpa [Option.filter, hr] using ih
        · simpa [Option.filter, hr] using ih.cons r

/-- `DELETE ... WHERE ctid IN gone`. -/
def deleteSlots (gone : Nat → Bool) (t : Table) : Table where
  name := t.name
  heap := t.heap.mapIdx fun i o => if gone i then none else o
  bound := t.bound
  unlogged := t.unlogged
  checks := t.checks
  pk := by
    refine t.pk.sublist (List.Sublist.map _ ?_)
    generalize t.heap = h
    induction h generalizing gone with
    | nil => exact .slnil
    | cons o os ih =>
      have ih' := ih fun i => gone (i + 1)
      rw [List.mapIdx_cons]
      cases o with
      | none => simpa using ih'
      | some r =>
        by_cases hr : gone 0 = true
        · simpa [hr] using ih'.cons r
        · simpa [hr] using ih'

/-- `UPDATE`: rows change, keys do not. -/
def update (f : Row → Row) (hf : ∀ r, (f r).key = r.key) (t : Table) : Table where
  name := t.name
  heap := t.heap.map (Option.map f)
  bound := t.bound
  unlogged := t.unlogged
  checks := t.checks
  pk := by
    rw [List.reduceOption_map, List.map_map]
    have : Row.key ∘ f = Row.key := funext hf
    rw [this]; exact t.pk

/-- `INSERT`: new slots at the end, `none` when the primary key is violated. -/
def insert (t : Table) (rs : List Row) : Option Table :=
  if h : ((t.rows ++ rs).map Row.key).Nodup then
    some { t with
      heap := t.heap ++ rs.map some
      pk := by simpa [List.reduceOption_append, rows, reduceOption_map_some] using h }
  else none

/-- `TRUNCATE`: the heap starts anew. -/
def truncate (t : Table) : Table := { t with heap := [], pk := noRows_nodup }

def detach (t : Table) : Table := { t with bound := none }

def setLogged (t : Table) : Table := { t with unlogged := false }

def addCheck (con : RelName) (c : CollectionId) (t : Table) : Table :=
  { t with checks := t.checks ++ [(con, c)] }

@[simp] theorem keep_name (f : Row → Bool) (t : Table) : (t.keep f).name = t.name := rfl
@[simp] theorem keep_bound (f : Row → Bool) (t : Table) : (t.keep f).bound = t.bound := rfl

@[simp] theorem rows_keep (f : Row → Bool) (t : Table) : (t.keep f).rows = t.rows.filter f := by
  simp only [rows, keep]
  induction t.heap with
  | nil => rfl
  | cons o os ih =>
    cases o with
    | none => simpa using ih
    | some r => by_cases hr : f r = true <;> simp [Option.filter_some, hr, ih]

@[simp] theorem deleteSlots_name (gone : Nat → Bool) (t : Table) :
    (t.deleteSlots gone).name = t.name := rfl
@[simp] theorem deleteSlots_bound (gone : Nat → Bool) (t : Table) :
    (t.deleteSlots gone).bound = t.bound := rfl

theorem mem_rows {t : Table} {r : Row} : r ∈ t.rows ↔ ∃ i : Nat, t.heap[i]? = some (some r) := by
  rw [rows, List.reduceOption_mem_iff, List.mem_iff_getElem?]

theorem mem_rows_deleteSlots {gone : Nat → Bool} {t : Table} {r : Row} :
    r ∈ (t.deleteSlots gone).rows ↔ ∃ i : Nat, t.heap[i]? = some (some r) ∧ gone i = false := by
  rw [mem_rows]
  refine exists_congr fun i => ?_
  simp only [deleteSlots, List.getElem?_mapIdx, Option.map_eq_some_iff]
  constructor
  · rintro ⟨o, ho, h⟩
    by_cases hg : gone i = true
    · simp [hg] at h
    · simp only [hg] at h; exact ⟨by rw [ho]; exact congrArg some h, by simpa using hg⟩
  · rintro ⟨ho, hg⟩
    exact ⟨some r, ho, by simp [hg]⟩

theorem mem_of_deleteSlots {gone : Nat → Bool} {t : Table} {r : Row}
    (h : r ∈ (t.deleteSlots gone).rows) : r ∈ t.rows := by
  obtain ⟨i, hi, _⟩ := mem_rows_deleteSlots.mp h
  exact mem_rows.mpr ⟨i, hi⟩

@[simp] theorem update_name (f : Row → Row) (hf) (t : Table) : (t.update f hf).name = t.name := rfl
@[simp] theorem update_bound (f : Row → Row) (hf) (t : Table) :
    (t.update f hf).bound = t.bound := rfl

@[simp] theorem rows_update (f : Row → Row) (hf) (t : Table) :
    (t.update f hf).rows = t.rows.map f := by
  simp [rows, update, List.reduceOption_map]

theorem insert_eq {t t' : Table} {rs : List Row} (h : t.insert rs = some t') :
    t'.name = t.name ∧ t'.bound = t.bound ∧ t'.rows = t.rows ++ rs := by
  unfold insert at h
  split at h
  · cases h
    exact ⟨rfl, rfl, by simp [rows, List.reduceOption_append, reduceOption_map_some]⟩
  · cases h

theorem insert_checks {t t' : Table} {rs : List Row} (h : t.insert rs = some t') :
    t'.checks = t.checks := by
  unfold insert at h
  split at h
  · cases h
    rfl
  · cases h

theorem insert_isSome_iff (t : Table) (rs : List Row) :
    (t.insert rs).isSome = true ↔ ((t.rows ++ rs).map Row.key).Nodup := by
  unfold insert
  split
  · rename_i h; exact iff_of_true rfl h
  · rename_i h; exact iff_of_false (by simp) h

/-! ## Rows with their ctid -/

/-- The rows of a heap that starts at position `n`, with their positions. -/
def slotsFrom (n : Nat) : List (Option Row) → List (Nat × Row)
  | [] => []
  | none :: os => slotsFrom (n + 1) os
  | some r :: os => (n, r) :: slotsFrom (n + 1) os

/-- `SELECT ctid, * FROM t`. -/
def slots (t : Table) : List (Nat × Row) := slotsFrom 0 t.heap

theorem map_snd_slots (t : Table) : t.slots.map Prod.snd = t.rows := by
  have h : ∀ os n, (slotsFrom n os).map Prod.snd = os.reduceOption := by
    intro os
    induction os with
    | nil => intro n; rfl
    | cons o os ih => intro n; cases o <;> simp [slotsFrom, ih]
  exact h t.heap 0

theorem le_of_mem_slotsFrom {os : List (Option Row)} :
    ∀ {n : Nat} {x : Nat × Row}, x ∈ slotsFrom n os → n ≤ x.1 := by
  induction os with
  | nil => intro n x hx; cases hx
  | cons o os ih =>
    intro n x hx
    cases o with
    | none => have := ih hx; omega
    | some r =>
      rcases List.mem_cons.mp hx with rfl | hx
      · exact Nat.le_refl n
      · have := ih hx; omega

/-- A position has one row. -/
theorem slots_ctid_nodup (t : Table) : (t.slots.map Prod.fst).Nodup := by
  have h : ∀ os n, ((slotsFrom n os).map Prod.fst).Nodup := by
    intro os
    induction os with
    | nil => intro n; exact List.nodup_nil
    | cons o os ih =>
      intro n
      cases o with
      | none => exact ih (n + 1)
      | some r =>
        refine List.nodup_cons.mpr ⟨fun hm => ?_, ih (n + 1)⟩
        obtain ⟨x, hx, hxn⟩ := List.mem_map.mp hm
        have := le_of_mem_slotsFrom hx
        omega
  exact h t.heap 0

theorem slots_deleteSlots (gone : Nat → Bool) (t : Table) :
    (t.deleteSlots gone).slots = t.slots.filter fun x => !gone x.1 := by
  have h : ∀ (os : List (Option Row)) (n : Nat) (g : Nat → Bool), (∀ i, g i = gone (n + i)) →
      slotsFrom n (os.mapIdx fun i o => if g i then none else o) =
        (slotsFrom n os).filter fun x => !gone x.1 := by
    intro os
    induction os with
    | nil => intro n g _; rfl
    | cons o os ih =>
      intro n g hg
      have hg0 : g 0 = gone n := hg 0
      have ih := ih (n + 1) (fun i => g (i + 1)) fun i => by rw [hg]; congr 1; omega
      rw [List.mapIdx_cons]
      cases o with
      | none => by_cases hn : gone n = true <;> simpa [slotsFrom, hg0, hn] using ih
      | some r => by_cases hn : gone n = true <;> simpa [slotsFrom, hg0, hn] using ih
  exact h t.heap 0 gone fun i => by rw [Nat.zero_add]

/-! ## Tame changes -/

/-- A change of one table that keeps its name, at most detaches it, and gives no row a collection
id that was not there. -/
structure Tame (f : Table → Table) : Prop where
  name : ∀ t, (f t).name = t.name
  bound : ∀ t, (f t).bound = t.bound ∨ (f t).bound = none
  rows : ∀ t, ∀ r ∈ (f t).rows, ∃ r' ∈ t.rows, r'.collectionId = r.collectionId

theorem Tame.mem_values {f : Table → Table} (hf : Tame f) {sel : Bool} {t : Table}
    {c : CollectionId} (h : c ∈ (if sel then f t else t).values) : c ∈ t.values := by
  cases sel with
  | false => exact h
  | true =>
    rcases hf.bound t with hb | hb
    · simpa [values, hb] using h
    · simp [values, hb] at h

theorem tame_keep (f : Row → Bool) : Tame (keep f) where
  name _ := rfl
  bound _ := .inl rfl
  rows t r hr := by
    rw [rows_keep, List.mem_filter] at hr
    exact ⟨r, hr.1, rfl⟩

theorem tame_deleteSlots (gone : Nat → Bool) : Tame (deleteSlots gone) where
  name _ := rfl
  bound _ := .inl rfl
  rows _ r hr := ⟨r, mem_of_deleteSlots hr, rfl⟩

theorem tame_update (f : Row → Row) (hf : ∀ r, (f r).key = r.key) : Tame (update f hf) where
  name _ := rfl
  bound _ := .inl rfl
  rows t r hr := by
    rw [rows_update, List.mem_map] at hr
    obtain ⟨r', hr', rfl⟩ := hr
    exact ⟨r', hr', (congrArg (·.2.1) (hf r')).symm⟩

theorem tame_truncate : Tame truncate where
  name _ := rfl
  bound _ := .inl rfl
  rows _ r hr := by simp [Table.rows, truncate] at hr

theorem tame_detach : Tame detach where
  name _ := rfl
  bound _ := .inr rfl
  rows _ r hr := ⟨r, hr, rfl⟩

theorem tame_setLogged : Tame setLogged where
  name _ := rfl
  bound _ := .inl rfl
  rows _ r hr := ⟨r, hr, rfl⟩

theorem tame_addCheck (con : RelName) (c : CollectionId) : Tame (addCheck con c) where
  name _ := rfl
  bound _ := .inl rfl
  rows _ r hr := ⟨r, hr, rfl⟩

end Table
end Db
end Geofastmap
