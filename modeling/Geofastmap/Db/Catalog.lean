import Mathlib.Data.List.Nodup
import Mathlib.Data.List.Pairwise
import Geofastmap.Db.Table

/-!
# Geofastmap.Db.Catalog

The tables of one schema, with the partitions of `features` among them. What PostgreSQL enforces
is part of the type: names are unique, the values of attached partitions are apart, every row of a
partition has one of its values, and there is one default partition at most, which holds no row
that another partition is for. So all live rows of a collection are in one table (`live_in_one`),
and the primary key is unique among them (`rowsOf_keys`).

The statements the program issues are functions on catalogs, `none` or an error where PostgreSQL
raises. Each comes with the equation for the rows that stay live.
-/

namespace Geofastmap
namespace Db

structure Catalog where
  tables : List Table
  names : (tables.map Table.name).Nodup
  fits : ∀ t ∈ tables, ∀ vs, t.bound = some (.values vs) → ∀ r ∈ t.rows, r.collectionId ∈ vs
  apart : tables.Pairwise fun t u => ∀ c ∈ t.values, c ∉ u.values
  spare : ∀ t ∈ tables, t.bound = some .default → ∀ r ∈ t.rows, ∀ u ∈ tables,
    r.collectionId ∉ u.values
  single : ∀ t ∈ tables, ∀ u ∈ tables, t.bound = some .default → u.bound = some .default →
    t.name = u.name

namespace Catalog

def find (k : Catalog) (n : RelName) : Option Table := k.tables.find? (·.name == n)

/-- The rows a query on `features` sees. -/
def live (k : Catalog) : List Row := (k.tables.filter Table.attached).flatMap Table.rows

/-- `SELECT * FROM features WHERE collection_id = c`. -/
def rowsOf (k : Catalog) (c : CollectionId) : List Row := k.live.filter (·.collectionId == c)

theorem mem_live {k : Catalog} {r : Row} :
    r ∈ k.live ↔ ∃ t ∈ k.tables, t.attached = true ∧ r ∈ t.rows := by
  simp [live, and_assoc]

theorem mem_rowsOf {k : Catalog} {c : CollectionId} {r : Row} :
    r ∈ k.rowsOf c ↔ r ∈ k.live ∧ r.collectionId = c := by
  simp [rowsOf]

theorem find_mem {k : Catalog} {n : RelName} {t : Table} (h : k.find n = some t) :
    t ∈ k.tables ∧ t.name = n := by
  have h1 := List.mem_of_find?_eq_some h
  have h2 := List.find?_some h
  exact ⟨h1, by simpa using h2⟩

/-- A name belongs to one table. -/
theorem eq_of_name {k : Catalog} {t u : Table} (ht : t ∈ k.tables) (hu : u ∈ k.tables)
    (h : t.name = u.name) : t = u :=
  List.inj_on_of_nodup_map k.names ht hu h

theorem find_of_mem {k : Catalog} {t : Table} (ht : t ∈ k.tables) : k.find t.name = some t := by
  cases h : k.find t.name with
  | none =>
    have := List.find?_eq_none.mp h t ht
    simp at this
  | some u =>
    obtain ⟨hu, hn⟩ := find_mem h
    rw [eq_of_name hu ht hn]

theorem find_none {k : Catalog} {n : RelName} :
    k.find n = none ↔ ∀ t ∈ k.tables, t.name ≠ n := by
  simp [find]

/-- A collection id is a value of one table. -/
theorem eq_of_value {k : Catalog} {t u : Table} (ht : t ∈ k.tables) (hu : u ∈ k.tables)
    {c : CollectionId} (hct : c ∈ t.values) (hcu : c ∈ u.values) : t = u := by
  let R : Table → Table → Prop := fun t u => ∀ c, c ∈ t.values → c ∈ u.values → False
  have : Std.Symm R := ⟨fun x y h c h1 h2 => h c h2 h1⟩
  have hp : k.tables.Pairwise R := k.apart.imp fun h c h1 h2 => h c h1 h2
  by_contra hne
  exact hp.forall ht hu hne c hct hcu

theorem mem_values_of_mem {k : Catalog} {t : Table} {r : Row} (ht : t ∈ k.tables)
    (hb : t.bound ≠ some .default) (ha : t.attached = true) (hr : r ∈ t.rows) :
    r.collectionId ∈ t.values := by
  obtain ⟨b, hb'⟩ := Option.isSome_iff_exists.mp ha
  cases b with
  | default => exact absurd hb' hb
  | values vs => simpa [Table.values, hb'] using k.fits t ht vs hb' r hr

/-- All live rows of a collection are in one table. -/
theorem live_in_one {k : Catalog} {t u : Table} (ht : t ∈ k.tables) (hu : u ∈ k.tables)
    (hat : t.attached = true) (hau : u.attached = true) {r q : Row} (hr : r ∈ t.rows)
    (hq : q ∈ u.rows) (h : r.collectionId = q.collectionId) :
    t = u := by
  by_cases h1 : t.bound = some .default
  · by_cases h2 : u.bound = some .default
    · exact eq_of_name ht hu (k.single t ht u hu h1 h2)
    · have := mem_values_of_mem hu h2 hau hq
      rw [← h] at this
      exact absurd this (k.spare t ht h1 r hr u hu)
  · have hv := mem_values_of_mem ht h1 hat hr
    by_cases h2 : u.bound = some .default
    · rw [h] at hv
      exact absurd hv (k.spare u hu h2 q hq t ht)
    · have hw := mem_values_of_mem hu h2 hau hq
      rw [← h] at hw
      exact eq_of_value ht hu hv hw

/-! ## The rows of one collection, table by table -/

theorem rowsOf_eq (k : Catalog) (c : CollectionId) :
    k.rowsOf c = k.tables.flatMap (Table.part c) := by
  unfold rowsOf live
  induction k.tables with
  | nil => rfl
  | cons t ts ih =>
    by_cases ha : t.attached = true
    · simp only [List.filter_cons, ha, if_true, List.flatMap_cons, List.filter_append, ih,
        Table.part]
    · simp [ha, ih, Table.part]

theorem mem_rowsOf_iff {k : Catalog} {c : CollectionId} {r : Row} :
    r ∈ k.rowsOf c ↔ ∃ t ∈ k.tables, r ∈ t.part c := by
  rw [rowsOf_eq, List.mem_flatMap]

theorem mem_part {t : Table} {c : CollectionId} {r : Row} :
    r ∈ t.part c ↔ t.attached = true ∧ r ∈ t.rows ∧ r.collectionId = c := by
  unfold Table.part
  split
  · rename_i h; simp [h]
  · rename_i h; simp [h]

theorem part_eq_nil {t : Table} {c : CollectionId} (h : ∀ r ∈ t.rows, r.collectionId ≠ c) :
    t.part c = [] := by
  unfold Table.part
  split
  · rw [List.filter_eq_nil_iff]; intro r hr; simpa using h r hr
  · rfl

theorem part_of_values {k : Catalog} {t : Table} (ht : t ∈ k.tables) {vs : List CollectionId}
    (hb : t.bound = some (.values vs)) {c : CollectionId} (hc : c ∉ vs) : t.part c = [] :=
  part_eq_nil fun r hr he => hc (he ▸ k.fits t ht vs hb r hr)

/-- Deleting rows of `c` leaves the rows of `d`. -/
theorem part_keep_ne {c d : CollectionId} (hd : d ≠ c) (t : Table) :
    (t.keep fun r => !(r.collectionId == c)).part d = t.part d := by
  unfold Table.part
  have ha : (t.keep fun r => !(r.collectionId == c)).attached = t.attached := rfl
  rw [ha]
  split
  · rw [Table.rows_keep, List.filter_filter]
    refine List.filter_congr fun r _ => ?_
    by_cases h : r.collectionId = d
    · simp [h, hd]
    · simp [h]
  · rfl

/-- When a partition is for `c`, no other table has a live row of `c`. -/
theorem part_of_other {k : Catalog} {t u : Table} (ht : t ∈ k.tables) (hu : u ∈ k.tables)
    {c : CollectionId} (hc : c ∈ t.values) (hne : u ≠ t) : u.part c = [] := by
  cases hb : u.bound with
  | none => simp [Table.part, Table.attached, hb]
  | some b =>
    cases b with
    | default =>
      refine part_eq_nil fun r hr he => ?_
      exact k.spare u hu hb r hr t ht (he ▸ hc)
    | values vs =>
      refine part_of_values hu hb fun hvs => hne ?_
      exact eq_of_value hu ht (by simpa [Table.values, hb] using hvs) hc

theorem flatMap_eq_of_unique {α β : Type} {f : α → List β} {l : List α} (hl : l.Nodup) {a : α}
    (ha : a ∈ l) (h : ∀ b ∈ l, b ≠ a → f b = []) : l.flatMap f = f a := by
  induction l with
  | nil => cases ha
  | cons x xs ih =>
    rw [List.nodup_cons] at hl
    rcases List.mem_cons.mp ha with rfl | hxs
    · have : xs.flatMap f = [] := by
        rw [List.flatMap_eq_nil_iff]
        intro b hb
        exact h b (by simp [hb]) fun he => hl.1 (he ▸ hb)
      rw [List.flatMap_cons, this, List.append_nil]
    · have hxa : x ≠ a := fun he => hl.1 (he ▸ hxs)
      rw [List.flatMap_cons, h x (by simp) hxa, List.nil_append]
      exact ih hl.2 hxs fun b hb => h b (by simp [hb])

theorem flatMap_filter_of_nil {α β : Type} {f : α → List β} {p : α → Bool} {l : List α}
    (h : ∀ a ∈ l, p a = false → f a = []) : (l.filter p).flatMap f = l.flatMap f := by
  induction l with
  | nil => rfl
  | cons x xs ih =>
    have ih := ih fun a ha => h a (by simp [ha])
    by_cases hx : p x = true
    · simp [hx, ih]
    · have := h x (by simp) (by simpa using hx)
      simp [hx, ih, this]

/-- The live rows of a collection with a partition are the ones in it. -/
theorem rowsOf_of_value {k : Catalog} {t : Table} (ht : t ∈ k.tables) {c : CollectionId}
    (hc : c ∈ t.values) : k.rowsOf c = t.part c := by
  rw [rowsOf_eq]
  refine flatMap_eq_of_unique k.names.of_map ht fun u hu hne => ?_
  exact part_of_other ht hu hc hne

/-- The live rows of a collection with a row are the ones of a table that has it. -/
theorem rowsOf_of_mem {k : Catalog} {t : Table} (ht : t ∈ k.tables) {c : CollectionId} {r : Row}
    (hr : r ∈ t.part c) : k.rowsOf c = t.part c := by
  rw [rowsOf_eq]
  refine flatMap_eq_of_unique k.names.of_map ht fun u hu hne => ?_
  refine List.eq_nil_iff_forall_not_mem.mpr fun q hq => hne ?_
  obtain ⟨hau, hq, hqc⟩ := mem_part.mp hq
  obtain ⟨hat, hr, hrc⟩ := mem_part.mp hr
  exact live_in_one hu ht hau hat hq hr (hqc.trans hrc.symm)

/-- The primary key holds among the live rows of a collection. -/
theorem rowsOf_keys (k : Catalog) (c : CollectionId) : ((k.rowsOf c).map Row.key).Nodup := by
  cases h : k.rowsOf c with
  | nil => exact List.nodup_nil
  | cons r rs =>
    obtain ⟨t, ht, hr⟩ := mem_rowsOf_iff.mp (h ▸ List.mem_cons_self : r ∈ k.rowsOf c)
    rw [← h, rowsOf_of_mem ht hr, Table.part, if_pos (mem_part.mp hr).1]
    exact t.pk_rows.sublist (List.filter_sublist.map _)

/-! ## Changes of the catalog -/

/-- Change the tables that `sel` selects, one by one. -/
def mapTables (k : Catalog) (sel : Table → Bool) {f : Table → Table} (hf : Table.Tame f) :
    Catalog where
  tables := k.tables.map fun t => if sel t then f t else t
  names := by
    have hn : (Table.name ∘ fun t => if sel t then f t else t) = Table.name := by
      funext t; by_cases h : sel t = true <;> simp [h, hf.name]
    rw [List.map_map, hn]
    exact k.names
  fits := by
    intro t ht vs hvs r hr
    obtain ⟨u, hu, rfl⟩ := List.mem_map.mp ht
    by_cases h : sel u = true
    · simp only [h, if_true] at hvs hr
      obtain ⟨r', hr', hc⟩ := hf.rows u r hr
      rcases hf.bound u with hb | hb
      · rw [← hc]; exact k.fits u hu vs (hb ▸ hvs) r' hr'
      · rw [hb] at hvs; cases hvs
    · simp only [h] at hvs hr
      exact k.fits u hu vs hvs r hr
  apart := by
    rw [List.pairwise_map]
    exact k.apart.imp fun h c hc hc' => h c (hf.mem_values hc) (hf.mem_values hc')
  spare := by
    intro t ht htd r hr u hu hc
    obtain ⟨t0, ht0, rfl⟩ := List.mem_map.mp ht
    obtain ⟨u0, hu0, rfl⟩ := List.mem_map.mp hu
    have hc0 := hf.mem_values hc
    by_cases h : sel t0 = true
    · simp only [h, if_true] at htd hr
      obtain ⟨r', hr', hc'⟩ := hf.rows t0 r hr
      rcases hf.bound t0 with hb | hb
      · exact k.spare t0 ht0 (hb ▸ htd) r' hr' u0 hu0 (hc' ▸ hc0)
      · rw [hb] at htd; cases htd
    · simp only [h] at htd hr
      exact k.spare t0 ht0 htd r hr u0 hu0 hc0
  single := by
    have hd : ∀ t, (if sel t then f t else t).bound = some .default → t.bound = some .default := by
      intro t ht
      by_cases h : sel t = true
      · rw [if_pos h] at ht
        rcases hf.bound t with hb | hb
        · rw [← hb]; exact ht
        · rw [hb] at ht; cases ht
      · rwa [if_neg h] at ht
    have hn : ∀ t, (if sel t then f t else t).name = t.name := by
      intro t; by_cases h : sel t = true <;> simp [h, hf.name]
    intro t ht u hu htd hud
    obtain ⟨t0, ht0, rfl⟩ := List.mem_map.mp ht
    obtain ⟨u0, hu0, rfl⟩ := List.mem_map.mp hu
    rw [hn, hn]
    exact k.single t0 ht0 u0 hu0 (hd t0 htd) (hd u0 hud)

/-- `DROP TABLE IF EXISTS n`. -/
def drop (k : Catalog) (n : RelName) : Catalog where
  tables := k.tables.filter (·.name != n)
  names := k.names.sublist (List.filter_sublist.map _)
  fits := fun t ht => k.fits t (List.mem_of_mem_filter ht)
  apart := k.apart.sublist List.filter_sublist
  spare := fun t ht hd r hr u hu =>
    k.spare t (List.mem_of_mem_filter ht) hd r hr u (List.mem_of_mem_filter hu)
  single := fun t ht u hu => k.single t (List.mem_of_mem_filter ht) u (List.mem_of_mem_filter hu)

/-- A statement on the table `n` alone. -/
def onTable (k : Catalog) (n : RelName) {f : Table → Table} (hf : Table.Tame f) : Catalog :=
  k.mapTables (·.name == n) hf

/-- A statement on `features`, which reaches the attached tables. -/
def onLive (k : Catalog) {f : Table → Table} (hf : Table.Tame f) : Catalog :=
  k.mapTables Table.attached hf

/-! ## Rows and names after a change -/

theorem rowsOf_drop {k : Catalog} {n : RelName} {c : CollectionId}
    (h : ∀ t ∈ k.tables, t.name = n → t.part c = []) : (k.drop n).rowsOf c = k.rowsOf c := by
  rw [rowsOf_eq, rowsOf_eq]
  refine flatMap_filter_of_nil fun t ht hn => ?_
  exact h t ht (by simpa using hn)

theorem rowsOf_mapTables {k : Catalog} {sel : Table → Bool} {f : Table → Table}
    (hf : Table.Tame f) {c : CollectionId}
    (h : ∀ t ∈ k.tables, sel t = true → (f t).part c = t.part c) :
    (k.mapTables sel hf).rowsOf c = k.rowsOf c := by
  rw [rowsOf_eq, rowsOf_eq]
  simp only [mapTables, List.flatMap_map]
  refine List.flatMap_congr fun t ht => ?_
  by_cases hs : sel t = true
  · simp only [hs, if_true]; exact h t ht hs
  · simp [hs]

/-- The rows a delete in some tables leaves. -/
theorem mem_rowsOf_keep {k : Catalog} {sel : Table → Bool} {f : Row → Bool} {c : CollectionId}
    {r : Row} : r ∈ (k.mapTables sel (Table.tame_keep f)).rowsOf c ↔
      ∃ t ∈ k.tables, r ∈ t.part c ∧ (sel t = true → f r = true) := by
  rw [mem_rowsOf_iff]
  constructor
  · rintro ⟨t, ht, hr⟩
    obtain ⟨u, hu, rfl⟩ := List.mem_map.mp ht
    refine ⟨u, hu, ?_⟩
    by_cases hs : sel u = true
    · rw [if_pos hs, mem_part, Table.rows_keep, List.mem_filter] at hr
      exact ⟨mem_part.mpr ⟨hr.1, hr.2.1.1, hr.2.2⟩, fun _ => hr.2.1.2⟩
    · rw [if_neg hs] at hr
      exact ⟨hr, fun h => absurd h hs⟩
  · rintro ⟨u, hu, hr, hf⟩
    refine ⟨_, List.mem_map_of_mem hu, ?_⟩
    by_cases hs : sel u = true
    · obtain ⟨ha, hr, hc⟩ := mem_part.mp hr
      rw [if_pos hs, mem_part, Table.rows_keep, List.mem_filter]
      exact ⟨ha, ⟨hr, hf hs⟩, hc⟩
    · rw [if_neg hs]
      exact hr

theorem find_drop (k : Catalog) (n m : RelName) :
    (k.drop n).find m = if m = n then none else k.find m := by
  simp only [find, drop, List.find?_filter]
  by_cases h : m = n
  · simp [h]
  · rw [if_neg h]
    congr 1
    funext t
    by_cases ht : t.name = m <;> simp [ht, h]

theorem find_mapTables (k : Catalog) (sel : Table → Bool) {f : Table → Table}
    (hf : Table.Tame f) (m : RelName) :
    (k.mapTables sel hf).find m = (k.find m).map fun t => if sel t then f t else t := by
  simp only [find, mapTables, List.find?_map]
  have : ((fun t : Table => t.name == m) ∘ fun t => if sel t then f t else t) =
      fun t => t.name == m := by
    funext t
    by_cases hs : sel t = true <;> simp [hs, hf.name]
  rw [this]

/-- A change of rows leaves the partitions. -/
theorem bounds_onLive (k : Catalog) {f : Table → Table} (hf : Table.Tame f)
    (hb : ∀ t, (f t).bound = t.bound) (m : RelName) :
    ((k.onLive hf).find m).map Table.bound = (k.find m).map Table.bound := by
  rw [onLive, find_mapTables, Option.map_map]
  congr 1
  funext t
  simp only [Function.comp]
  split
  · exact hb t
  · rfl

theorem ext_tables {k k' : Catalog} (h : k.tables = k'.tables) : k = k' := by
  cases k; cases k'; cases h; rfl

theorem onTable_deleteNothing (k : Catalog) (n : RelName) :
    k.onTable n (Table.tame_deleteSlots ([] : List Nat).contains) = k := by
  have hid : ∀ t : Table, t.deleteSlots ([] : List Nat).contains = t := by
    intro t
    cases t
    simp only [Table.deleteSlots, Table.mk.injEq, true_and, and_true]
    exact List.ext_getElem (by simp) fun i h1 h2 => by simp
  exact ext_tables (by simp [onTable, mapTables, hid])

theorem find_onTable (k : Catalog) (n : RelName) {f : Table → Table} (hf : Table.Tame f)
    (m : RelName) :
    (k.onTable n hf).find m = if m = n then (k.find m).map f else k.find m := by
  rw [show k.onTable n hf = k.mapTables (·.name == n) hf from rfl, find_mapTables]
  cases h : k.find m with
  | none => simp
  | some t =>
    have := (find_mem h).2
    by_cases hm : m = n <;> simp [this, hm]

end Catalog
end Db
end Geofastmap
