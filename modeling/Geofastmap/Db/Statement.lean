import Geofastmap.Db.Catalog

/-!
# Geofastmap.Db.Statement

The statements that can fail, as functions from a catalog to a catalog or an error. A transaction
is a composition of them in `Except`; when it ends in an error the old catalog stays.

* `*_ok`     — when a statement succeeds, and with which catalog.
* `route`    — where `INSERT INTO features` puts a row.
-/

namespace Geofastmap
namespace Db

inductive DbError where
  | undefinedTable (n : RelName)
  | duplicateTable (n : RelName)
  | uniqueViolation (n : RelName)
  | checkViolation (n : RelName)
  | overlap (n : RelName)
  | notPartition (n : RelName)
  | noPartition
deriving DecidableEq, Repr

/-- The text of an error, as the driver renders it. -/
def DbError.text : DbError → Text
  | .undefinedTable n =>
    "(psycopg2.errors.UndefinedTable) relation \"".toList ++ n ++ "\" does not exist".toList
  | .duplicateTable n =>
    "(psycopg2.errors.DuplicateTable) relation \"".toList ++ n ++ "\" already exists".toList
  | .uniqueViolation n =>
    "(psycopg2.errors.UniqueViolation) duplicate key value violates unique constraint \"".toList
      ++ n ++ "_pkey\"".toList
  | .checkViolation n =>
    "(psycopg2.errors.CheckViolation) partition constraint of relation \"".toList ++ n
      ++ "\" is violated by some row".toList
  | .overlap n =>
    "(psycopg2.errors.InvalidObjectDefinition) partition \"".toList ++ n
      ++ "\" would overlap partition".toList
  | .notPartition n =>
    "(psycopg2.errors.UndefinedTable) relation \"".toList ++ n
      ++ "\" is not a partition of relation \"features\"".toList
  | .noPartition =>
    "(psycopg2.errors.CheckViolation) no partition of relation \"features\" found for row".toList

namespace Catalog

/-- The partition of `features` that has no values of its own. -/
def featuresDefault : RelName := "features_default".toList

/-- The catalog of an empty database. -/
def initial : Catalog where
  tables := [⟨featuresDefault, [], some .default, false, [], Table.noRows_nodup⟩]
  names := by simp
  fits := by simp
  apart := by simp
  spare := by simp [Table.rows]
  single := by simp

def need (k : Catalog) (n : RelName) : Except DbError Table :=
  match k.find n with
  | none => .error (.undefinedTable n)
  | some t => .ok t

/-- `DROP TABLE n`. -/
def dropTable (k : Catalog) (n : RelName) : Except DbError Catalog := do
  let _ ← k.need n
  return k.drop n

/-- `DELETE FROM n WHERE p`. -/
def deleteFrom (k : Catalog) (n : RelName) (p : Row → Bool) : Except DbError Catalog := do
  let _ ← k.need n
  return k.onTable n (Table.tame_keep fun r => !p r)

/-- `TRUNCATE TABLE n`. -/
def truncateTable (k : Catalog) (n : RelName) : Except DbError Catalog := do
  let _ ← k.need n
  return k.onTable n Table.tame_truncate

/-- `ALTER TABLE features DETACH PARTITION n`. -/
def detachPartition (k : Catalog) (n : RelName) : Except DbError Catalog := do
  let t ← k.need n
  if t.attached then return k.onTable n Table.tame_detach else throw (.notPartition n)

/-- `ALTER TABLE n SET LOGGED`. -/
def setLogged (k : Catalog) (n : RelName) : Except DbError Catalog := do
  let _ ← k.need n
  return k.onTable n Table.tame_setLogged

/-- `ALTER TABLE n ADD CONSTRAINT con CHECK (collection_id = 'c')`. -/
def addCheck (k : Catalog) (n con : RelName) (c : CollectionId) : Except DbError Catalog := do
  let t ← k.need n
  if t.rows.all (·.collectionId == c) then return k.onTable n (Table.tame_addCheck con c)
  else throw (.checkViolation n)

/-- A new table without rows, outside `features`. -/
def createTable (k : Catalog) (n : RelName) (unlogged : Bool) : Except DbError Catalog :=
  if h : ∀ t ∈ k.tables, t.name ≠ n then
    .ok {
      tables := k.tables ++ [⟨n, [], none, unlogged, [], Table.noRows_nodup⟩]
      names := by
        rw [List.map_append, List.nodup_append]
        refine ⟨k.names, by simp, ?_⟩
        simpa using h
      fits := by
        intro t ht vs hvs r hr
        rcases List.mem_append.mp ht with ht | ht
        · exact k.fits t ht vs hvs r hr
        · rw [List.mem_singleton.mp ht] at hvs; cases hvs
      apart := by
        rw [List.pairwise_append]
        refine ⟨k.apart, List.pairwise_singleton .., ?_⟩
        intro t _ u hu c _
        rw [List.mem_singleton.mp hu]; simp [Table.values]
      spare := by
        intro t ht hd r hr u hu
        rcases List.mem_append.mp ht with ht | ht
        · rcases List.mem_append.mp hu with hu | hu
          · exact k.spare t ht hd r hr u hu
          · rw [List.mem_singleton.mp hu]; simp [Table.values]
        · rw [List.mem_singleton.mp ht] at hd; cases hd
      single := by
        intro t ht u hu htd hud
        rcases List.mem_append.mp ht with ht | ht
        · rcases List.mem_append.mp hu with hu | hu
          · exact k.single t ht u hu htd hud
          · rw [List.mem_singleton.mp hu] at hud; cases hud
        · rw [List.mem_singleton.mp ht] at htd; cases htd }
  else .error (.duplicateTable n)

/-- No partition is for `c`, and the default partition has no row of it. -/
def Free (k : Catalog) (c : CollectionId) : Prop :=
  ∀ t ∈ k.tables, c ∉ t.values ∧ (t.bound = some .default → ∀ r ∈ t.rows, r.collectionId ≠ c)

instance (k : Catalog) (c : CollectionId) : Decidable (k.Free c) :=
  inferInstanceAs (Decidable (∀ t ∈ k.tables,
    c ∉ t.values ∧ (t.bound = some .default → ∀ r ∈ t.rows, r.collectionId ≠ c)))

/-- Give the table `n`, whose rows are all of `c`, the bound `FOR VALUES IN ('c')`. -/
def bindTo (k : Catalog) (n : RelName) (c : CollectionId) (hfree : k.Free c)
    (hrows : ∀ t ∈ k.tables, t.name = n → t.bound = none ∧ ∀ r ∈ t.rows, r.collectionId = c) :
    Catalog where
  tables := k.tables.map fun t => if t.name = n then { t with bound := some (.values [c]) } else t
  names := by
    have : (Table.name ∘ fun t : Table =>
        if t.name = n then { t with bound := some (.values [c]) } else t) = Table.name := by
      funext t; by_cases h : t.name = n <;> simp [h]
    rw [List.map_map, this]
    exact k.names
  fits := by
    intro t ht vs hvs r hr
    obtain ⟨u, hu, rfl⟩ := List.mem_map.mp ht
    by_cases h : u.name = n
    · simp only [h, if_true, Option.some.injEq, Bound.values.injEq] at hvs hr
      rw [← hvs, (hrows u hu h).2 r hr]
      exact List.mem_singleton.mpr rfl
    · simp only [h, if_false] at hvs hr
      exact k.fits u hu vs hvs r hr
  apart := by
    rw [List.pairwise_map]
    have hp := List.pairwise_map.mp k.names
    refine (k.apart.and hp).imp_of_mem ?_
    intro t u ht hu h d hdt hdu
    by_cases h1 : t.name = n <;> by_cases h2 : u.name = n <;>
      simp only [h1, h2, if_true, if_false, Table.values, List.mem_singleton] at hdt hdu
    · exact h.2 (h1.trans h2.symm)
    · rw [hdt] at hdu; exact (hfree u hu).1 hdu
    · rw [hdu] at hdt; exact (hfree t ht).1 hdt
    · exact h.1 d hdt hdu
  spare := by
    intro t ht hd r hr u hu
    obtain ⟨t0, ht0, rfl⟩ := List.mem_map.mp ht
    obtain ⟨u0, hu0, rfl⟩ := List.mem_map.mp hu
    by_cases h1 : t0.name = n
    · simp only [h1, if_true, Option.some.injEq] at hd
      cases hd
    · simp only [h1, if_false] at hd hr
      by_cases h2 : u0.name = n
      · simpa [h2, Table.values] using (hfree t0 ht0).2 hd r hr
      · simpa only [h2, if_false] using k.spare t0 ht0 hd r hr u0 hu0
  single := by
    intro t ht u hu htd hud
    obtain ⟨t0, ht0, rfl⟩ := List.mem_map.mp ht
    obtain ⟨u0, hu0, rfl⟩ := List.mem_map.mp hu
    by_cases h1 : t0.name = n
    · rw [if_pos h1] at htd; cases htd
    · by_cases h2 : u0.name = n
      · rw [if_pos h2] at hud; cases hud
      · rw [if_neg h1] at htd ⊢
        rw [if_neg h2] at hud ⊢
        exact k.single t0 ht0 u0 hu0 htd hud

/-- `ALTER TABLE features ATTACH PARTITION n FOR VALUES IN ('c')`. -/
def attachPartition (k : Catalog) (n : RelName) (c : CollectionId) : Except DbError Catalog := do
  let t ← k.need n
  if t.attached then throw (.notPartition n)
  else if hfree : k.Free c then
    if hrows : ∀ t ∈ k.tables, t.name = n → t.bound = none ∧ ∀ r ∈ t.rows, r.collectionId = c then
      return k.bindTo n c hfree hrows
    else throw (.checkViolation n)
  else throw (.overlap n)

/-- `CREATE TABLE n PARTITION OF features FOR VALUES IN ('c')`. -/
def createPartition (k : Catalog) (n : RelName) (c : CollectionId) : Except DbError Catalog := do
  let k ← k.createTable n false
  k.attachPartition n c

/-- Where `INSERT INTO features` puts a row of `c`. -/
def route (k : Catalog) (c : CollectionId) : Option Table :=
  (k.tables.find? fun t => decide (c ∈ t.values)) <|>
    k.tables.find? fun t => t.bound == some .default

/-- The rows a place in `features` allows. -/
def Allows (k : Catalog) (r : Row) : Option Bound → Prop
  | none => True
  | some (.values vs) => r.collectionId ∈ vs
  | some .default => ∀ u ∈ k.tables, r.collectionId ∉ u.values

instance (k : Catalog) (r : Row) : ∀ b : Option Bound, Decidable (k.Allows r b)
  | none => isTrue trivial
  | some (.values vs) => inferInstanceAs (Decidable (r.collectionId ∈ vs))
  | some .default => inferInstanceAs (Decidable (∀ u ∈ k.tables, r.collectionId ∉ u.values))

/-- A table takes a row when its own constraints and its place in `features` allow it. -/
def Takes (k : Catalog) (t : Table) (r : Row) : Prop :=
  (∀ q ∈ t.checks, r.collectionId = q.2) ∧ k.Allows r t.bound

instance (k : Catalog) (t : Table) (r : Row) : Decidable (k.Takes t r) :=
  inferInstanceAs (Decidable ((∀ q ∈ t.checks, r.collectionId = q.2) ∧ k.Allows r t.bound))

/-- Put new rows into `t`. -/
def fill (k : Catalog) (t t' : Table) (rs : List Row) (ht : t ∈ k.tables)
    (h : t.insert rs = some t') (htake : ∀ r ∈ rs, k.Takes t r) : Catalog where
  tables := k.tables.map fun u => if u.name = t.name then t' else u
  names := by
    have : (Table.name ∘ fun u : Table => if u.name = t.name then t' else u) = Table.name := by
      funext u; by_cases hu : u.name = t.name <;> simp [hu, (Table.insert_eq h).1]
    rw [List.map_map, this]
    exact k.names
  fits := by
    obtain ⟨_, hb, hr'⟩ := Table.insert_eq h
    intro u hu vs hvs r hr
    obtain ⟨u0, hu0, rfl⟩ := List.mem_map.mp hu
    by_cases hn : u0.name = t.name
    · simp only [hn, if_true, hb, hr', List.mem_append] at hvs hr
      rcases hr with hr | hr
      · exact k.fits t ht vs hvs r hr
      · have := (htake r hr).2
        rwa [hvs] at this
    · simp only [hn, if_false] at hvs hr
      exact k.fits u0 hu0 vs hvs r hr
  apart := by
    have hv : ∀ u ∈ k.tables, (if u.name = t.name then t' else u).values = u.values := by
      intro u hu
      by_cases hn : u.name = t.name
      · simp [Table.values, (Table.insert_eq h).2.1, eq_of_name hu ht hn]
      · simp [hn]
    rw [List.pairwise_map]
    refine k.apart.imp_of_mem fun {a b} ha hb h c hc => ?_
    rw [hv a ha] at hc
    rw [hv b hb]
    exact h c hc
  spare := by
    obtain ⟨_, hb, hr'⟩ := Table.insert_eq h
    intro u hu hd r hr v hv hc
    obtain ⟨u0, hu0, rfl⟩ := List.mem_map.mp hu
    obtain ⟨v0, hv0, rfl⟩ := List.mem_map.mp hv
    have hc0 : r.collectionId ∈ v0.values := by
      by_cases hn : v0.name = t.name
      · simpa [hn, Table.values, hb, eq_of_name hv0 ht hn] using hc
      · simpa [hn] using hc
    by_cases hn : u0.name = t.name
    · simp only [hn, if_true, hb, hr', List.mem_append] at hd hr
      rcases hr with hr | hr
      · exact k.spare t ht hd r hr v0 hv0 hc0
      · have := (htake r hr).2
        rw [hd] at this
        exact this v0 hv0 hc0
    · simp only [hn, if_false] at hd hr
      exact k.spare u0 hu0 hd r hr v0 hv0 hc0
  single := by
    obtain ⟨hname, hb, _⟩ := Table.insert_eq h
    have hd : ∀ u ∈ k.tables, (if u.name = t.name then t' else u).bound = u.bound ∧
        (if u.name = t.name then t' else u).name = u.name := by
      intro u hu
      by_cases hn : u.name = t.name
      · rw [if_pos hn, hb, hname, eq_of_name hu ht hn]; exact ⟨rfl, rfl⟩
      · rw [if_neg hn]; exact ⟨rfl, rfl⟩
    intro u hu v hv hud hvd
    obtain ⟨u0, hu0, rfl⟩ := List.mem_map.mp hu
    obtain ⟨v0, hv0, rfl⟩ := List.mem_map.mp hv
    rw [(hd u0 hu0).1] at hud
    rw [(hd v0 hv0).1] at hvd
    rw [(hd u0 hu0).2, (hd v0 hv0).2]
    exact k.single u0 hu0 v0 hv0 hud hvd

/-- `INSERT INTO n`. -/
def insertInto (k : Catalog) (n : RelName) (rs : List Row) : Except DbError Catalog :=
  match hf : k.find n with
  | none => .error (.undefinedTable n)
  | some t =>
    if htake : ∀ r ∈ rs, k.Takes t r then
      match h : t.insert rs with
      | none => .error (.uniqueViolation n)
      | some t' => .ok (k.fill t t' rs (find_mem hf).1 h htake)
    else .error (.checkViolation n)

/-- `INSERT INTO features VALUES (r)`. -/
def insertFeature (k : Catalog) (r : Row) : Except DbError Catalog :=
  match k.route r.collectionId with
  | none => .error .noPartition
  | some t => k.insertInto t.name [r]

/-- `INSERT INTO features SELECT ...`. -/
def insertFeatures (k : Catalog) (rs : List Row) : Except DbError Catalog :=
  rs.foldlM insertFeature k

/-! ## When a statement succeeds -/

theorem bind_eq_ok {ε α β : Type} {x : Except ε α} {f : α → Except ε β} {b : β} :
    (x >>= f) = .ok b ↔ ∃ a, x = .ok a ∧ f a = .ok b := by
  cases x with
  | error e => exact iff_of_false (by intro h; cases h) (by rintro ⟨a, h, _⟩; cases h)
  | ok a =>
    constructor
    · intro h; exact ⟨a, rfl, h⟩
    · rintro ⟨a', h, hf⟩; cases h; exact hf

theorem need_eq_ok {k : Catalog} {n : RelName} {t : Table} :
    k.need n = .ok t ↔ k.find n = some t := by
  unfold need
  cases k.find n <;> simp

theorem dropTable_ok {k k' : Catalog} {n : RelName} (h : k.dropTable n = .ok k') :
    k' = k.drop n := by
  obtain ⟨t, _, ht⟩ := bind_eq_ok.mp h
  cases ht; rfl

theorem deleteFrom_ok {k k' : Catalog} {n : RelName} {p : Row → Bool}
    (h : k.deleteFrom n p = .ok k') : k' = k.onTable n (Table.tame_keep fun r => !p r) := by
  obtain ⟨t, _, ht⟩ := bind_eq_ok.mp h
  cases ht; rfl

theorem truncateTable_ok {k k' : Catalog} {n : RelName} (h : k.truncateTable n = .ok k') :
    k' = k.onTable n Table.tame_truncate := by
  obtain ⟨t, _, ht⟩ := bind_eq_ok.mp h
  cases ht; rfl

theorem setLogged_ok {k k' : Catalog} {n : RelName} (h : k.setLogged n = .ok k') :
    k' = k.onTable n Table.tame_setLogged := by
  obtain ⟨t, _, ht⟩ := bind_eq_ok.mp h
  cases ht; rfl

theorem detachPartition_ok {k k' : Catalog} {n : RelName} (h : k.detachPartition n = .ok k') :
    ∃ t, k.find n = some t ∧ t.attached = true ∧ k' = k.onTable n Table.tame_detach := by
  obtain ⟨t, hn, ht⟩ := bind_eq_ok.mp h
  split at ht
  · rename_i ha; cases ht; exact ⟨t, need_eq_ok.mp hn, ha, rfl⟩
  · cases ht

theorem addCheck_ok {k k' : Catalog} {n con : RelName} {c : CollectionId}
    (h : k.addCheck n con c = .ok k') : k' = k.onTable n (Table.tame_addCheck con c) := by
  obtain ⟨t, _, ht⟩ := bind_eq_ok.mp h
  split at ht
  · cases ht; rfl
  · cases ht

theorem createTable_ok {k k' : Catalog} {n : RelName} {u : Bool}
    (h : k.createTable n u = .ok k') :
    k.find n = none ∧ k'.tables = k.tables ++ [⟨n, [], none, u, [], by simp⟩] := by
  unfold createTable at h
  split at h
  · rename_i hn; cases h; exact ⟨find_none.mpr hn, rfl⟩
  · cases h

theorem attachPartition_ok {k k' : Catalog} {n : RelName} {c : CollectionId}
    (h : k.attachPartition n c = .ok k') :
    ∃ t, k.find n = some t ∧ t.bound = none ∧ (∀ r ∈ t.rows, r.collectionId = c) ∧ k.Free c ∧
      ∃ hfree hrows, k' = k.bindTo n c hfree hrows := by
  obtain ⟨t, hn, ht⟩ := bind_eq_ok.mp h
  have hf := need_eq_ok.mp hn
  obtain ⟨hmem, hname⟩ := find_mem hf
  split at ht
  · cases ht
  · split at ht
    · rename_i hfree
      split at ht
      · rename_i hrows
        cases ht
        obtain ⟨hb, hr⟩ := hrows t hmem hname
        exact ⟨t, hf, hb, hr, hfree, hfree, hrows, rfl⟩
      · cases ht
    · cases ht

theorem insertInto_ok {k k' : Catalog} {n : RelName} {rs : List Row}
    (h : k.insertInto n rs = .ok k') :
    ∃ t t', ∃ (ht : t ∈ k.tables) (hi : t.insert rs = some t') (htake : ∀ r ∈ rs, k.Takes t r),
      k.find n = some t ∧ k' = k.fill t t' rs ht hi htake := by
  unfold insertInto at h
  split at h
  · cases h
  · rename_i t hf
    split at h
    · rename_i htake
      split at h
      · cases h
      · rename_i t' hi; cases h
        exact ⟨t, t', (find_mem hf).1, hi, htake, hf, rfl⟩
    · cases h

theorem route_some {k : Catalog} {c : CollectionId} {t : Table} (h : k.route c = some t) :
    t ∈ k.tables ∧ (c ∈ t.values ∨ t.bound = some .default ∧ ∀ u ∈ k.tables, c ∉ u.values) := by
  unfold route at h
  cases h1 : k.tables.find? fun t => decide (c ∈ t.values) with
  | some u =>
    rw [h1] at h
    cases h
    exact ⟨List.mem_of_find?_eq_some h1, .inl (by simpa using List.find?_some h1)⟩
  | none =>
    rw [h1] at h
    have hd : t.bound = some .default := by simpa using List.find?_some h
    refine ⟨List.mem_of_find?_eq_some h, .inr ⟨hd, fun u hu => ?_⟩⟩
    simpa using List.find?_eq_none.mp h1 u hu

/-! ## Rows and names after a statement -/

theorem find_createTable {k k' : Catalog} {n : RelName} {u : Bool}
    (h : k.createTable n u = .ok k') (m : RelName) :
    k'.find m = if m = n then some ⟨n, [], none, u, [], by simp⟩ else k.find m := by
  obtain ⟨hn, ht⟩ := createTable_ok h
  simp only [find] at hn ⊢
  rw [ht, List.find?_append]
  by_cases hm : m = n
  · subst hm; simp [hn]
  · have : (n == m) = false := by simpa using fun h => hm h.symm
    simp [hm, this]

theorem rowsOf_createTable {k k' : Catalog} {n : RelName} {u : Bool}
    (h : k.createTable n u = .ok k') (c : CollectionId) : k'.rowsOf c = k.rowsOf c := by
  rw [rowsOf_eq, rowsOf_eq, (createTable_ok h).2, List.flatMap_append]
  simp [Table.part, Table.attached]

theorem find_bindTo (k : Catalog) (n : RelName) (c : CollectionId) (hfree hrows) (m : RelName) :
    (k.bindTo n c hfree hrows).find m = (k.find m).map fun t =>
      if t.name = n then { t with bound := some (.values [c]) } else t := by
  simp only [find, bindTo, List.find?_map]
  congr 2
  funext t
  by_cases h : t.name = n <;> simp [h]

theorem rowsOf_bindTo_ne {k : Catalog} {n : RelName} {c d : CollectionId} {hfree hrows}
    (hd : d ≠ c) : (k.bindTo n c hfree hrows).rowsOf d = k.rowsOf d := by
  rw [rowsOf_eq, rowsOf_eq]
  simp only [bindTo, List.flatMap_map]
  refine List.flatMap_congr fun t ht => ?_
  by_cases h : t.name = n
  · obtain ⟨_, hr⟩ := hrows t ht h
    have hnil : t.part d = [] := part_eq_nil fun r hrt he => hd (he.symm.trans (hr r hrt))
    rw [if_pos h, hnil]
    exact part_eq_nil fun r hrt he => hd (he.symm.trans (hr r hrt))
  · simp [h]

/-- After the table is attached, the live rows of `c` are the rows it holds. -/
theorem rowsOf_bindTo {k : Catalog} {n : RelName} {c : CollectionId} {hfree hrows} {t : Table}
    (ht : k.find n = some t) : (k.bindTo n c hfree hrows).rowsOf c = t.rows := by
  obtain ⟨hmem, hname⟩ := find_mem ht
  have hf := find_bindTo k n c hfree hrows n
  rw [ht, Option.map_some, if_pos hname] at hf
  rw [rowsOf_of_value (find_mem hf).1 (by simp [Table.values])]
  have hall : ∀ r ∈ t.rows, r.collectionId = c := (hrows t hmem hname).2
  simp only [Table.part, Table.attached, Option.isSome_some, if_true]
  exact List.filter_eq_self.mpr fun r hr => by simpa using hall r hr

theorem find_fill (k : Catalog) (t t' : Table) (rs : List Row) (ht hi htake) (m : RelName) :
    (k.fill t t' rs ht hi htake).find m =
      (k.find m).map fun u => if u.name = t.name then t' else u := by
  simp only [find, fill, List.find?_map]
  congr 2
  funext u
  by_cases h : u.name = t.name <;> simp [h, (Table.insert_eq hi).1]

/-- A row goes to the rows of its collection, when the table is attached. -/
theorem rowsOf_fill {k : Catalog} {t t' : Table} {rs : List Row} {ht hi htake}
    (d : CollectionId) :
    ((k.fill t t' rs ht hi htake).rowsOf d).Perm
      (k.rowsOf d ++ if t.attached then rs.filter (·.collectionId == d) else []) := by
  obtain ⟨_, hb, hr⟩ := Table.insert_eq hi
  have hpart : t'.part d = t.part d ++
      if t.attached then rs.filter (·.collectionId == d) else [] := by
    have : t'.attached = t.attached := by simp [Table.attached, hb]
    by_cases ha : t.attached = true
    · simp [Table.part, this, ha, hr, List.filter_append]
    · simp [Table.part, this, ha]
  rw [rowsOf_eq, rowsOf_eq]
  simp only [fill, List.flatMap_map]
  have hnd : k.tables.Nodup := k.names.of_map
  have hinj : ∀ u ∈ k.tables, u.name = t.name → u = t := fun u hu h => eq_of_name hu ht h
  revert ht hnd hinj
  generalize k.tables = ts
  intro ht hnd hinj
  induction ts with
  | nil => cases ht
  | cons u us ih =>
    rw [List.nodup_cons] at hnd
    simp only [List.flatMap_cons]
    by_cases hu : u.name = t.name
    · have hut := hinj u (by simp) hu
      subst hut
      have hus : us.flatMap (fun v => Table.part d (if v.name = u.name then t' else v)) =
          us.flatMap (Table.part d) := by
        refine List.flatMap_congr fun v hv => ?_
        have : v.name ≠ u.name := fun h => hnd.1 (hinj v (by simp [hv]) h ▸ hv)
        simp [this]
      rw [hus, if_pos rfl, hpart, List.append_assoc, List.append_assoc]
      exact List.Perm.append_left _ List.perm_append_comm
    · rw [if_neg hu, List.append_assoc]
      have ht' : t ∈ us := by
        rcases List.mem_cons.mp ht with h | h
        · exact absurd (by rw [h]) hu
        · exact h
      exact List.Perm.append_left _ (@ih ht' hnd.2 fun v hv => hinj v (by simp [hv]))

end Catalog
end Db
end Geofastmap
