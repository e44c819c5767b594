import Mathlib.Data.List.Dedup
import Geofastmap.Db.Table
import Geofastmap.Import.Json
import Geofastmap.Paging.Arrange
import Geofastmap.Sql.Like

/-!
# Geofastmap.Items.Rows

What the items queries see of the database: the rows of one collection, the conjuncts of a
`WHERE` clause, and the choices that PostgreSQL makes when it runs a statement.

- `Clause.eval` is one conjunct on one row. A comparison with a number casts the stored text, and
  the cast raises when the text is no number.
- A text with NUL is refused when it is bound, whatever the rows are (`bindable`).
- `Choice` holds what a statement leaves open: in which order the conjuncts are evaluated and how
  rows of one rank are arranged. `scan_ok` and `scan_hasty` say when the choice matters.
- `groups` is `GROUP BY id`.
-/

namespace Geofastmap
namespace Items

open Db Import

structure Bbox (N : Type) where
  minx : N
  miny : N
  maxx : N
  maxy : N

inductive PropertyOp where
  | eq | ne | gt | gte | lt | lte | like | ilike
deriving DecidableEq, Repr

structure PropertyFilter where
  key : Text
  op : PropertyOp
  value : Text
deriving DecidableEq, Repr

/-- Why a statement fails. -/
inductive PgError where
  | invalidTextRepresentation
  | invalidEscapeSequence
  | characterNotInRepertoire
  | undefinedColumn
deriving DecidableEq, Repr

/-- PostgreSQL's and Python's functions on texts, with their number type `N`. The order of texts
under the collation of the database is that of `collate`. -/
structure Pg (κ N : Type) where
  collate : Text → κ
  collate_injective : Function.Injective collate
  /-- The `properties` column as Python receives it. -/
  properties : Text → Option (List (Text × Json))
  /-- `properties ->> key`. -/
  astext : Text → Text → Option Text
  /-- `properties ? key`. -/
  hasKey : Text → Text → Bool
  hasKey_of_astext : ∀ p key v, astext p key = some v → hasKey p key = true
  /-- `LOWER`. -/
  lower : Text → Text
  /-- A pattern raises where its last character is a backslash that escapes nothing, and the match
  comes to it. -/
  like : Text → Text → Except PgError Bool
  like_ok_iff : ∀ s p, (∃ b, like s p = .ok b) ↔ Sql.reachesEscape false p s = false
  ilike : Text → Text → Except PgError Bool
  ilike_ok_iff : ∀ s p, (∃ b, ilike s p = .ok b) ↔ Sql.reachesEscape false (lower p) (lower s) = false
  /-- `CAST(text AS FLOAT)`; `none` raises. -/
  cast : Text → Option N
  /-- Python's `float(text)`; `none` raises `ValueError`. -/
  float : Text → Option N
  /-- `properties_flat`. -/
  flat : Text → Option Text
  /-- `geometry && envelope AND ST_Intersects(geometry, envelope)`. -/
  inside : Text → Bbox N → Bool
  /-- `str.isalnum` of one character. -/
  isalnum : Char → Bool

/-- One conjunct of a `WHERE` clause. -/
inductive Clause (N : Type) where
  | ids (l : List Text)
  | bbox (b : Bbox N)
  | createdFrom (t : Nat)
  | createdTo (t : Nat)
  | property (key value : Text)
  | structured (f : PropertyFilter)
  | fulltext (pattern : Text)
  | visible (jobs : List Text)
  | after (id : Text)
  | afterPart (id : Text) (part : Nat)

variable {κ N : Type} [LinearOrder κ] [LinearOrder N] (pg : Pg κ N)

/-- `s.replace("\\", "\\\\").replace("%", "\\%").replace("_", "\\_")`. -/
def escapeLike (s : Text) : Text :=
  s.flatMap fun ch => if ch = '\\' ∨ ch = '%' ∨ ch = '_' then ['\\', ch] else [ch]

def propertyValueToLikePattern (value : Text) : Text × Bool :=
  if value.contains '*' then ((escapeLike value).map fun ch => if ch = '*' then '%' else ch, true)
  else (value, false)

/-- On a row without the property every comparison is `NULL`. -/
def propertyFilterClause (key value : Text) (r : Row) : Except PgError Bool :=
  match pg.astext r.properties key with
  | none => .ok false
  | some v =>
    match propertyValueToLikePattern value with
    | (pattern, true) => pg.like v pattern
    | (_, false) => .ok (v == value)

/-- A comparison of numbers where the value is a number, of texts otherwise. -/
def compareClause (v value : Text) (number : N → N → Bool) (text : κ → κ → Bool) :
    Except PgError Bool :=
  match pg.float value with
  | some n =>
    match pg.cast v with
    | some x => .ok (number x n)
    | none => .error .invalidTextRepresentation
  | none => .ok (text (pg.collate v) (pg.collate value))

def structuredFilterClause (f : PropertyFilter) (r : Row) : Except PgError Bool :=
  match pg.astext r.properties f.key with
  | none => .ok false
  | some v =>
    match f.op with
    | .eq => .ok (v == f.value)
    | .ne => .ok (v != f.value)
    | .like => pg.like v f.value
    | .ilike => pg.ilike v f.value
    | .gt => compareClause pg v f.value (fun x n => n < x) fun x n => n < x
    | .gte => compareClause pg v f.value (fun x n => n ≤ x) fun x n => n ≤ x
    | .lt => compareClause pg v f.value (fun x n => x < n) fun x n => x < n
    | .lte => compareClause pg v f.value (fun x n => x ≤ n) fun x n => x ≤ n

def Clause.eval : Clause N → Row → Except PgError Bool
  | .ids l, r => .ok (l.contains r.id)
  | .bbox b, r => .ok (r.geometry.any fun g => pg.inside g b)
  | .createdFrom t, r => .ok (t ≤ r.createdAt)
  | .createdTo t, r => .ok (r.createdAt ≤ t)
  | .property key value, r => propertyFilterClause pg key value r
  | .structured f, r => structuredFilterClause pg f r
  | .fulltext pattern, r =>
    match pg.flat r.properties with
    | none => .ok false
    | some s => pg.ilike s pattern
  | .visible jobs, r => .ok (r.bulkImportJobId.all fun j => !jobs.contains j)
  | .after id, r => .ok (pg.collate id < pg.collate r.id)
  | .afterPart id part, r => .ok (pg.collate id < pg.collate r.id || (r.id == id && part < r.partIndex))

/-! ## One statement -/

/-- The texts of a request in a conjunct. The other texts are those of rows. -/
def Clause.texts : Clause N → List Text
  | .property key value => [key, value]
  | .structured f => [f.key, f.value]
  | .fulltext pattern => [pattern]
  | _ => []

/-- PostgreSQL has no text with NUL. -/
def bindableText (t : Text) : Bool := !t.contains '\x00'

/-- PostgreSQL takes the parameters of a statement. -/
def bindable (cs : List (Clause N)) : Bool := cs.all fun c => c.texts.all bindableText

/-- What PostgreSQL is free to choose when it runs a statement. -/
structure Choice (N : Type) where
  /-- The order in which the conjuncts are evaluated on a row. -/
  conjuncts : Row → List (Clause N) → List (Clause N)
  perm : ∀ r cs, (conjuncts r cs).Perm cs
  /-- Groups of one rank come in this order. -/
  rank : Text → Nat

/-- Conjuncts are evaluated up to the first that is false. -/
def conjunction (r : Row) : List (Clause N) → Except PgError Bool
  | [] => .ok true
  | c :: cs =>
    match c.eval pg r with
    | .error e => .error e
    | .ok false => .ok false
    | .ok true => conjunction r cs

/-- The rows that a statement comes to, one after the other. -/
def select (ch : Choice N) (cs : List (Clause N)) : List Row → Except PgError (List Row)
  | [] => .ok []
  | r :: rows =>
    match conjunction pg r (ch.conjuncts r cs) with
    | .error e => .error e
    | .ok b =>
      match select ch cs rows with
      | .error e => .error e
      | .ok rest => .ok (if b then r :: rest else rest)

/-- `SELECT ... WHERE`. -/
def scan (ch : Choice N) (cs : List (Clause N)) (rows : List Row) : Except PgError (List Row) :=
  if bindable cs then select pg ch cs rows else .error .characterNotInRepertoire

/-- The conjunct raises on the row. -/
def Clause.raises (r : Row) (c : Clause N) : Bool :=
  match c.eval pg r with
  | .error _ => true
  | .ok _ => false

def Clause.holds (r : Row) (c : Clause N) : Bool :=
  match c.eval pg r with
  | .ok b => b
  | .error _ => false

/-- The parameters are taken, and no conjunct raises on any of the rows. -/
def Safe (cs : List (Clause N)) (rows : List Row) : Prop :=
  bindable cs = true ∧ ∀ r ∈ rows, ∀ c ∈ cs, c.raises pg r = false

/-- The rows that pass every conjunct. -/
def matching (cs : List (Clause N)) (rows : List Row) : List Row :=
  rows.filter fun r => cs.all fun c => c.holds pg r

theorem conjunction_safe {r : Row} {cs : List (Clause N)}
    (h : ∀ c ∈ cs, c.raises pg r = false) :
    conjunction pg r cs = .ok (cs.all fun c => c.holds pg r) := by
  induction cs with
  | nil => rfl
  | cons c cs ih =>
    have hc := h c (by simp)
    have ih := ih fun c hc => h c (by simp [hc])
    simp only [Clause.raises] at hc
    cases hev : c.eval pg r with
    | error e => simp [hev] at hc
    | ok b => cases b <;> simp [conjunction, Clause.holds, hev, ih]

theorem select_safe (ch : Choice N) {cs : List (Clause N)} {rows : List Row}
    (h : ∀ r ∈ rows, ∀ c ∈ cs, c.raises pg r = false) :
    select pg ch cs rows = .ok (matching pg cs rows) := by
  induction rows with
  | nil => rfl
  | cons r rows ih =>
    have hr : ∀ c ∈ ch.conjuncts r cs, c.raises pg r = false :=
      fun c hc => h r (by simp) c ((ch.perm r cs).mem_iff.mp hc)
    have ih := ih fun r' hr' => h r' (by simp [hr'])
    simp only [select, conjunction_safe pg hr, ih, (ch.perm r cs).all_eq]
    cases hall : cs.all fun c => c.holds pg r <;> simp [matching, hall]

/-- Where nothing raises, the order of evaluation does not matter. -/
theorem scan_ok (ch : Choice N) {cs : List (Clause N)} {rows : List Row} (h : Safe pg cs rows) :
    scan pg ch cs rows = .ok (matching pg cs rows) := by
  rw [scan, if_pos h.1, select_safe pg ch h.2]

theorem scan_unbindable (ch : Choice N) {cs : List (Clause N)} (h : bindable cs = false)
    (rows : List Row) : scan pg ch cs rows = .error .characterNotInRepertoire := by
  simp [scan, h]

/-- The choice that meets every error there is: conjuncts that raise are evaluated first. -/
def Choice.hasty : Choice N where
  conjuncts r cs := cs.filter (·.raises pg r) ++ cs.filter fun c => !c.raises pg r
  perm _ cs := List.filter_append_perm _ cs
  rank _ := 0

theorem conjunction_hasty {r : Row} {cs : List (Clause N)} (h : ∃ c ∈ cs, c.raises pg r = true) :
    ∃ e, conjunction pg r ((Choice.hasty pg).conjuncts r cs) = .error e := by
  obtain ⟨c, hc, hr⟩ := h
  have hne : cs.filter (·.raises pg r) ≠ [] := by
    intro he
    have := List.filter_eq_nil_iff.mp he c hc
    exact this hr
  obtain ⟨d, ds, hds⟩ := List.exists_cons_of_ne_nil hne
  have hd : d.raises pg r = true := by
    have : d ∈ cs.filter (·.raises pg r) := by simp [hds]
    exact (List.mem_filter.mp this).2
  simp only [Clause.raises] at hd
  cases hev : d.eval pg r with
  | ok b => simp [hev] at hd
  | error e => exact ⟨e, by simp [Choice.hasty, hds, conjunction, hev]⟩

theorem select_hasty {cs : List (Clause N)} {rows : List Row} {r : Row} (hr : r ∈ rows)
    {c : Clause N} (hc : c ∈ cs) (h : c.raises pg r = true) :
    ∃ e, select pg (Choice.hasty pg) cs rows = .error e := by
  induction rows with
  | nil => simp at hr
  | cons r' rows ih =>
    rcases List.mem_cons.mp hr with rfl | hr
    · obtain ⟨e, he⟩ := conjunction_hasty pg ⟨c, hc, h⟩
      exact ⟨e, by simp [select, he]⟩
    · obtain ⟨e, he⟩ := ih hr
      simp only [select, he]
      cases conjunction pg r' ((Choice.hasty pg).conjuncts r' cs) with
      | error e' => exact ⟨e', rfl⟩
      | ok b => exact ⟨e, rfl⟩

theorem scan_hasty {cs : List (Clause N)} {rows : List Row} (h : ¬ Safe pg cs rows) :
    ∃ e, scan pg (Choice.hasty pg) cs rows = .error e := by
  cases hbind : bindable cs with
  | false => exact ⟨_, scan_unbindable pg _ hbind rows⟩
  | true =>
    simp only [Safe, hbind, true_and, not_forall, Bool.not_eq_false] at h
    obtain ⟨r, hr, c, hc, hraise⟩ := h
    rw [scan, if_pos hbind]
    exact select_hasty pg hr hc hraise

/-! ## Grouping and sorting -/

omit [LinearOrder N]

/-- A logical feature in a page query: its id and `min(created_at)`. -/
structure Group where
  id : Text
  createdAt : Nat
deriving DecidableEq, Repr

/-- `GROUP BY id`. -/
def groups (rows : List Row) : List Group :=
  (rows.map Row.id).dedup.map fun i =>
    ⟨i, ((rows.filter (·.id == i)).map Row.createdAt).min?.getD 0⟩

theorem map_id_groups (rows : List Row) : (groups rows).map Group.id = (rows.map Row.id).dedup := by
  simp [groups, Function.comp_def]

/-- The `ORDER BY` of a page query. -/
inductive SortBy where
  | id
  | created
  | createdThenId
deriving DecidableEq, Repr

def SortBy.ascending (s : SortBy) (a b : Group) : Bool :=
  match s with
  | .id => pg.collate a.id ≤ pg.collate b.id
  | .created => a.createdAt ≤ b.createdAt
  | .createdThenId =>
    a.createdAt < b.createdAt || (a.createdAt == b.createdAt && pg.collate a.id ≤ pg.collate b.id)

def SortBy.le (s : SortBy) (desc : Bool) (a b : Group) : Bool :=
  if desc then s.ascending pg b a else s.ascending pg a b

theorem SortBy.ascending_trans (s : SortBy) (a b c : Group) (hab : s.ascending pg a b = true)
    (hbc : s.ascending pg b c = true) : s.ascending pg a c = true := by
  cases s with
  | id => simp only [ascending, decide_eq_true_eq] at *; exact hab.trans hbc
  | created => simp only [ascending, decide_eq_true_eq] at *; omega
  | createdThenId =>
    simp only [ascending, Bool.or_eq_true, Bool.and_eq_true, decide_eq_true_eq, beq_iff_eq] at *
    rcases hab with h1 | ⟨h1, h1'⟩ <;> rcases hbc with h2 | ⟨h2, h2'⟩
    · exact .inl (by omega)
    · exact .inl (by omega)
    · exact .inl (by omega)
    · exact .inr ⟨by omega, h1'.trans h2'⟩

theorem SortBy.ascending_total (s : SortBy) (a b : Group) :
    (s.ascending pg a b || s.ascending pg b a) = true := by
  cases s with
  | id => simpa [ascending] using le_total (pg.collate a.id) (pg.collate b.id)
  | created => simpa [ascending] using le_total a.createdAt b.createdAt
  | createdThenId =>
    simp only [ascending, Bool.or_eq_true, Bool.and_eq_true, decide_eq_true_eq, beq_iff_eq]
    rcases Nat.lt_trichotomy a.createdAt b.createdAt with h | h | h
    · exact .inl (.inl h)
    · rcases le_total (pg.collate a.id) (pg.collate b.id) with h' | h'
      · exact .inl (.inr ⟨h, h'⟩)
      · exact .inr (.inr ⟨h.symm, h'⟩)
    · exact .inr (.inl h)

theorem SortBy.le_trans (s : SortBy) (desc : Bool) (a b c : Group) (hab : s.le pg desc a b = true)
    (hbc : s.le pg desc b c = true) : s.le pg desc a c = true := by
  cases desc with
  | false => exact s.ascending_trans pg a b c hab hbc
  | true => exact s.ascending_trans pg c b a hbc hab

theorem SortBy.le_total (s : SortBy) (desc : Bool) (a b : Group) :
    (s.le pg desc a b || s.le pg desc b a) = true := by
  cases desc with
  | false => exact s.ascending_total pg a b
  | true => exact s.ascending_total pg b a

/-- Only `created_at` alone ranks two ids alike. -/
theorem SortBy.eq_of_le_le {s : SortBy} (hne : s ≠ .created) {desc : Bool} {a b : Group}
    (hab : s.le pg desc a b = true) (hba : s.le pg desc b a = true) : a.id = b.id := by
  have key : ∀ a b : Group, s.ascending pg a b = true → s.ascending pg b a = true → a.id = b.id := by
    intro a b h1 h2
    refine pg.collate_injective ?_
    cases s with
    | created => exact absurd rfl hne
    | id =>
      simp only [ascending, decide_eq_true_eq] at h1 h2
      exact le_antisymm h1 h2
    | createdThenId =>
      simp only [ascending, Bool.or_eq_true, Bool.and_eq_true, decide_eq_true_eq, beq_iff_eq] at h1 h2
      rcases h1 with h1 | ⟨h1, h1'⟩
      · omega
      · rcases h2 with h2 | ⟨h2, h2'⟩
        · omega
        · exact le_antisymm h1' h2'
  cases desc with
  | false => exact key a b hab hba
  | true => exact (key b a hab hba).symm

/-- Groups in the order of one run of the statement. -/
def ordered (ch : Choice N) (s : SortBy) (desc : Bool) (gs : List Group) : List Group :=
  Paging.arrange (s.le pg desc) (fun g => ch.rank g.id) gs

theorem ordered_arranged (ch : Choice N) (s : SortBy) (desc : Bool) (gs : List Group) :
    Paging.Arranged (s.le pg desc) gs (ordered pg ch s desc gs) :=
  Paging.arrange_arranged (s.le_trans pg desc) (s.le_total pg desc) _ gs

/-- Sorting the first rows of a sorted statement changes nothing. -/
theorem ordered_take (ch : Choice N) (s : SortBy) (desc : Bool) (gs : List Group) (n : Nat) :
    ordered pg ch s desc ((ordered pg ch s desc gs).take n) = (ordered pg ch s desc gs).take n := by
  refine List.mergeSort_of_pairwise ?_
  exact (Paging.arrange_pairwise (s.le_trans pg desc) (s.le_total pg desc) _ gs).sublist
    (List.take_sublist _ _)

end Items
end Geofastmap
