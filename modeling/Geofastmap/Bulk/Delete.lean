import Geofastmap.Bulk.State
import Geofastmap.Db.Resolve

/-!
# Geofastmap.Bulk.Delete

The batched deletes of `app/services/bulk_import.py`: `_delete_features_batched_sync` and
`_delete_shadow_stale_rows_sync`. Both select `ctid`s of matching rows with a `LIMIT` and delete by
`ctid` on `features`, in a loop of small commits. A `ctid` means a row only inside one partition.

* `Scan`           — the order in which the rows of a `LIMIT` query come; nothing fixes it.
* `deleteLoop_run` — what the loop leaves, slot by slot.
* `delete_exact_iff` — it leaves exactly the rows that do not match, for every order of the rows,
  if and only if no other row shares the `ctid` of a row that the delete on `features` can select.
-/

namespace Geofastmap
namespace Bulk

open Db Interleave

/-- A live row with its place. -/
structure Slot where
  table : RelName
  ctid : Nat
  row : Row
deriving DecidableEq

/-- `SELECT tableoid::regclass, ctid, * FROM features`. -/
def liveSlots (k : Catalog) : List Slot :=
  (k.tables.filter Table.attached).flatMap fun t => t.slots.map fun x => ⟨t.name, x.1, x.2⟩

/-- The orders in which a query without `ORDER BY` may return its rows, query by query. -/
structure Scan where
  child : Nat → List (Nat × Row) → List (Nat × Row)
  parent : Nat → List Slot → List Slot
  child_perm : ∀ i l, (child i l).Perm l
  parent_perm : ∀ i l, (parent i l).Perm l

/-- The rows where a `PropertyFilter` clause is true. -/
abbrev PropertyFilter := Row → Bool

/-- `_delete_where_clause`. -/
def deleteWhereClause (c : CollectionId) (filters : List PropertyFilter) (r : Row) : Bool :=
  r.collectionId == c && filters.all fun f => f r

/-- The rows of `c` in the scope of the filters that do not carry the tag of the job:
`bulk_import_job_id IS DISTINCT FROM keep_job_id`. -/
def shadowStaleClause (c : CollectionId) (keepJobId : Text) (filters : List PropertyFilter)
    (r : Row) : Bool :=
  r.collectionId == c && decide (r.bulkImportJobId ≠ some keepJobId) && filters.all fun f => f r

/-- `DELETE FROM n WHERE ctid IN (SELECT ctid FROM n LIMIT lim)`, with the rows deleted. -/
def deleteChildBatch (order : List (Nat × Row) → List (Nat × Row)) (n : RelName) (lim : Nat)
    (k : Catalog) : Except DbError (Nat × Catalog) := do
  let t ← k.need n
  let ids := ((order t.slots).take lim).map Prod.fst
  return ((t.slots.filter fun x => ids.contains x.1).length,
    k.onTable n (Table.tame_deleteSlots ids.contains))

/-- `DELETE FROM features WHERE ctid IN (SELECT ctid FROM features WHERE p LIMIT lim)`. -/
def deleteParentBatch (order : List Slot → List Slot) (p : Row → Bool) (lim : Nat)
    (k : Catalog) : Except DbError (Nat × Catalog) :=
  let ids := ((order ((liveSlots k).filter fun x => p x.row)).take lim).map Slot.ctid
  .ok (((liveSlots k).filter fun x => ids.contains x.ctid).length,
    k.onLive (Table.tame_deleteSlots ids.contains))

/-- `_is_retryable_db_error`. -/
def isRetryableDbError : Exn → Bool
  | .integrity _ => true
  | .other cls msg =>
    cls == "OperationalError".toList || cls == "DBAPIError".toList ||
      cls == "ProgrammingError".toList ||
      ["server closed the connection unexpectedly", "connection reset", "connection refused",
        "could not connect", "network is unreachable", "terminating connection",
        "connection is closed", "ssl syscall error", "deadlock detected"].any fun frag =>
          Sql.contains frag.toList (Sql.lower msg)
  | _ => false

/-- `_run_db_retry`, with `n` attempts left after this one. -/
def runDbRetry {α : Type} (p : Work α) : Nat → Work α
  | 0 => p
  | n + 1 => tryCatch p fun e => if isRetryableDbError e then runDbRetry p n else throw e

/-- `max(1, int(setting or 4))`. -/
def Settings.dbAttempts (cfg : Settings) : Nat :=
  if cfg.bulkDbRetryMaxAttempts = 0 then 4 else cfg.bulkDbRetryMaxAttempts

/-- `max(500, int(setting or 25000))`. -/
def Settings.deleteBatchRows (cfg : Settings) : Nat :=
  max 500 (if cfg.bulkReplaceDeleteBatchRows = 0 then 25000 else cfg.bulkReplaceDeleteBatchRows)

/-- `_raise_if_bulk_cancelled`. -/
def raiseIfBulkCancelled (cfg : Settings) : Option JobId → Work Unit
  | none => pure ()
  | some j => do
    let job ← getJob cfg j
    match job with
    | some job => if job.status = .cancelled then throw .bulkImportCancelled else pure ()
    | none => pure ()

section
variable (cfg : Settings) (scan : Scan) (c : CollectionId) (jobId : Option JobId)
  (partition : Option RelName) (p : Row → Bool)

/-- `DELETE` in the partition itself, when there is one. -/
def childBatch (i : Nat) : Option RelName → Work Nat
  | some n => transaction .db (deleteChildBatch (scan.child i) n cfg.deleteBatchRows)
  | none => pure 0

/-- `_one_batch`; the query order is the `i`-th. -/
def oneBatch (i : Nat) : Work Nat := do
  let removed ← childBatch cfg scan i partition
  let n ← transaction .deleteBatch (deleteParentBatch (scan.parent i) p cfg.deleteBatchRows)
  return removed + n

/-- The loop of both deletes, for at most `fuel` batches. Refreshing the mutex only moves its
time to live. -/
def deleteLoop : Nat → Nat → Work Nat
  | 0, _ => throw (.other "fuel".toList [])
  | fuel + 1, deletedTotal => do
    raiseIfBulkCancelled cfg jobId
    let n ← runDbRetry (oneBatch cfg scan partition p fuel) (cfg.dbAttempts - 1)
    if n = 0 then return deletedTotal
    else
      let _ ← getCollectionBulkMutexHolder cfg c
      if n < cfg.deleteBatchRows then return deletedTotal + n
      else deleteLoop fuel (deletedTotal + n)

/-- `_delete_features_batched_sync`: without filters the partition is emptied first. -/
def deleteFeaturesBatched (filters : List PropertyFilter) (fuel : Nat) : Work Nat := do
  let partition ← query fun k => k.resolveFeaturesPartitionRelname c
  deleteLoop cfg scan c jobId (if filters.isEmpty then partition else none)
    (deleteWhereClause c filters) fuel 0

/-- `_delete_shadow_stale_rows_sync`. -/
def deleteShadowStaleRows (keepJobId : Text) (filters : List PropertyFilter) (fuel : Nat) :
    Work Nat :=
  deleteLoop cfg scan c jobId none (shadowStaleClause c keepJobId filters) fuel 0

end

/-! ## Live rows by place -/

theorem map_row_liveSlots (k : Catalog) : (liveSlots k).map Slot.row = k.live := by
  simp only [liveSlots, Catalog.live, List.map_flatMap, List.map_map]
  refine List.flatMap_congr fun t _ => ?_
  exact t.map_snd_slots

theorem liveSlots_nodup (k : Catalog) : (liveSlots k).Nodup := by
  refine List.nodup_flatMap.mpr ⟨fun t _ => ?_, ?_⟩
  · refine List.Nodup.map ?_ t.slots_ctid_nodup.of_map
    rintro ⟨i, r⟩ ⟨j, q⟩ h
    simpa using h
  · refine (List.Pairwise.filter _ (List.pairwise_map.mp k.names)).imp fun {t u} hne => ?_
    intro x hx hx'
    obtain ⟨y, _, rfl⟩ := List.mem_map.mp hx
    obtain ⟨z, _, hz⟩ := List.mem_map.mp hx'
    exact hne (congrArg Slot.table hz).symm

/-- A delete in some tables empties slots of theirs. -/
theorem liveSlots_mapTables (k : Catalog) (sel : Table → Bool) (gone : Nat → Bool)
    (q : RelName → Bool) (hq : ∀ t ∈ k.tables, t.attached = true → q t.name = sel t) :
    liveSlots (k.mapTables sel (Table.tame_deleteSlots gone)) =
      (liveSlots k).filter fun x => !(q x.table && gone x.ctid) := by
  simp only [liveSlots, Catalog.mapTables]
  revert hq
  induction k.tables with
  | nil => intro _; rfl
  | cons t ts ih =>
    intro hq
    have ih := ih fun u hu => hq u (by simp [hu])
    by_cases ha : t.attached = true
    · have hqt := hq t (by simp) ha
      have hat : (if sel t then t.deleteSlots gone else t).attached = true := by
        split <;> simpa [Table.attached] using ha
      simp only [List.map_cons, List.filter_cons, hat, ha, if_true, List.flatMap_cons,
        List.filter_append, ih, List.append_cancel_right_eq]
      by_cases hs : sel t = true
      · simp [hs, hqt, Table.slots_deleteSlots, List.filter_map, Function.comp_def]
      · simp [hs, hqt, List.filter_map, Function.comp_def]
    · have hat : (if sel t then t.deleteSlots gone else t).attached = false := by
        split <;> simpa [Table.attached] using ha
      simpa [List.filter_cons, hat, ha] using ih

theorem liveSlots_deleteCtids (k : Catalog) (gone : Nat → Bool) :
    liveSlots (k.onLive (Table.tame_deleteSlots gone)) =
      (liveSlots k).filter fun x => !gone x.ctid := by
  have h := liveSlots_mapTables k Table.attached gone (fun _ => true) fun t _ ha => ha.symm
  simp only [Bool.true_and] at h
  exact h

theorem liveSlots_deleteCtidsIn (k : Catalog) (n : RelName) (gone : Nat → Bool) :
    liveSlots (k.onTable n (Table.tame_deleteSlots gone)) =
      (liveSlots k).filter fun x => !(x.table == n && gone x.ctid) :=
  liveSlots_mapTables k (·.name == n) gone (· == n) fun _ _ _ => rfl

/-- The slots of an attached table among all live ones. -/
theorem liveSlots_of_table {k : Catalog} {n : RelName} {t : Table} (ht : k.find n = some t)
    (ha : t.attached = true) :
    (liveSlots k).filter (·.table == n) = t.slots.map fun x => ⟨n, x.1, x.2⟩ := by
  obtain ⟨hmem, hn⟩ := Catalog.find_mem ht
  have hnd : (k.tables.filter Table.attached).Nodup := k.names.of_map.filter _
  rw [liveSlots, List.filter_flatMap,
    Catalog.flatMap_eq_of_unique hnd (List.mem_filter.mpr ⟨hmem, ha⟩) fun u hu hne => ?_]
  · rw [List.filter_eq_self.mpr, hn]
    intro x hx
    obtain ⟨y, _, rfl⟩ := List.mem_map.mp hx
    simpa using hn
  · rw [List.filter_eq_nil_iff]
    intro x hx
    obtain ⟨y, _, rfl⟩ := List.mem_map.mp hx
    have hu' := (List.mem_filter.mp hu).1
    simpa using fun h : u.name = n => hne (Catalog.eq_of_name hu' hmem (h.trans hn.symm))

/-! ## What a `LIMIT` query picks -/

section
variable {α : Type} (key : α → Nat) {order : List α → List α} {l m : List α} {lim : Nat}

theorem picked_of_short (ho : (order l).Perm l) (h : l.length ≤ lim) {a : α} (ha : a ∈ l) :
    (((order l).take lim).map key).contains (key a) = true := by
  rw [List.take_of_length_le (by rw [ho.length_eq]; exact h)]
  exact List.contains_iff_mem.mpr (List.mem_map_of_mem (ho.mem_iff.mpr ha))

/-- A full `LIMIT` deletes that many rows at least. -/
theorem le_picked (ho : (order l).Perm l) (hl : l.Nodup) (hsub : l ⊆ m) (h : lim ≤ l.length) :
    lim ≤ (m.filter fun a => (((order l).take lim).map key).contains (key a)).length := by
  have hlen : ((order l).take lim).length = lim := by
    rw [List.length_take, ho.length_eq, Nat.min_eq_left h]
  have hnd : ((order l).take lim).Nodup := (ho.nodup_iff.mpr hl).sublist (List.take_sublist ..)
  rw [← hlen] at h ⊢
  refine (List.subperm_of_subset hnd fun a ha => ?_).length_le
  refine List.mem_filter.mpr ⟨hsub (ho.mem_iff.mp (List.mem_of_mem_take ha)), ?_⟩
  rw [hlen]
  exact List.contains_iff_mem.mpr (List.mem_map_of_mem ha)

end

/-! ## One batch -/

section
variable {partition : Option RelName} {p : Row → Bool} {lim : Nat}

/-- How many live rows a partition has. -/
def rowsIn (n : RelName) (l : List Slot) : Nat := (l.filter (·.table == n)).length

/-- The matching rows that the delete on `features` can select: not the ones that the delete in
the partition takes before it. -/
def Selectable (partition : Option RelName) (p : Row → Bool) (lim : Nat) (l : List Slot)
    (x : Slot) : Prop :=
  p x.row = true ∧ ∀ n ∈ partition, x.table = n → lim < rowsIn n l

/-- What a batch, or several, leave of the live rows `l`. -/
structure Leaves (partition : Option RelName) (p : Row → Bool) (lim : Nat) (l l' : List Slot) :
    Prop where
  kept : ∃ f, l' = l.filter f
  gone : ∀ x ∈ l, x ∉ l' → (∃ n ∈ partition, x.table = n) ∨
    ∃ y ∈ l, Selectable partition p lim l y ∧ y.ctid = x.ctid
  spread : ∀ y ∈ l, y ∉ l' → (∀ n ∈ partition, y.table ≠ n) →
    ∀ x ∈ l, x.ctid = y.ctid → x ∉ l'

theorem Leaves.subset {l l' : List Slot} (h : Leaves partition p lim l l') : l' ⊆ l := by
  obtain ⟨f, rfl⟩ := h.kept
  exact fun x hx => List.mem_of_mem_filter hx

theorem rowsIn_le {n : RelName} {l : List Slot} (f : Slot → Bool) :
    rowsIn n (l.filter f) ≤ rowsIn n l := by
  rw [rowsIn, rowsIn, List.filter_filter]
  refine (List.Sublist.length_le ?_)
  rw [show (fun a : Slot => a.table == n && f a) = fun a => f a && (a.table == n) from
    funext fun a => Bool.and_comm .., ← List.filter_filter]
  exact List.filter_sublist

theorem Leaves.trans {l₁ l₂ l₃ : List Slot} (h₁ : Leaves partition p lim l₁ l₂)
    (h₂ : Leaves partition p lim l₂ l₃) : Leaves partition p lim l₁ l₃ := by
  obtain ⟨f, hf⟩ := h₁.kept
  obtain ⟨g, hg⟩ := h₂.kept
  refine ⟨⟨fun x => g x && f x, by rw [hg, hf, List.filter_filter]⟩, ?_, ?_⟩
  · intro x hx hx3
    by_cases hx2 : x ∈ l₂
    · rcases h₂.gone x hx2 hx3 with h | ⟨y, hy, ⟨hp, hs⟩, hc⟩
      · exact .inl h
      · refine .inr ⟨y, h₁.subset hy, ⟨hp, fun n hn ht => ?_⟩, hc⟩
        have hle : rowsIn n l₂ ≤ rowsIn n l₁ := hf ▸ rowsIn_le f
        exact Nat.lt_of_lt_of_le (hs n hn ht) hle
    · exact h₁.gone x hx hx2
  · intro y hy hy3 hn x hx hc hx3
    have hx2 := h₂.subset hx3
    by_cases hy2 : y ∈ l₂
    · exact h₂.spread y hy2 hy3 hn x hx2 hc hx3
    · exact h₁.spread y hy hy2 hn x hx hc hx2

/-- A delete in the partition, then one on `features`. A row that the first leaves in the
partition shows that the partition had more rows than one batch. -/
theorem leaves_batch {l l₁ : List Slot} {gone : Nat → Bool} (hkept : ∃ f, l₁ = l.filter f)
    (hchild : ∀ x ∈ l, x ∉ l₁ → ∃ n ∈ partition, x.table = n)
    (hmore : ∀ y ∈ l₁, ∀ n ∈ partition, y.table = n → lim < rowsIn n l)
    (hgone : ∀ i, gone i = true → ∃ y ∈ l₁, p y.row = true ∧ y.ctid = i) :
    Leaves partition p lim l (l₁.filter fun x => !gone x.ctid) := by
  obtain ⟨f, rfl⟩ := hkept
  have hl : ∀ {x}, x ∈ l.filter f → x ∉ (l.filter f).filter (fun x => !gone x.ctid) →
      gone x.ctid = true := by
    intro x hx hx'
    simpa [List.mem_filter, List.mem_filter.mp hx] using hx'
  refine ⟨⟨_, List.filter_filter ..⟩, fun x hx hx' => ?_, fun y hy hy' hn x _ hc hx' => ?_⟩
  · by_cases hx1 : x ∈ l.filter f
    · obtain ⟨y, hy, hp, hi⟩ := hgone _ (hl hx1 hx')
      exact .inr ⟨y, List.mem_of_mem_filter hy, ⟨hp, hmore y hy⟩, hi⟩
    · exact .inl (hchild x hx hx1)
  · by_cases hy1 : y ∈ l.filter f
    · have hg := hl hy1 hy'
      rw [← hc] at hg
      simp [List.mem_filter, hg] at hx'
    · obtain ⟨n, hn', ht⟩ := hchild y hy hy1
      exact hn n hn' ht

theorem length_filter_not {α : Type} (l : List α) (f : α → Bool) :
    (l.filter fun x => !f x).length + (l.filter f).length = l.length := by
  induction l with
  | nil => rfl
  | cons a l ih => by_cases h : f a = true <;> simp [h] <;> omega

/-- What one batch does: it leaves less, and fewer rows than the limit mean that nothing that
matches and nothing of the partition is left. -/
structure Batch (partition : Option RelName) (p : Row → Bool) (lim : Nat) (l l' : List Slot)
    (n : Nat) : Prop extends Leaves partition p lim l l' where
  count : l'.length + n = l.length
  short : n < lim → (∀ x ∈ l', p x.row = false) ∧ ∀ m ∈ partition, ∀ x ∈ l', x.table ≠ m

variable (partition p lim) in
theorem batch_parent {k : Catalog} {order : List Slot → List Slot} (ho : ∀ l, (order l).Perm l)
    {l : List Slot} {removed : Nat} (hkept : ∃ f, liveSlots k = l.filter f)
    (hcount : (liveSlots k).length + removed = l.length)
    (hchild : ∀ x ∈ l, x ∉ liveSlots k → ∃ n ∈ partition, x.table = n)
    (hmore : ∀ y ∈ liveSlots k, ∀ n ∈ partition, y.table = n → lim < rowsIn n l)
    (hshort : removed < lim → ∀ m ∈ partition, ∀ x ∈ liveSlots k, x.table ≠ m) :
    ∃ n k', deleteParentBatch order p lim k = .ok (n, k') ∧
      Batch partition p lim l (liveSlots k') (removed + n) ∧ (∀ m t, k.find m = some t →
        t.attached = true → ∃ t', k'.find m = some t' ∧ t'.attached = true) := by
  have hnd : ((liveSlots k).filter fun x => p x.row).Nodup := (liveSlots_nodup k).filter _
  have hsub : (liveSlots k).filter (fun x => p x.row) ⊆ liveSlots k :=
    fun x hx => List.mem_of_mem_filter hx
  refine ⟨_, _, rfl, ?_, ?_⟩
  · rw [liveSlots_deleteCtids]
    refine ⟨leaves_batch hkept hchild hmore fun i hi => ?_, ?_, fun hlt => ⟨fun x hx => ?_, ?_⟩⟩
    · obtain ⟨y, hy, hk⟩ := List.mem_map.mp (List.contains_iff_mem.mp hi)
      have hy' := (ho _).mem_iff.mp (List.mem_of_mem_take hy)
      exact ⟨y, hsub hy', (List.mem_filter.mp hy').2, hk⟩
    · have := length_filter_not (liveSlots k) fun x => (((order ((liveSlots k).filter
        fun x => p x.row)).take lim).map Slot.ctid).contains x.ctid
      omega
    · -- a `LIMIT` that is not reached selects every matching row
      by_contra hp
      have hp : p x.row = true := by simpa using hp
      obtain ⟨hxl, hng⟩ := List.mem_filter.mp hx
      by_cases hlen : lim ≤ ((liveSlots k).filter fun x => p x.row).length
      · have := le_picked Slot.ctid (ho _) hnd hsub hlen
        omega
      · have hall := picked_of_short Slot.ctid (ho ((liveSlots k).filter fun x => p x.row))
          (Nat.le_of_lt (Nat.lt_of_not_le hlen)) (List.mem_filter.mpr ⟨hxl, hp⟩)
        rw [hall] at hng
        cases hng
    · intro m hm x hx
      exact hshort (by omega) m hm x (List.mem_of_mem_filter hx)
  · intro m t ht ha
    have hf := Catalog.find_mapTables k Table.attached (Table.tame_deleteSlots
      (((order ((liveSlots k).filter fun x => p x.row)).take lim).map Slot.ctid).contains) m
    rw [ht, Option.map_some, if_pos ha] at hf
    exact ⟨_, hf, ha⟩

variable (lim) in
/-- What the delete in the partition leaves for the delete on `features`. -/
theorem child_leaves {k : Catalog} {order : List (Nat × Row) → List (Nat × Row)}
    (ho : ∀ l, (order l).Perm l) {m : RelName} {t : Table} (ht : k.find m = some t)
    (ha : t.attached = true) :
    ∃ n k₁, deleteChildBatch order m lim k = .ok (n, k₁) ∧
      (∃ f, liveSlots k₁ = (liveSlots k).filter f) ∧
      (liveSlots k₁).length + n = (liveSlots k).length ∧
      (∀ x ∈ liveSlots k, x ∉ liveSlots k₁ → x.table = m) ∧
      (∀ y ∈ liveSlots k₁, y.table = m → lim < rowsIn m (liveSlots k)) ∧
      (n < lim → ∀ x ∈ liveSlots k₁, x.table ≠ m) ∧
      (∃ t', k₁.find m = some t' ∧ t'.attached = true) := by
  have hslots := liveSlots_of_table ht ha
  set ids := ((order t.slots).take lim).map Prod.fst with hids
  set f : Slot → Bool := fun x => !(x.table == m && ids.contains x.ctid) with hf
  have hl : liveSlots (k.onTable m (Table.tame_deleteSlots ids.contains)) =
      (liveSlots k).filter f := liveSlots_deleteCtidsIn k m ids.contains
  have hn : (t.slots.filter fun x => ids.contains x.1).length =
      ((liveSlots k).filter fun x => x.table == m && ids.contains x.ctid).length := by
    rw [show (fun x : Slot => x.table == m && ids.contains x.ctid) =
      fun x => ids.contains x.ctid && (x.table == m) from funext fun x => Bool.and_comm ..,
      ← List.filter_filter, hslots, List.filter_map, List.length_map]
    rfl
  have hlen : rowsIn m (liveSlots k) = t.slots.length := by
    rw [rowsIn, hslots, List.length_map]
  have hslot : ∀ x ∈ liveSlots k, x.table = m → (x.ctid, x.row) ∈ t.slots := by
    intro x hx hxm
    have : x ∈ (liveSlots k).filter (·.table == m) := List.mem_filter.mpr ⟨hx, by simpa using hxm⟩
    rw [hslots] at this
    obtain ⟨y, hy, rfl⟩ := List.mem_map.mp this
    exact hy
  -- a row of the partition that is left was not picked, so the limit was reached
  have hmore : ∀ y ∈ (liveSlots k).filter f, y.table = m → lim < t.slots.length := by
    intro y hy hym
    obtain ⟨hyl, hyf⟩ := List.mem_filter.mp hy
    by_contra hle
    have := picked_of_short Prod.fst (ho t.slots) (Nat.le_of_not_lt hle) (hslot y hyl hym)
    simp only [hf, hym, beq_self_eq_true, Bool.true_and] at hyf
    rw [hids, this] at hyf
    cases hyf
  refine ⟨_, _, by simp only [deleteChildBatch, Catalog.need, ht]; rfl, ?_⟩
  rw [hl, hn]
  refine ⟨⟨f, rfl⟩, ?_, ?_, fun y hy hym => hlen ▸ hmore y hy hym, fun hlt x hx hxm => ?_, ?_⟩
  · exact length_filter_not (liveSlots k) fun x => x.table == m && ids.contains x.ctid
  · intro x hx hx'
    simp only [List.mem_filter, hx, true_and, hf, Bool.not_eq_true', Bool.not_eq_false,
      Bool.and_eq_true, beq_iff_eq] at hx'
    exact hx'.1
  · have hle := le_picked Prod.fst (ho t.slots) t.slots_ctid_nodup.of_map
      (List.Subset.refl _) (Nat.le_of_lt (hmore x hx hxm))
    rw [← hids, hn] at hle
    omega
  · rw [Catalog.find_onTable, if_pos rfl, ht]
    exact ⟨_, rfl, ha⟩

/-- The partition that is emptied first is attached. -/
def Attached (partition : Option RelName) (k : Catalog) : Prop :=
  ∀ m ∈ partition, ∃ t, k.find m = some t ∧ t.attached = true

variable {cfg : Settings} {scan : Scan} {s : Sys}

theorem run_transaction_ok {α : Type} {l : Label} {f : Catalog → Except DbError (α × Catalog)}
    {a : α} {k : Catalog} (h : f s.catalog = .ok (a, k)) :
    (transaction l f).run s = (.ok a, { s with catalog := k }) := by
  simp only [transaction, Prog.run_atomic, h]

theorem run_runDbRetry_ok {α : Type} {q : Work α} {a : α} {s' : Sys} (h : q.run s = (.ok a, s'))
    (n : Nat) : (runDbRetry q n).run s = (.ok a, s') := by
  cases n with
  | zero => exact h
  | succ n => exact (Prog.run_tryCatch q _ s).trans (by rw [h])

variable (p cfg scan) in
theorem oneBatch_run (i : Nat) (hatt : Attached partition s.catalog) :
    ∃ n k, (oneBatch cfg scan partition p i).run s = (.ok n, { s with catalog := k }) ∧
      Batch partition p cfg.deleteBatchRows (liveSlots s.catalog) (liveSlots k) n ∧
      Attached partition k := by
  cases partition with
  | none =>
    obtain ⟨n, k, hk, hb, _⟩ := batch_parent none p cfg.deleteBatchRows (scan.parent_perm i)
      ⟨fun _ => true, (List.filter_true (liveSlots s.catalog)).symm⟩ (Nat.add_zero _)
      (fun x hx hx' => absurd hx hx') (fun _ _ n hn => by cases hn) (fun _ n hn => by cases hn)
    refine ⟨0 + n, k, ?_, hb, fun m hm => by cases hm⟩
    simp [oneBatch, childBatch, run_transaction_ok hk]
  | some m =>
    obtain ⟨t, ht, ha⟩ := hatt m rfl
    obtain ⟨r, k₁, hk₁, hkept, hcount, hgone, hmore, hshort, t', ht', ha'⟩ :=
      child_leaves cfg.deleteBatchRows (scan.child_perm i) ht ha
    obtain ⟨n, k, hk, hb, hatt'⟩ := batch_parent (some m) p cfg.deleteBatchRows
      (scan.parent_perm i) hkept hcount (fun x hx hx' => ⟨m, rfl, hgone x hx hx'⟩)
      (fun y hy n hn hyn => by cases hn; exact hmore y hy hyn)
      (fun hlt n hn => by cases hn; exact hshort hlt)
    refine ⟨r + n, k, ?_, hb, fun q hq => ?_⟩
    · simp [oneBatch, childBatch, run_transaction_ok hk₁,
        run_transaction_ok (s := { s with catalog := k₁ }) hk]
    · cases hq; exact hatt' m t' ht' ha'

/-! ## The loop -/

/-- The job, if there is one, was not cancelled. -/
def NotCancelled (jobId : Option JobId) (s : Sys) : Prop :=
  ∀ j ∈ jobId, ∀ job, s.job j = some job → job.status ≠ .cancelled

theorem run_redisRead {α : Type} (n : Nat) (f : Sys → α) :
    (runRedisRetry n (redisRead f)).run s = (.ok (f s), s) := by
  unfold runRedisRetry redisRead
  exact Prog.run_retry (Prog.run_read Label.redis f s) _

theorem run_getJob (j : JobId) : (getJob cfg j).run s = (.ok (s.job j), s) := by
  unfold getJob runRedisRetry
  exact Prog.run_retry (Prog.run_read (Label.seeJob j) (fun t : Sys => t.job j) s) _

theorem run_raiseIfBulkCancelled {jobId : Option JobId} (h : NotCancelled jobId s) :
    (raiseIfBulkCancelled cfg jobId).run s = (.ok (), s) := by
  cases jobId with
  | none => rfl
  | some j =>
    simp only [raiseIfBulkCancelled, Prog.run_bind, run_getJob]
    cases hj : s.job j with
    | none => rfl
    | some job => simp [h j rfl job hj]

theorem run_getHolder (cfg : Settings) (c : CollectionId) (s : Sys) :
    ∃ o, (getCollectionBulkMutexHolder cfg c).run s = (.ok o, s) := by
  unfold getCollectionBulkMutexHolder
  split
  · exact ⟨none, rfl⟩
  · exact ⟨_, run_redisRead _ _⟩

variable (p cfg scan) in
/-- With enough fuel the loop ends, no matching row is left, and its first batch is what the
first iteration did. -/
theorem deleteLoop_run (c : CollectionId) {jobId : Option JobId} (fuel : Nat) :
    ∀ {s : Sys} (tot : Nat), (liveSlots s.catalog).length < fuel + 1 →
      Attached partition s.catalog → NotCancelled jobId s →
      ∃ total k, (deleteLoop cfg scan c jobId partition p (fuel + 1) tot).run s =
          (.ok total, { s with catalog := k }) ∧
        Leaves partition p cfg.deleteBatchRows (liveSlots s.catalog) (liveSlots k) ∧
        (∀ x ∈ liveSlots k, p x.row = false) ∧
        (∀ m ∈ partition, ∀ x ∈ liveSlots k, x.table ≠ m) ∧
        ∃ n k₁, (oneBatch cfg scan partition p fuel).run s =
          (.ok n, { s with catalog := k₁ }) ∧ liveSlots k ⊆ liveSlots k₁ := by
  have hlim : 0 < cfg.deleteBatchRows := Nat.lt_of_lt_of_le (by decide) (Nat.le_max_left 500 _)
  induction fuel with
  | zero =>
    intro s tot hfuel hatt hnc
    obtain ⟨n, k, hk, hb, _⟩ := oneBatch_run p cfg scan 0 hatt
    have hn : n = 0 := by have := hb.count; omega
    obtain ⟨h1, h2⟩ := hb.short (by omega)
    refine ⟨tot, k, ?_, hb.toLeaves, h1, h2, n, k, hk, List.Subset.refl _⟩
    simp [deleteLoop, run_raiseIfBulkCancelled hnc, run_runDbRetry_ok hk, hn]
  | succ fuel ih =>
    intro s tot hfuel hatt hnc
    obtain ⟨n, k, hk, hb, hatt'⟩ := oneBatch_run p cfg scan (fuel + 1) hatt
    by_cases hn : n = 0
    · obtain ⟨h1, h2⟩ := hb.short (by omega)
      refine ⟨tot, k, ?_, hb.toLeaves, h1, h2, n, k, hk, List.Subset.refl _⟩
      simp [deleteLoop, run_raiseIfBulkCancelled hnc, run_runDbRetry_ok hk, hn]
    · obtain ⟨o, ho⟩ := run_getHolder cfg c { s with catalog := k }
      by_cases hlt : n < cfg.deleteBatchRows
      · obtain ⟨h1, h2⟩ := hb.short hlt
        refine ⟨tot + n, k, ?_, hb.toLeaves, h1, h2, n, k, hk, List.Subset.refl _⟩
        simp [deleteLoop, run_raiseIfBulkCancelled hnc, run_runDbRetry_ok hk, hn, ho, hlt]
      · -- a full batch took rows away, so the rest of the fuel is enough
        have hlen := hb.count
        obtain ⟨total, k', hk', hl, h1, h2, _⟩ := ih (s := { s with catalog := k }) (tot + n)
          (by simp only; omega) hatt' hnc
        refine ⟨total, k', ?_, hb.toLeaves.trans hl, h1, h2, n, k, hk, hl.subset⟩
        rw [deleteLoop]
        simp [run_raiseIfBulkCancelled hnc, run_runDbRetry_ok hk, hn, ho, hlt, hk']

/-! ## Exactness -/

/-- The live rows are the ones from before that do not match. -/
def Exactly (p : Row → Bool) (k k' : Catalog) : Prop := k'.live = k.live.filter fun r => !p r

/-- No row but matching ones shares a `ctid` with a row that the delete on `features` can select,
and the partition that is emptied first has matching rows only. -/
def Unshared (partition : Option RelName) (p : Row → Bool) (lim : Nat) (l : List Slot) : Prop :=
  (∀ m ∈ partition, ∀ x ∈ l, x.table = m → p x.row = true) ∧
    ∀ y ∈ l, Selectable partition p lim l y → ∀ x ∈ l, x.ctid = y.ctid → p x.row = true

/-- Slots tell the rows apart: the rows are exactly the others only when the slots are. -/
theorem mem_of_exactly {k k' : Catalog} (hkept : ∃ f, liveSlots k' = (liveSlots k).filter f)
    (hnone : ∀ x ∈ liveSlots k', p x.row = false) (h : Exactly p k k') {x : Slot}
    (hx : x ∈ liveSlots k) (hp : p x.row = false) : x ∈ liveSlots k' := by
  obtain ⟨f, hf⟩ := hkept
  have hrest : (liveSlots k').Sublist ((liveSlots k).filter fun x => !p x.row) := by
    have hself : (liveSlots k').filter (fun x => !p x.row) = liveSlots k' :=
      List.filter_eq_self.mpr fun x hx => by simp [hnone x hx]
    rw [← hself, hf]
    exact List.filter_sublist.filter _
  have hlen : (liveSlots k').length = ((liveSlots k).filter fun x => !p x.row).length := by
    have := congrArg List.length h
    rw [← map_row_liveSlots, ← map_row_liveSlots, List.filter_map, List.length_map,
      List.length_map] at this
    exact this
  rw [hrest.eq_of_length hlen]
  exact List.mem_filter.mpr ⟨hx, by simp [hp]⟩

theorem exactly_of_leaves {k k' : Catalog} (hu : Unshared partition p lim (liveSlots k))
    (hl : Leaves partition p lim (liveSlots k) (liveSlots k'))
    (hnone : ∀ x ∈ liveSlots k', p x.row = false) : Exactly p k k' := by
  obtain ⟨f, hf⟩ := hl.kept
  have heq : liveSlots k' = (liveSlots k).filter fun x => !p x.row := by
    rw [hf]
    refine List.filter_congr fun x hx => ?_
    by_cases hfx : f x = true
    · have := hnone x (by rw [hf]; exact List.mem_filter.mpr ⟨hx, hfx⟩)
      simp [hfx, this]
    · have hx' : x ∉ liveSlots k' := by rw [hf]; simp [List.mem_filter, hfx]
      have hp : p x.row = true := by
        rcases hl.gone x hx hx' with ⟨m, hm, ht⟩ | ⟨y, hy, hsel, hc⟩
        · exact hu.1 m hm x hx ht
        · exact hu.2 y hy hsel x hx hc.symm
      simp [hp, hfx]
  rw [Exactly, ← map_row_liveSlots, ← map_row_liveSlots, heq, List.filter_map]
  rfl

/-- An order that returns one row last in the partition and first on `features`. -/
def scanLeaving (y : Slot) : Scan where
  child _ l := if (y.ctid, y.row) ∈ l then l.erase (y.ctid, y.row) ++ [(y.ctid, y.row)] else l
  parent _ l := if y ∈ l then y :: l.erase y else l
  child_perm _ l := by
    split
    · rename_i h
      exact (List.perm_append_singleton _ _).trans (List.perm_cons_erase h).symm
    · exact List.Perm.refl l
  parent_perm _ l := by
    split
    · rename_i h; exact (List.perm_cons_erase h).symm
    · exact List.Perm.refl l

theorem not_picked_last {l : List (Nat × Row)} (hl : (l.map Prod.fst).Nodup) {a : Nat × Row}
    (ha : a ∈ l) (h : lim < l.length) :
    (((l.erase a ++ [a]).take lim).map Prod.fst).contains a.1 = false := by
  have hlen : lim ≤ (l.erase a).length := by rw [List.length_erase_of_mem ha]; omega
  rw [List.take_append_of_le_length hlen]
  by_contra hc
  have hc : ((l.erase a).take lim |>.map Prod.fst).contains a.1 = true := by simpa using hc
  obtain ⟨b, hb, hba⟩ := List.mem_map.mp (List.contains_iff_mem.mp hc)
  have hb' := List.mem_of_mem_take hb
  have hbl := List.mem_of_mem_erase hb'
  have := List.inj_on_of_nodup_map hl hbl ha hba
  rw [this] at hb'
  exact ((List.Nodup.mem_erase_iff hl.of_map).mp hb').1 rfl

/-- In that order the first batch deletes every row with the `ctid` of the row. -/
theorem oneBatch_leaving {m : RelName} {y : Slot} (hatt : Attached (some m) s.catalog)
    (hy : y ∈ liveSlots s.catalog) (hp : p y.row = true) (hym : y.table = m)
    (hmore : cfg.deleteBatchRows < rowsIn m (liveSlots s.catalog)) {i n : Nat} {k : Catalog}
    (hrun : (oneBatch cfg (scanLeaving y) (some m) p i).run s = (.ok n, { s with catalog := k }))
    {x : Slot} (hc : x.ctid = y.ctid) : x ∉ liveSlots k := by
  obtain ⟨t, ht, ha⟩ := hatt m rfl
  have hslots := liveSlots_of_table ht ha
  have hyt : (y.ctid, y.row) ∈ t.slots := by
    have : y ∈ (liveSlots s.catalog).filter (·.table == m) :=
      List.mem_filter.mpr ⟨hy, by simpa using hym⟩
    rw [hslots] at this
    obtain ⟨z, hz, rfl⟩ := List.mem_map.mp this
    exact hz
  rw [rowsIn, hslots, List.length_map] at hmore
  have horder : (scanLeaving y).child i t.slots =
      t.slots.erase (y.ctid, y.row) ++ [(y.ctid, y.row)] := if_pos hyt
  set ids := (((scanLeaving y).child i t.slots).take cfg.deleteBatchRows).map Prod.fst with hids
  set k₁ := s.catalog.onTable m (Table.tame_deleteSlots ids.contains) with hk₁
  have hchild : deleteChildBatch ((scanLeaving y).child i) m cfg.deleteBatchRows s.catalog =
      .ok ((t.slots.filter fun x => ids.contains x.1).length, k₁) := by
    simp only [deleteChildBatch, Catalog.need, ht]
    rfl
  have hyk₁ : y ∈ liveSlots k₁ := by
    rw [hk₁, liveSlots_deleteCtidsIn]
    refine List.mem_filter.mpr ⟨hy, ?_⟩
    have := not_picked_last t.slots_ctid_nodup hyt hmore
    rw [← horder, ← hids] at this
    simp only [this, Bool.and_false, Bool.not_false]
  have hin : y ∈ (liveSlots k₁).filter fun x => p x.row := List.mem_filter.mpr ⟨hyk₁, hp⟩
  -- the delete on `features` selects the row first
  have hfirst : ((((scanLeaving y).parent i ((liveSlots k₁).filter fun x => p x.row)).take
      cfg.deleteBatchRows).map Slot.ctid).contains y.ctid = true := by
    have hpos : 0 < cfg.deleteBatchRows := Nat.lt_of_lt_of_le (by decide) (Nat.le_max_left 500 _)
    obtain ⟨q, hq⟩ : ∃ q, cfg.deleteBatchRows = q + 1 := ⟨cfg.deleteBatchRows - 1, by omega⟩
    rw [show (scanLeaving y).parent i ((liveSlots k₁).filter fun x => p x.row) =
      y :: ((liveSlots k₁).filter fun x => p x.row).erase y from if_pos hin, hq]
    simp
  have hparent : deleteParentBatch ((scanLeaving y).parent i) p cfg.deleteBatchRows k₁ =
      .ok (_, k₁.onLive (Table.tame_deleteSlots (((((scanLeaving y).parent i)
        ((liveSlots k₁).filter fun x => p x.row)).take cfg.deleteBatchRows).map
          Slot.ctid).contains)) := rfl
  have hr := hrun
  simp only [oneBatch, childBatch, Prog.run_bind, run_transaction_ok hchild,
    run_transaction_ok (s := { s with catalog := k₁ }) hparent, Prog.run_pure,
    Prod.mk.injEq] at hr
  have hk : _ = k := congrArg Sys.catalog hr.2
  rw [← hk, liveSlots_deleteCtids]
  intro hx
  have hx := (List.mem_filter.mp hx).2
  rw [hc, hfirst] at hx
  cases hx

/-- **The loop is exact for every order of the rows if and only if no row is shared.** -/
theorem deleteLoop_exact_iff (cfg : Settings) (c : CollectionId) (jobId : Option JobId)
    (partition : Option RelName) (p : Row → Bool) {s : Sys} {fuel : Nat}
    (hfuel : (liveSlots s.catalog).length < fuel) (hatt : Attached partition s.catalog)
    (hnc : NotCancelled jobId s) :
    (∀ scan, ∃ total k, (deleteLoop cfg scan c jobId partition p fuel 0).run s =
        (.ok total, { s with catalog := k }) ∧ Exactly p s.catalog k) ↔
      Unshared partition p cfg.deleteBatchRows (liveSlots s.catalog) := by
  obtain ⟨fuel, rfl⟩ : ∃ n, fuel = n + 1 := ⟨fuel - 1, by omega⟩
  constructor
  · intro h
    have hrun : ∀ scan, ∃ k, Leaves partition p cfg.deleteBatchRows (liveSlots s.catalog)
        (liveSlots k) ∧ (∀ x ∈ liveSlots s.catalog, p x.row = false → x ∈ liveSlots k) ∧
        (∀ x ∈ liveSlots k, p x.row = false) ∧
        (∀ m ∈ partition, ∀ x ∈ liveSlots k, x.table ≠ m) ∧
        ∃ n k₁, (oneBatch cfg scan partition p fuel).run s =
          (.ok n, { s with catalog := k₁ }) ∧ liveSlots k ⊆ liveSlots k₁ := by
      intro scan
      obtain ⟨total, k, hr, hl, h1, h2, h3⟩ :=
        deleteLoop_run p cfg scan c fuel 0 hfuel hatt hnc
      obtain ⟨total', k', hr', hex⟩ := h scan
      have hkk : k' = k := by
        rw [hr] at hr'
        exact (congrArg Sys.catalog (Prod.mk.inj hr').2).symm
      rw [hkk] at hex
      exact ⟨k, hl, fun x hx hp => mem_of_exactly hl.kept h1 hex hx hp, h1, h2, h3⟩
    refine ⟨fun m hm x hx hxm => ?_, fun y hy ⟨hpy, hsel⟩ x hx hc => ?_⟩
    · by_contra hp
      obtain ⟨k, _, hmem, _, h2, _⟩ := hrun (scanLeaving x)
      exact h2 m hm x (hmem x hx (by simpa using hp)) hxm
    · by_contra hp
      have hp : p x.row = false := by simpa using hp
      obtain ⟨k, hl, hmem, h1, h2, n, k₁, hb, hsub⟩ := hrun (scanLeaving y)
      have hyk : y ∉ liveSlots k := fun hyk => by rw [h1 y hyk] at hpy; cases hpy
      by_cases hpart : ∀ m ∈ partition, y.table ≠ m
      · exact hl.spread y hy hyk hpart x hx hc (hmem x hx hp)
      · obtain ⟨m, hm, hym⟩ : ∃ m ∈ partition, y.table = m := by simpa using hpart
        cases hm
        exact oneBatch_leaving hatt hy hpy hym (hsel m rfl hym) hb hc (hsub (hmem x hx hp))
  · intro hu scan
    obtain ⟨total, k, hr, hl, h1, _⟩ :=
      deleteLoop_run p cfg scan c fuel 0 hfuel hatt hnc
    exact ⟨total, k, hr, exactly_of_leaves hu hl h1⟩

/-- The partition that is resolved is attached. -/
theorem attached_resolve (k : Catalog) (c : CollectionId) (filters : List PropertyFilter) :
    Attached (if filters.isEmpty then k.resolveFeaturesPartitionRelname c else none) k := by
  intro m hm
  by_cases hf : filters.isEmpty = true
  · rw [if_pos hf] at hm
    obtain ⟨t, ht, _, x, hb, _⟩ := Catalog.resolve_some hm
    exact ⟨t, ht, by simp [Table.attached, hb]⟩
  · rw [if_neg hf] at hm; cases hm

/-- **Both batched deletes, run to their end, remove exactly the matching rows and leave all
others, for every order of the rows, if and only if no other row shares a `ctid` with a row the
delete on `features` can select.** -/
theorem batched_deletes_exact_iff (cfg : Settings) (c : CollectionId) (jobId : Option JobId)
    (filters : List PropertyFilter) (keepJobId : Text) {s : Sys} {fuel : Nat}
    (hfuel : (liveSlots s.catalog).length < fuel) (hnc : NotCancelled jobId s) :
    ((∀ scan, ∃ total k, (deleteFeaturesBatched cfg scan c jobId filters fuel).run s =
        (.ok total, { s with catalog := k }) ∧
        Exactly (deleteWhereClause c filters) s.catalog k) ↔
      Unshared (if filters.isEmpty then s.catalog.resolveFeaturesPartitionRelname c else none)
        (deleteWhereClause c filters) cfg.deleteBatchRows (liveSlots s.catalog)) ∧
    ((∀ scan, ∃ total k, (deleteShadowStaleRows cfg scan c jobId keepJobId filters fuel).run s =
        (.ok total, { s with catalog := k }) ∧
        Exactly (shadowStaleClause c keepJobId filters) s.catalog k) ↔
      Unshared none (shadowStaleClause c keepJobId filters) cfg.deleteBatchRows
        (liveSlots s.catalog)) := by
  have hfeat := deleteLoop_exact_iff cfg c jobId _ (deleteWhereClause c filters) hfuel
    (attached_resolve s.catalog c filters) hnc
  have hshadow := deleteLoop_exact_iff cfg c jobId none (shadowStaleClause c keepJobId filters)
    hfuel (fun m hm => by cases hm) hnc
  refine ⟨?_, hshadow⟩
  rw [← hfeat]
  refine forall_congr' fun scan => ?_
  rw [deleteFeaturesBatched, Prog.run_bind, query, Prog.run_read]

end

/-! Two collections with a partition each; the row of `a` is the first of its heap. -/

def rowA : Row := ⟨"1".toList, "a".toList, 0, none, "{}".toList, none, 0, 0⟩
def rowB : Row := ⟨"2".toList, "b".toList, 0, none, "{}".toList, none, 0, 0⟩

def twoPartitions : Except DbError Catalog := do
  let k ← Catalog.initial.createPartition "features_a_ca978112".toList "a".toList
  k.createPartition "features_b_3e23e816".toList "b".toList

/-- The row of `b` is the first of its heap too. -/
def sameCtid : Catalog :=
  ((do (← twoPartitions).insertFeatures [rowA, rowB]).toOption).getD Catalog.initial

/-- The row of `b` is the second of its heap: the first was deleted. -/
def otherCtid : Catalog :=
  ((do
    let k ← (← twoPartitions).insertFeatures [{ rowB with id := "0".toList }, rowA, rowB]
    k.deleteFrom "features_b_3e23e816".toList (·.id == "0".toList)).toOption).getD
      Catalog.initial

/-- The rows of a query in the order of the heap. -/
def Scan.inOrder : Scan := ⟨fun _ l => l, fun _ l => l, fun _ => .refl, fun _ => .refl⟩

/-- A filtered delete on `a` deletes the row of `b` as well. -/
theorem filtered_delete_loses_b :
    sameCtid.live = [rowA, rowB] ∧
    ((deleteFeaturesBatched Settings.default .inOrder "a".toList none [fun _ => true] 3).run
      (Sys.idle sameCtid)).2.catalog.live = [] := by
  decide +kernel

theorem filtered_delete_keeps_b :
    NotCancelled none (Sys.idle otherCtid) ∧ (liveSlots otherCtid).length < 3 ∧
    ∀ scan, ∃ total k,
      (deleteFeaturesBatched Settings.default scan "a".toList none [fun _ => true] 3).run
        (Sys.idle otherCtid) = (.ok total, { Sys.idle otherCtid with catalog := k }) ∧
      Exactly (deleteWhereClause "a".toList [fun _ => true]) otherCtid k := by
  have hnc : NotCancelled none (Sys.idle otherCtid) := fun j hj => by cases hj
  have hfuel : (liveSlots otherCtid).length < 3 := by decide +kernel
  have hun : ∀ y ∈ liveSlots otherCtid, deleteWhereClause "a".toList [fun _ => true] y.row = true →
      ∀ x ∈ liveSlots otherCtid, x.ctid = y.ctid →
        deleteWhereClause "a".toList [fun _ => true] x.row = true := by decide +kernel
  have hshared : Unshared none (deleteWhereClause "a".toList [fun _ => true])
      Settings.default.deleteBatchRows (liveSlots otherCtid) := by
    refine ⟨fun m hm => ?_, fun y hy hsel => hun y hy hsel.1⟩
    cases hm
  refine ⟨hnc, hfuel, ?_⟩
  exact (batched_deletes_exact_iff Settings.default "a".toList none [fun _ => true] []
    (s := Sys.idle otherCtid) hfuel hnc).1.mpr hshared

end Bulk
end Geofastmap
