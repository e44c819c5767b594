import Geofastmap.Db.Promote
import Geofastmap.Process.Jobs

/-!
# Geofastmap.Process.Tables

The store of the process jobs as it is read off the tables. Before a job reads its layers it sees
to the partition of its result and empties it; `prepare_ofCatalog` says that the statements it
sends do to the tables what `Store.ensure` and `Store.clear` do to the store.
-/

namespace Geofastmap
namespace Process

open Db Db.Catalog

variable (H : Digest)

/-- The second transaction of `_ensure_collection_and_partition_sync`. -/
def ensureResultPartition (k : Catalog) (c : CollectionId) : Except DbError Catalog :=
  if k.partitionList.any fun row => Sql.despace row.2.expr == partitionBoundLiteral c then .ok k
  else k.createPartition (safePartitionName H c) c

/-- A table with the name of the partition of `c` is there, and not attached. -/
def leftBehind (k : Catalog) (c : CollectionId) : Bool :=
  k.tableExists (safePartitionName H c) && !k.partitionIsAttached (safePartitionName H c)

def Store.ofCatalog (k : Catalog) (cs : Collections) (finite : {c | cs c ≠ none}.Finite) :
    Store where
  attrs := cs
  finite := finite
  rows := k.rowsOf
  leftover := leftBehind H k
  blocked c :=
    match ensureResultPartition H k c with
    | .ok _ => false
    | .error _ => true

variable {H} {k k' : Catalog} {c : CollectionId}

/-! ## The partition of the result -/

theorem rowsOf_createPartition (h : k.createPartition (safePartitionName H c) c = .ok k') :
    k'.rowsOf = k.rowsOf := by
  funext d
  by_cases hd : d = c
  · subst hd
    obtain ⟨hfree, hnil, -, -⟩ := createPartition_ok h
    rw [hnil, rowsOf_free hfree]
  · obtain ⟨k₁, h₁, h₂⟩ := bind_eq_ok.mp h
    obtain ⟨_, _, _, _, _, _, _, rfl⟩ := attachPartition_ok h₂
    rw [rowsOf_bindTo_ne hd, rowsOf_createTable h₁]

/-- A partition is made under a name that was free, so none is left behind by it. -/
theorem leftBehind_createPartition (h : k.createPartition (safePartitionName H c) c = .ok k') :
    leftBehind H k' = leftBehind H k := by
  obtain ⟨-, -, ⟨t, ht, hb⟩, hother⟩ := createPartition_ok h
  funext d
  by_cases hd : d = c
  · subst hd
    obtain ⟨k₁, h₁, -⟩ := bind_eq_ok.mp h
    obtain ⟨hnone, -⟩ := createTable_ok h₁
    simp [leftBehind, tableExists, partitionIsAttached, ht, hnone, Table.attached, hb]
  · have hne : safePartitionName H d ≠ safePartitionName H c := fun heq =>
      hd (safePartitionName_inj heq)
    simp [leftBehind, tableExists, partitionIsAttached, hother _ hne]

theorem named_createPartition (hk : k.Named H)
    (h : k.createPartition (safePartitionName H c) c = .ok k') : k'.Named H := by
  obtain ⟨k₁, h₁, h₂⟩ := bind_eq_ok.mp h
  exact named_attach (named_createTable hk h₁) (fun d hd => (safePartitionName_inj hd).symm) h₂

/-- The partition of the result is there already, or it is made, and no row is touched. -/
theorem ensureResultPartition_ok (hk : k.Named H) (h : ensureResultPartition H k c = .ok k') :
    k'.rowsOf = k.rowsOf ∧ leftBehind H k' = leftBehind H k ∧ k'.Named H := by
  unfold ensureResultPartition at h
  split at h
  · cases h
    exact ⟨rfl, rfl, hk⟩
  · exact ⟨rowsOf_createPartition h, leftBehind_createPartition h, named_createPartition hk h⟩

/-! ## The clearing -/

/-- The `TRUNCATE` reaches the live rows of `c` unless a table was left behind under the name. -/
theorem rowsOf_clear (hk : k.Named H) :
    (k.clearResultCollection H c).rowsOf =
      if leftBehind H k c then k.rowsOf else Function.update k.rowsOf c [] := by
  funext d
  by_cases hd : d = c
  · subst hd
    unfold clearResultCollection
    cases hfind : k.find (safePartitionName H d) with
    | none =>
      have herror : k.truncateTable (safePartitionName H d) =
          .error (.undefinedTable (safePartitionName H d)) := by
        simp only [truncateTable, need, hfind]
        rfl
      have hleft : leftBehind H k d = false := by simp [leftBehind, tableExists, hfind]
      rw [herror, hleft, if_neg (by simp), Function.update_self]
      apply List.eq_nil_iff_forall_not_mem.mpr
      intro r hr
      obtain ⟨t, -, hpart, hkept⟩ := mem_rowsOf_keep.mp hr
      obtain ⟨ha, -, hrow⟩ := mem_part.mp hpart
      have hnot := hkept ha
      simp [hrow] at hnot
    | some t =>
      have hok : k.truncateTable (safePartitionName H d) =
          .ok (k.onTable (safePartitionName H d) Table.tame_truncate) := by
        simp only [truncateTable, need, hfind]
        rfl
      rw [hok]
      obtain ⟨hmem, hname⟩ := find_mem hfind
      by_cases ha : t.attached = true
      · have hleft : leftBehind H k d = false := by
          simp [leftBehind, partitionIsAttached, hfind, ha]
        rw [hleft, if_neg (by simp), Function.update_self]
        exact rowsOf_truncate (isPartition_iff.mpr ⟨t, hfind, hk t hmem ha d hname⟩) hok
      · have hleft : leftBehind H k d = true := by
          simp [leftBehind, tableExists, partitionIsAttached, hfind, ha]
        rw [hleft, if_pos rfl]
        apply rowsOf_mapTables
        intro u hu hun
        have hut : u = t := eq_of_name hu hmem (by rw [hname]; simpa using hun)
        subst hut
        have htrunc : u.truncate.attached = u.attached := rfl
        rw [Table.part, Table.part, htrunc, if_neg ha, if_neg ha]
  · rw [(kept_clear hk hd).rows]
    split
    · rfl
    · exact (Function.update_of_ne hd _ _).symm

theorem named_clear (hk : k.Named H) : (k.clearResultCollection H c).Named H := by
  unfold clearResultCollection
  split
  · rename_i k' h
    rw [truncateTable_ok h]
    exact named_mapTables hk _ Table.tame_truncate
  · exact named_mapTables hk _ (Table.tame_keep _)

/-! ## Both -/

/-- A job that has written its result leaves the tables as the next one needs them. -/
theorem named_writeResult (hk : k.Named H) {k₁ : Catalog}
    (hprepare : ensureResultPartition H k c = .ok k₁) {rs : List Row}
    (hwrite : (k₁.clearResultCollection H c).insertFeatures rs = .ok k') : k'.Named H := by
  obtain ⟨-, -, hk₁⟩ := ensureResultPartition_ok hk hprepare
  exact named_insertFeatures (named_clear hk₁) hwrite

/-- What a job does to make room for its result is the same on the store and on the tables, where
an attached partition that has the name of a collection is for that collection. -/
theorem prepare_ofCatalog (hk : k.Named H) (cs : Collections)
    (finite : {c | cs c ≠ none}.Finite) (c : CollectionId) :
    ((Store.ofCatalog H k cs finite).ensure c).map (fun s => (s.clear c).rows) =
      ((ensureResultPartition H k c).map fun k' => (k'.clearResultCollection H c).rowsOf).toOption
    := by
  have hblocked : (Store.ofCatalog H k cs finite).blocked c =
      match ensureResultPartition H k c with
      | .ok _ => false
      | .error _ => true := rfl
  unfold Store.ensure
  rw [hblocked]
  cases h : ensureResultPartition H k c with
  | error e => rfl
  | ok k' =>
    obtain ⟨hrows, hleft, hk'⟩ := ensureResultPartition_ok hk h
    simp only [Bool.false_eq_true, if_false, Option.map_some, Except.map, Except.toOption]
    rw [Store.clear_rows, Store.register_rows, Store.register_leftover, rowsOf_clear hk', hrows,
      hleft]
    rfl

end Process
end Geofastmap
