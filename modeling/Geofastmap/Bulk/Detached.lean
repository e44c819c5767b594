import Geofastmap.Bulk.Reconcile
import Geofastmap.Db.Resolve
import Geofastmap.Upload.Complete

/-!
# Geofastmap.Bulk.Detached

`cleanup_detached_orphan_feature_partitions_sync`: a detached table with the canonical name of a
collection is dropped where another partition is attached for the collection. The collection is
read back from the text of a bound.

* `collectionIdFromBound_expr` : the id comes back from the bound of one value, whatever it is.
* `cleanup_spec`               : which tables are dropped.
-/

namespace Geofastmap
namespace Db

/-! ## Reading a bound -/

/-- What matches `I` under `re.IGNORECASE`. -/
def isI (ch : Char) : Bool := ch == 'I' || ch == 'i' || ch == 'İ' || ch == 'ı'

def isN (ch : Char) : Bool := ch == 'N' || ch == 'n'

/-- `((?:[^']|'')*)'\)`: the text of the group. No two branches match the same text, so there is
nothing to go back to. -/
def quotedGroup : Text → Option Text
  | '\'' :: '\'' :: s => (quotedGroup s).map fun group => '\'' :: '\'' :: group
  | '\'' :: ')' :: _ => some []
  | '\'' :: _ => none
  | ch :: s => (quotedGroup s).map (ch :: ·)
  | [] => none

/-- `\s*\('` and the group. -/
def groupAfterIn (s : Text) : Option Text :=
  match s.dropWhile isSpace with
  | '(' :: '\'' :: rest => quotedGroup rest
  | _ => none

/-- `re.search(r"IN\s*\('((?:[^']|'')*)'\)", s, re.IGNORECASE)`: the group of the first match. -/
def searchIn : Text → Option Text
  | a :: b :: s => (if isI a && isN b then groupAfterIn s else none) <|> searchIn (b :: s)
  | _ => none

/-- `s.replace("''", "'")`. -/
def halveQuotes : Text → Text
  | '\'' :: '\'' :: s => '\'' :: halveQuotes s
  | ch :: s => ch :: halveQuotes s
  | [] => []

/-- `_collection_id_from_bound`. -/
def collectionIdFromBound (bound : Text) : Option CollectionId := (searchIn bound).map halveQuotes

theorem quotedGroup_char {ch : Char} (h : ch ≠ '\'') (s : Text) :
    quotedGroup (ch :: s) = (quotedGroup s).map (ch :: ·) := by
  rw [quotedGroup] <;> simp [h]

theorem halveQuotes_char {ch : Char} (h : ch ≠ '\'') (s : Text) :
    halveQuotes (ch :: s) = ch :: halveQuotes s := by
  rw [halveQuotes]
  simp [h]

theorem quotedGroup_doubleQuotes (x rest : Text) :
    quotedGroup (Sql.doubleQuotes x ++ '\'' :: ')' :: rest) = some (Sql.doubleQuotes x) := by
  induction x with
  | nil => rfl
  | cons ch x ih =>
    rw [Sql.doubleQuotes_cons]
    by_cases hquote : ch = '\''
    · rw [if_pos hquote, List.cons_append, List.cons_append, quotedGroup, ih]
      rfl
    · rw [if_neg hquote, List.cons_append, quotedGroup_char hquote, ih]
      rfl

theorem halveQuotes_doubleQuotes (x : Text) : halveQuotes (Sql.doubleQuotes x) = x := by
  induction x with
  | nil => rfl
  | cons ch x ih =>
    rw [Sql.doubleQuotes_cons]
    by_cases hquote : ch = '\''
    · rw [if_pos hquote, halveQuotes, ih, hquote]
    · rw [if_neg hquote, halveQuotes_char hquote, ih]

theorem searchIn_skip {a b : Char} (h : (isI a && isN b) = false) (s : Text) :
    searchIn (a :: b :: s) = searchIn (b :: s) := by
  rw [searchIn, h]
  rfl

/-- The first `IN` is the one before the literal. -/
theorem searchIn_values (s : Text) (h : (groupAfterIn (' ' :: s)).isSome) :
    searchIn ("FOR VALUES IN ".toList ++ s) = groupAfterIn (' ' :: s) := by
  obtain ⟨group, hgroup⟩ := Option.isSome_iff_exists.mp h
  change searchIn ('F' :: 'O' :: 'R' :: ' ' :: 'V' :: 'A' :: 'L' :: 'U' :: 'E' :: 'S' :: ' ' ::
    'I' :: 'N' :: ' ' :: s) = _
  iterate 11 rw [searchIn_skip (by decide)]
  rw [searchIn, hgroup]
  rfl

theorem collectionIdFromBound_expr (x : CollectionId) :
    collectionIdFromBound (Bound.values [x]).expr = some x := by
  have hexpr : (Bound.values [x]).expr =
      "FOR VALUES IN ".toList ++ ('(' :: '\'' :: (Sql.doubleQuotes x ++ '\'' :: ')' :: [])) := by
    rw [Bound.expr_values, List.map_singleton, List.intercalate_singleton, Sql.literal]
    simp only [List.cons_append, List.append_assoc, List.nil_append]
    rfl
  have hgroup : groupAfterIn (' ' :: '(' :: '\'' :: (Sql.doubleQuotes x ++ '\'' :: ')' :: [])) =
      some (Sql.doubleQuotes x) := by
    rw [groupAfterIn, List.dropWhile_cons_of_pos (by decide),
      List.dropWhile_cons_of_neg (by decide)]
    exact quotedGroup_doubleQuotes x []
  rw [collectionIdFromBound, hexpr, searchIn_values _ (by rw [hgroup]; rfl), hgroup,
    Option.map_some, halveQuotes_doubleQuotes]

theorem collectionIdFromBound_default : collectionIdFromBound Bound.default.expr = none := by
  decide

/-! ## The clean-up -/

namespace Catalog

section
variable (H : Digest)

/-- The loop of `cleanup_detached_orphan_feature_partitions_sync`, with the catalog and the list
`dropped` so far. -/
def cleanupStep (st : Catalog × List RelName) (row : RelName × Bound) : Catalog × List RelName :=
  match collectionIdFromBound row.2.expr with
  | none => st
  | some collectionId =>
    let canonical := safePartitionName H collectionId
    if collectionId.isEmpty || row.1.isEmpty then st
    else if canonical = row.1 then st
    else if !st.1.tableExists canonical then st
    else if st.1.partitionIsAttached canonical then st
    else (st.1.drop canonical, st.2 ++ [canonical])

/-- `cleanup_detached_orphan_feature_partitions_sync`. -/
def cleanupDetachedOrphanFeaturePartitions (k : Catalog) : Catalog × List RelName :=
  k.partitionList.foldl (cleanupStep H) (k, [])

end

/-- A table that is there and not attached. -/
def Detached (k : Catalog) (n : RelName) : Prop := ∃ t, k.find n = some t ∧ t.attached = false

/-- The table is detached, has the canonical name of a collection, and another partition is attached
for the collection. -/
def Orphan (H : Digest) (k : Catalog) (x : CollectionId) (n : RelName) : Prop :=
  n = safePartitionName H x ∧ k.Detached n ∧
    ∃ t ∈ k.tables, Listed t ∧ t.bound = some (.values [x])

/-- A partition is for one id, as the program creates them. -/
def OneId (k : Catalog) : Prop :=
  ∀ row ∈ k.partitionList, row.2 = .default ∨ ∃ x, row.2 = .values [x]

/-- What a row of the list asks to drop. -/
def Asks (H : Digest) (k : Catalog) (row : RelName × Bound) (n : RelName) : Prop :=
  ∃ x, row.2 = .values [x] ∧ x ≠ [] ∧ row.1 ≠ [] ∧ n = safePartitionName H x ∧ k.Detached n

/-- After some rows: the tables that these ask to drop are gone, and nothing else is. -/
structure Cleaned (H : Digest) (k : Catalog) (rows : List (RelName × Bound))
    (st : Catalog × List RelName) : Prop where
  tables : st.1.tables = k.tables.filter fun t => t.name ∉ st.2
  dropped : ∀ n, n ∈ st.2 ↔ ∃ row ∈ rows, Asks H k row n
  nodup : st.2.Nodup

variable {H : Digest} {k : Catalog}

theorem find_filtered {k' : Catalog} {dropped : List RelName}
    (h : k'.tables = k.tables.filter fun t => t.name ∉ dropped) (n : RelName) :
    k'.find n = if n ∈ dropped then none else k.find n := by
  simp only [find, h, List.find?_filter]
  by_cases hn : n ∈ dropped
  · rw [if_pos hn, List.find?_eq_none]
    intro t _ ht
    simp only [decide_eq_true_eq, beq_iff_eq] at ht
    exact ht.1 (ht.2 ▸ hn)
  · rw [if_neg hn]
    congr 1
    funext t
    by_cases ht : t.name = n <;> simp [ht, hn]

theorem asks_iff {row : RelName × Bound} {x : CollectionId} (hrow : row.2 = .values [x])
    {n : RelName} : Asks H k row n ↔
      x ≠ [] ∧ row.1 ≠ [] ∧ n = safePartitionName H x ∧ k.Detached n := by
  constructor
  · rintro ⟨y, hy, h⟩
    cases hrow.symm.trans hy
    exact h
  · exact fun h => ⟨x, hrow, h⟩

/-- Where a row asks for nothing new, nothing changes. -/
theorem Cleaned.skip {rows : List (RelName × Bound)} {st : Catalog × List RelName}
    (h : Cleaned H k rows st) {row : RelName × Bound} (hrow : ∀ n, Asks H k row n → n ∈ st.2) :
    Cleaned H k (rows ++ [row]) st where
  tables := h.tables
  nodup := h.nodup
  dropped n := by
    rw [h.dropped]
    constructor
    · rintro ⟨r, hr, hn⟩
      exact ⟨r, List.mem_append_left _ hr, hn⟩
    · rintro ⟨r, hr, hn⟩
      rcases List.mem_append.mp hr with hr | hr
      · exact ⟨r, hr, hn⟩
      · rw [List.mem_singleton.mp hr] at hn
        exact (h.dropped n).mp (hrow n hn)

/-- A table that a row asks for is dropped. -/
theorem Cleaned.drop {rows : List (RelName × Bound)} {st : Catalog × List RelName}
    (h : Cleaned H k rows st) {row : RelName × Bound} {n : RelName}
    (hrow : ∀ m, Asks H k row m ↔ m = n) (hn : n ∉ st.2) :
    Cleaned H k (rows ++ [row]) (st.1.drop n, st.2 ++ [n]) where
  tables := by
    have hdrop : (st.1.drop n).tables = st.1.tables.filter fun t => t.name != n := rfl
    rw [hdrop, h.tables, List.filter_filter]
    refine List.filter_congr fun t _ => ?_
    by_cases ht : t.name = n <;> simp [ht]
  nodup := by
    rw [List.nodup_append]
    refine ⟨h.nodup, List.nodup_singleton n, fun m hm m' hm' => ?_⟩
    rw [List.mem_singleton.mp hm']
    rintro rfl
    exact hn hm
  dropped m := by
    rw [List.mem_append, h.dropped, List.mem_singleton]
    constructor
    · rintro (⟨r, hr, hm⟩ | rfl)
      · exact ⟨r, List.mem_append_left _ hr, hm⟩
      · exact ⟨row, by simp, (hrow m).mpr rfl⟩
    · rintro ⟨r, hr, hm⟩
      rcases List.mem_append.mp hr with hr | hr
      · exact Or.inl ⟨r, hr, hm⟩
      · rw [List.mem_singleton.mp hr] at hm
        exact Or.inr ((hrow m).mp hm)

/-- One row of the list. -/
theorem Cleaned.step {rows : List (RelName × Bound)} {st : Catalog × List RelName}
    (h : Cleaned H k rows st) {row : RelName × Bound} (hlisted : row ∈ k.partitionList)
    (hbound : row.2 = .default ∨ ∃ x, row.2 = .values [x]) :
    Cleaned H k (rows ++ [row]) (cleanupStep H st row) := by
  unfold cleanupStep
  rcases hbound with hdefault | ⟨x, hx⟩
  · rw [hdefault, collectionIdFromBound_default]
    refine h.skip fun n hn => ?_
    obtain ⟨x, hx, -⟩ := hn
    cases hdefault.symm.trans hx
  · rw [hx, collectionIdFromBound_expr]
    dsimp only
    have hfind := find_filtered h.tables (safePartitionName H x)
    split
    · rename_i hempty
      refine h.skip fun n hn => ?_
      obtain ⟨hx, hname, -⟩ := (asks_iff hx).mp hn
      simp [hx, hname] at hempty
    · rename_i hfull
      simp only [Bool.or_eq_true, List.isEmpty_iff, not_or] at hfull
      split
      · rename_i hself
        refine h.skip fun n hn => ?_
        obtain ⟨-, -, rfl, t, ht, hdetached⟩ := (asks_iff hx).mp hn
        obtain ⟨u, hu, hname, hbound, -⟩ := mem_partitionList.mp hlisted
        rw [hself, ← hname, find_of_mem hu] at ht
        cases ht
        rw [Table.attached, hbound] at hdetached
        cases hdetached
      · split
        · rename_i hmissing
          refine h.skip fun n hn => ?_
          obtain ⟨-, -, rfl, t, ht, hdetached⟩ := (asks_iff hx).mp hn
          by_contra hdropped
          rw [if_neg hdropped, ht] at hfind
          simp [tableExists, hfind] at hmissing
        · split
          · rename_i hattached
            refine h.skip fun n hn => ?_
            obtain ⟨-, -, rfl, t, ht, hdetached⟩ := (asks_iff hx).mp hn
            by_contra hdropped
            rw [if_neg hdropped, ht] at hfind
            simp [partitionIsAttached, hfind, hdetached] at hattached
          · rename_i hexists hdetached
            have hnew : safePartitionName H x ∉ st.2 := by
              intro hdropped
              rw [if_pos hdropped] at hfind
              simp [tableExists, hfind] at hexists
            rw [if_neg hnew] at hfind
            refine h.drop (fun m => ?_) hnew
            rw [asks_iff hx]
            constructor
            · exact fun hm => hm.2.2.1
            · rintro rfl
              refine ⟨hfull.1, hfull.2, rfl, ?_⟩
              cases ht : k.find (safePartitionName H x) with
              | none => simp [tableExists, hfind, ht] at hexists
              | some t => exact ⟨t, ht, by simpa [partitionIsAttached, hfind, ht] using hdetached⟩

theorem cleaned_partitionList (hone : k.OneId) :
    Cleaned H k k.partitionList (cleanupDetachedOrphanFeaturePartitions H k) := by
  have hrun : ∀ rows done : List (RelName × Bound), done ++ rows = k.partitionList →
      ∀ st, Cleaned H k done st → Cleaned H k k.partitionList (rows.foldl (cleanupStep H) st) := by
    intro rows
    induction rows with
    | nil =>
      intro done heq st h
      rw [List.append_nil] at heq
      exact heq ▸ h
    | cons row rows ih =>
      intro done heq st h
      have hrow : row ∈ k.partitionList := heq ▸ by simp
      exact ih (done ++ [row]) (by simpa using heq) _ (h.step hrow (hone row hrow))
  refine hrun k.partitionList [] rfl (k, []) ⟨?_, by simp, List.nodup_nil⟩
  exact (List.filter_eq_self.mpr (by simp)).symm

/-! ## What is dropped -/

/-- The rows of the list ask for the orphans of ids that are not empty. -/
theorem asks_iff_orphan {n : RelName} :
    (∃ row ∈ k.partitionList, Asks H k row n) ↔ ∃ x, x ≠ [] ∧ Orphan H k x n := by
  constructor
  · rintro ⟨⟨relname, bound⟩, hrow, x, hx, hid, hname, rfl, hdetached⟩
    obtain ⟨t, ht, rfl, hbound, hdefault⟩ := mem_partitionList.mp hrow
    exact ⟨x, hid, rfl, hdetached, t, ht, ⟨hdefault, hname⟩, hbound.trans (congrArg some hx)⟩
  · rintro ⟨x, hid, rfl, hdetached, t, ht, ⟨hdefault, hname⟩, hbound⟩
    exact ⟨(t.name, .values [x]), mem_partitionList.mpr ⟨t, ht, rfl, hbound, hdefault⟩, x, rfl, hid,
      hname, rfl, hdetached⟩

theorem live_filtered {k' : Catalog} {dropped : List RelName}
    (h : k'.tables = k.tables.filter fun t => t.name ∉ dropped)
    (hdetached : ∀ n ∈ dropped, k.Detached n) : k'.live = k.live := by
  rw [live, live, h, List.filter_filter]
  congr 1
  refine List.filter_congr fun t ht => ?_
  by_cases hn : t.name ∈ dropped
  · obtain ⟨u, hu, hattached⟩ := hdetached t.name hn
    rw [find_of_mem ht] at hu
    cases hu
    simp [hattached]
  · simp [hn]

/-- For each catalog: the ids are read back, only orphans are dropped, the live rows stay, and an
orphan that is left belongs to the empty id. -/
theorem detached_orphans_dropped (H : Digest) {k : Catalog} (hone : k.OneId) :
    (∀ x, collectionIdFromBound (Bound.values [x]).expr = some x) ∧
      ∃ k' dropped, cleanupDetachedOrphanFeaturePartitions H k = (k', dropped) ∧
        (k'.tables = k.tables.filter fun t => t.name ∉ dropped) ∧
        (∀ n, n ∈ dropped ↔ ∃ x, x ≠ [] ∧ Orphan H k x n) ∧ k'.live = k.live ∧
        ∀ x n, Orphan H k' x n → x = [] := by
  have hclean := cleaned_partitionList (H := H) hone
  revert hclean
  generalize cleanupDetachedOrphanFeaturePartitions H k = st
  obtain ⟨k', dropped⟩ := st
  intro hclean
  have hdropped : ∀ n, n ∈ dropped ↔ ∃ x, x ≠ [] ∧ Orphan H k x n :=
    fun n => (hclean.dropped n).trans asks_iff_orphan
  refine ⟨collectionIdFromBound_expr, k', dropped, rfl, hclean.tables, hdropped, ?_, ?_⟩
  · refine live_filtered hclean.tables fun n hn => ?_
    obtain ⟨x, -, -, hdetached, -⟩ := (hdropped n).mp hn
    exact hdetached
  · rintro x n ⟨hn, ⟨t, ht, hdetached⟩, u, hu, hlisted, hbound⟩
    by_contra hx
    rw [find_filtered hclean.tables] at ht
    split at ht
    · cases ht
    · rename_i hkept
      rw [hclean.tables] at hu
      exact hkept ((hdropped n).mpr ⟨x, hx, hn, ⟨t, ht, hdetached⟩, u, (List.mem_filter.mp hu).1,
        hlisted, hbound⟩)

/-! ## One collection -/

def idsDigest : Digest :=
  .ofList [([], "e3b0c442".toList), ("it's IN ('x')".toList, "5fb81393".toList)] (by decide)
    (by decide)

/-- The canonical table of an id, detached, beside another partition for it. -/
def withOrphan (x : CollectionId) : Except DbError Catalog := do
  let k ← initial.createPartition "bulk_staging_1".toList x
  k.createTable (safePartitionName idsDigest x) false

/-- The partitions before the clean-up, and the tables after it. -/
def cleanedTables (k : Catalog) : List (RelName × Bound) × List (RelName × Option Bound) :=
  (k.partitionList,
    (cleanupDetachedOrphanFeaturePartitions idsDigest k).1.tables.map fun t => (t.name, t.bound))

theorem cleaned_quoted : (withOrphan "it's IN ('x')".toList).map cleanedTables = .ok
    ([("bulk_staging_1".toList, .values ["it's IN ('x')".toList])],
      [("features_default".toList, some .default),
        ("bulk_staging_1".toList, some (.values ["it's IN ('x')".toList]))]) := by
  decide +kernel

/-- The tables that are left where the id is empty. -/
def emptyIdTables : List (RelName × Option Bound) :=
  [("features_default".toList, some .default), ("bulk_staging_1".toList, some (.values [[]])),
    ("features_default_e3b0c442".toList, none)]

theorem cleaned_empty : (withOrphan []).map cleanedTables =
    .ok ([("bulk_staging_1".toList, .values [[]])], emptyIdTables) := by
  decide +kernel

/-- A catalog whose one partition has one id. -/
theorem oneId_of_singleton {n : RelName} {x : CollectionId}
    (h : k.partitionList = [(n, .values [x])]) : k.OneId := by
  intro row hrow
  rw [h] at hrow
  rw [List.mem_singleton.mp hrow]
  exact Or.inr ⟨x, rfl⟩

theorem detached_orphans_dropped_quoted : ∃ k k' dropped,
    withOrphan "it's IN ('x')".toList = .ok k ∧
      cleanupDetachedOrphanFeaturePartitions idsDigest k = (k', dropped) ∧ k'.live = k.live ∧
        ∀ x n, Orphan idsDigest k' x n → x = [] := by
  have hrun := cleaned_quoted
  cases hk : withOrphan "it's IN ('x')".toList with
  | error e =>
    rw [hk] at hrun
    cases hrun
  | ok k =>
    rw [hk] at hrun
    have hlist := congrArg Prod.fst (Except.ok.inj hrun)
    obtain ⟨-, k', dropped, hcleanup, -, -, hlive, hleft⟩ :=
      detached_orphans_dropped idsDigest (oneId_of_singleton hlist)
    exact ⟨k, k', dropped, rfl, hcleanup, hlive, hleft⟩

/-- The orphan of the empty id stays. -/
theorem empty_id_keeps_orphan : ¬ ∀ (H : Digest) (k : Catalog), k.OneId →
    ∀ x n, ¬ Orphan H (cleanupDetachedOrphanFeaturePartitions H k).1 x n := by
  intro h
  have hrun := cleaned_empty
  cases hk : withOrphan [] with
  | error e =>
    rw [hk] at hrun
    cases hrun
  | ok k =>
    rw [hk] at hrun
    have hlist := congrArg Prod.fst (Except.ok.inj hrun)
    have htables : (cleanupDetachedOrphanFeaturePartitions idsDigest k).1.tables.map
        (fun t => (t.name, t.bound)) = emptyIdTables := congrArg Prod.snd (Except.ok.inj hrun)
    have hmem : ∀ n b, (n, b) ∈ emptyIdTables →
        ∃ t ∈ (cleanupDetachedOrphanFeaturePartitions idsDigest k).1.tables,
          t.name = n ∧ t.bound = b := by
      intro n b hn
      rw [← htables] at hn
      obtain ⟨t, ht, heq⟩ := List.mem_map.mp hn
      exact ⟨t, ht, congrArg Prod.fst heq, congrArg Prod.snd heq⟩
    obtain ⟨t, ht, hname, hbound⟩ := hmem "features_default_e3b0c442".toList none
      (by simp [emptyIdTables])
    obtain ⟨u, hu, huname, hubound⟩ := hmem "bulk_staging_1".toList (some (.values [[]]))
      (by simp [emptyIdTables])
    refine h idsDigest k (oneId_of_singleton hlist) [] t.name
      ⟨?_, ⟨t, find_of_mem ht, ?_⟩, u, hu, ?_, hubound⟩
    · rw [hname]
      decide +kernel
    · rw [Table.attached, hbound]
      rfl
    · rw [Listed, huname]
      decide

end Catalog

end Db

namespace Bulk

open Db Db.Catalog

/-- A loop that keeps a second result beside the first one. -/
theorem foldl_fst {α β γ : Type} {f : α → γ → α} {g : α × β → γ → α × β} {xs : List γ}
    (h : ∀ x ∈ xs, ∀ st, f st.1 x = (g st x).1) (st : α × β) :
    xs.foldl f st.1 = (xs.foldl g st).1 := by
  induction xs generalizing st with
  | nil => rfl
  | cons x xs ih =>
    rw [List.foldl_cons, List.foldl_cons, h x List.mem_cons_self st]
    exact ih (fun y hy => h y (List.mem_cons_of_mem _ hy)) (g st x)

theorem cleanupStep_fst (H : Digest) {row : RelName × Bound}
    (hbound : row.2 = .default ∨ ∃ x, row.2 = .values [x]) (st : Catalog × List RelName) :
    (match row.2 with
    | .values [x] =>
      if x.isEmpty || row.1.isEmpty then st.1
      else if safePartitionName H x = row.1 then st.1
      else if !st.1.tableExists (safePartitionName H x) then st.1
      else if st.1.partitionIsAttached (safePartitionName H x) then st.1
      else st.1.drop (safePartitionName H x)
    | _ => st.1) = (cleanupStep H st row).1 := by
  unfold cleanupStep
  rcases hbound with hdefault | ⟨x, hx⟩
  · rw [hdefault, collectionIdFromBound_default]
  · rw [hx, collectionIdFromBound_expr]
    dsimp only
    split_ifs <;> rfl

/-- A watchdog pass runs the same clean-up. -/
theorem cleanupDetachedOrphans_eq (H : Digest) {k : Catalog} (hone : k.OneId) :
    cleanupDetachedOrphans H k = (cleanupDetachedOrphanFeaturePartitions H k).1 := by
  exact foldl_fst (fun row hrow st => cleanupStep_fst H (hone row hrow) st) (k, [])

/-- The clean-up of a watchdog pass takes no table but orphans and no live row. -/
theorem cleanupDetachedOrphans_spec (H : Digest) {k : Catalog} (hone : k.OneId) :
    (∀ t, t ∈ (cleanupDetachedOrphans H k).tables ↔
      t ∈ k.tables ∧ ∀ x, x ≠ [] → ¬ Catalog.Orphan H k x t.name) ∧
      (cleanupDetachedOrphans H k).live = k.live := by
  have hclean := cleaned_partitionList (H := H) hone
  have hdropped : ∀ n, n ∈ (cleanupDetachedOrphanFeaturePartitions H k).2 ↔
      ∃ x, x ≠ [] ∧ Catalog.Orphan H k x n := fun n => (hclean.dropped n).trans asks_iff_orphan
  rw [cleanupDetachedOrphans_eq H hone]
  constructor
  · intro t
    rw [hclean.tables, List.mem_filter]
    simp only [decide_eq_true_eq, hdropped, not_exists, not_and]
  · refine live_filtered hclean.tables fun n hn => ?_
    obtain ⟨x, -, -, hdetached, -⟩ := (hdropped n).mp hn
    exact hdetached

end Bulk
end Geofastmap
