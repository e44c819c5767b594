import Geofastmap.Db.Statement

/-!
# Geofastmap.Db.Partitions

The transactions of `app/db/features_partitions.py`. The partition of a collection is found by a
text comparison: `pg_get_expr` renders the bound of every child, and the child whose bound agrees
with the bound of the collection after all blanks are removed is taken. Other paths address the
partition by the name `_safe_partition_name` gives it.

Each function that runs in one `engine.begin()` block is one function from a catalog to a catalog
or an error here; advisory locks and `SET LOCAL` have no effect on the catalog.
-/

namespace Geofastmap
namespace Db

/-- `hashlib.sha256(s.encode()).hexdigest()[:8]`, taken as injective. -/
structure Digest where
  hex : Text → Text
  inj : Function.Injective hex
  plain : ∀ s, '_' ∉ hex s

/-- Two characters for each one, none of them an underscore. -/
def escapeChar (ch : Char) : Text := if ch = '_' then ['u', 'u'] else ['c', ch]

def escapeUnderscore (s : Text) : Text := s.flatMap escapeChar

theorem escapeChar_length (ch : Char) : (escapeChar ch).length = 2 := by
  unfold escapeChar; split <;> rfl

theorem escapeChar_inj {a b : Char} (h : escapeChar a = escapeChar b) : a = b := by
  unfold escapeChar at h
  by_cases ha : a = '_' <;> by_cases hb : b = '_' <;> simp_all

theorem escapeUnderscore_inj : Function.Injective escapeUnderscore := by
  intro s
  induction s with
  | nil =>
    intro t h
    cases t with
    | nil => rfl
    | cons b t =>
      have := congrArg List.length h
      simp [escapeUnderscore, escapeChar_length] at this
      omega
  | cons a s ih =>
    intro t h
    cases t with
    | nil =>
      have := congrArg List.length h
      simp [escapeUnderscore, escapeChar_length] at this
    | cons b t =>
      have hlen : (escapeChar a).length = (escapeChar b).length := by simp only [escapeChar_length]
      obtain ⟨h1, h2⟩ := List.append_inj h hlen
      rw [escapeChar_inj h1, ih h2]

theorem not_mem_escapeUnderscore (s : Text) : '_' ∉ escapeUnderscore s := by
  intro h
  obtain ⟨ch, _, h⟩ := List.mem_flatMap.mp h
  unfold escapeChar at h
  split at h
  · simp at h
  · rename_i hne; simp [Ne.symm hne] at h

/-- A digest with given values. -/
def Digest.ofList (l : List (Text × Text)) (hl : (l.map Prod.snd).Nodup)
    (hp : ∀ p ∈ l, p.2.head? ≠ some 'z' ∧ '_' ∉ p.2) : Digest where
  hex s := match l.lookup s with
    | some h => h
    | none => 'z' :: escapeUnderscore s
  inj := by
    have hm : ∀ {s h}, l.lookup s = some h → (s, h) ∈ l := by
      intro s h hs
      obtain ⟨l₁, l₂, rfl, _⟩ := List.lookup_eq_some_iff.mp hs
      simp
    intro s t h
    dsimp only at h
    cases hs : l.lookup s with
    | some x =>
      cases ht : l.lookup t with
      | some y =>
        simp only [hs, ht] at h
        have := List.inj_on_of_nodup_map hl (hm hs) (hm ht) h
        exact congrArg Prod.fst this
      | none =>
        simp only [hs, ht] at h
        exact absurd (by simp [h]) (hp _ (hm hs)).1
    | none =>
      cases ht : l.lookup t with
      | some y =>
        simp only [hs, ht] at h
        exact absurd (by simp [← h]) (hp _ (hm ht)).1
      | none =>
        simp only [hs, ht, List.cons.injEq, true_and] at h
        exact escapeUnderscore_inj h
  plain := by
    intro s
    split
    · rename_i h hs
      obtain ⟨l₁, l₂, rfl, _⟩ := List.lookup_eq_some_iff.mp hs
      exact (hp (s, h) (by simp)).2
    · simpa using not_mem_escapeUnderscore s

/-- `re.sub(r"[^a-zA-Z0-9_]", "_", s)`. -/
def sanitize (s : Text) : Text :=
  s.map fun ch => if ch.isAlphanum || ch == '_' then ch else '_'

/-- `s or d`. -/
def orElseText (s d : Text) : Text := if s.isEmpty then d else s

def safePartitionName (H : Digest) (c : CollectionId) : RelName :=
  let safe := orElseText (Sql.strip '_' ((sanitize c).take 45)) "default".toList
  "features_".toList ++ safe ++ '_' :: H.hex c

/-- `pg_get_expr(c.relpartbound, c.oid)`. -/
def Bound.expr : Bound → Text
  | .default => "DEFAULT".toList
  | .values vs => "FOR VALUES IN (".toList ++ ", ".toList.intercalate (vs.map Sql.literal) ++ [')']

theorem Bound.expr_values (vs : List CollectionId) : (Bound.values vs).expr =
    "FOR VALUES IN (".toList ++ ", ".toList.intercalate (vs.map Sql.literal) ++ [')'] := rfl

def partitionBoundLiteral (c : CollectionId) : Text :=
  Sql.despace ("FOR VALUES IN ('".toList ++ Sql.doubleQuotes c ++ "')".toList)

namespace Catalog

/-- `_PARTITION_LIST_SQL`: the children of `features` with their bounds, without the default one.
The query has no `ORDER BY`; the order is the one of the catalog. -/
def partitionList (k : Catalog) : List (RelName × Bound) :=
  k.tables.filterMap fun t =>
    if t.name = featuresDefault then none else t.bound.map fun b => (t.name, b)

/-- `_resolve_features_partition_relname_conn`. -/
def resolveFeaturesPartitionRelname (k : Catalog) (c : CollectionId) : Option RelName :=
  match k.partitionList.find? fun row => Sql.despace row.2.expr == partitionBoundLiteral c with
  | none => none
  | some row => if row.1.isEmpty then none else some row.1

def partitionIsAttached (k : Catalog) (n : RelName) : Bool :=
  match k.find n with
  | none => false
  | some t => t.attached

def tableExists (k : Catalog) (n : RelName) : Bool := (k.find n).isSome

/-- `partition_swap_already_complete_sync`. -/
def partitionSwapAlreadyComplete (k : Catalog) (c : CollectionId) (staging : RelName) : Bool :=
  k.partitionIsAttached staging || k.resolveFeaturesPartitionRelname c == some staging

/-- `_drop_orphan_detached_partition_conn`. -/
def dropOrphanDetachedPartition (k : Catalog) (staging canonicalOld : RelName) : Catalog :=
  if canonicalOld.isEmpty || canonicalOld == staging then k
  else if !k.tableExists canonicalOld then k
  else if k.partitionIsAttached canonicalOld then k
  else k.drop canonicalOld

/-- `_migrate_default_rows_to_partition_sync`. -/
def migrateDefaultRowsToPartition (k : Catalog) (c : CollectionId) : Except DbError Catalog := do
  let t ← k.need featuresDefault
  let k ← k.insertFeatures (t.rows.filter (·.collectionId == c))
  k.deleteFrom featuresDefault (·.collectionId == c)

section
variable (H : Digest)

/-- The transaction of `ensure_features_partition_sync` for a partition that was found. -/
def ensureExisting (k : Catalog) (c : CollectionId) (existing : RelName) :
    Except DbError (RelName × Catalog) := do
  let k ← k.migrateDefaultRowsToPartition c
  return (existing, k)

/-- The transaction of `ensure_features_partition_sync` when no partition was found. Rows of `c`
in the default partition are taken out, and put back once the partition is there. -/
def ensureMissing (k : Catalog) (c : CollectionId) : Except DbError (RelName × Catalog) := do
  match k.resolveFeaturesPartitionRelname c with
  | some existing => k.ensureExisting c existing
  | none =>
    let t ← k.need featuresDefault
    let inDefault := t.rows.filter (·.collectionId == c)
    if inDefault.isEmpty then
      let k ← k.createPartition (safePartitionName H c) c
      return (safePartitionName H c, k)
    else
      let k ← k.deleteFrom featuresDefault (·.collectionId == c)
      let k ← k.createPartition (safePartitionName H c) c
      let k ← k.insertFeatures inDefault
      return (safePartitionName H c, k)

/-- Detach and drop the partition that was found, if one was. -/
def detachAndDrop (k : Catalog) : Option RelName → Except DbError Catalog
  | some part => do
    let k ← k.detachPartition part
    return k.drop part
  | none => return k

/-- The transaction of `drop_collection_features_data_sync`. -/
def dropCollectionFeaturesData (k : Catalog) (c : CollectionId) :
    Except DbError (Option RelName × Catalog) := do
  let canonical := safePartitionName H c
  let part := k.resolveFeaturesPartitionRelname c
  let k ← k.detachAndDrop part
  let k ← k.deleteFrom featuresDefault (·.collectionId == c)
  if k.tableExists canonical && !k.partitionIsAttached canonical then
    return (part <|> some canonical, k.drop canonical)
  else
    return (part, k)

/-- The name of the bound constraint of `_prepare_staging_for_attach_sync`. -/
def checkName (staging : RelName) : RelName := ("chk_bound_".toList ++ staging).take 63

/-- `_staging_is_unlogged_conn`. -/
def stagingIsUnlogged (k : Catalog) (n : RelName) : Bool :=
  match k.find n with
  | some t => t.unlogged
  | none => false

def hasCheck (k : Catalog) (n con : RelName) : Bool :=
  match k.find n with
  | some t => t.checks.any (·.1 == con)
  | none => false

/-- The transaction of `_prepare_staging_for_attach_sync`. A table that is missing is not unlogged
and has no constraint, so the last statement raises. -/
def prepareStagingForAttach (k : Catalog) (c : CollectionId) (staging : RelName) :
    Except DbError Catalog := do
  let k ← if k.stagingIsUnlogged staging then k.setLogged staging else pure k
  if k.hasCheck staging (checkName staging) then return k
  else k.addCheck staging (checkName staging) c

/-- The transaction of `swap_staging_into_collection_partition_sync`. -/
def swapStagingIntoCollectionPartition (k : Catalog) (c : CollectionId) (staging : RelName) :
    Except DbError Catalog := do
  let canonicalOld := safePartitionName H c
  let k ← k.deleteFrom featuresDefault (·.collectionId == c)
  if k.partitionIsAttached staging then
    return k.dropOrphanDetachedPartition staging canonicalOld
  else
    match k.resolveFeaturesPartitionRelname c with
    | some oldPart =>
      if oldPart = staging then
        return k.dropOrphanDetachedPartition staging canonicalOld
      else
        let k ← k.detachPartition oldPart
        let k ← k.dropTable oldPart
        (k.dropOrphanDetachedPartition staging canonicalOld).attachPartition staging c
    | none => (k.dropOrphanDetachedPartition staging canonicalOld).attachPartition staging c

/-- `_clear_result_collection_sync` of the process worker: `TRUNCATE` by name, and a `DELETE` on
`features` when that raises. -/
def clearResultCollection (k : Catalog) (c : CollectionId) : Catalog :=
  match k.truncateTable (safePartitionName H c) with
  | .ok k' => k'
  | .error _ => k.onLive (Table.tame_keep fun r => !(r.collectionId == c))

end

end Catalog
end Db
end Geofastmap
