import Geofastmap.Bulk.Orphans
import Geofastmap.Bulk.Steps
import Geofastmap.Bulk.Worker

/-!
# Geofastmap.Bulk.Cleanup

`_sync_delete_bulk_import_rows_and_refresh` of `bulk_import.py`: the clean-up after a cancelled
import, among inserts of single features by the API.

The clean-up counts the rows of the collection in one transaction. When all of them are the job's
it empties the partition in another one (`TRUNCATE`), else it deletes the rows that carry the tag
of the job. A feature inserted in between is not the job's, and `TRUNCATE` takes it away.

* `cleanup_among` : what the clean-up shows of every state, by the rules of `Prog.wp`.
* `cleanup_exact` : the schedules in which no feature comes between the count and the `TRUNCATE`.
-/

namespace Geofastmap
namespace Bulk

open Db Interleave

/-- The row carries the tag of the job. -/
def taggedBy (j : JobId) (r : Row) : Bool := r.bulkImportJobId == some j.text

section
variable (H : Digest) (cfg : Settings) (c : CollectionId) (j : JobId)

/-- `_row_counts`: the rows of the collection with the tag of the job, and the others. -/
def tagCounts (k : Catalog) : Nat × Nat :=
  (((k.rowsOf c).filter (taggedBy j)).length, ((k.rowsOf c).filter fun r => !taggedBy j r).length)

/-- The count, and what the clean-up goes by from then on. -/
def rowCounts : Work (Nat × Nat) :=
  Prog.atomic .db fun s =>
    .ok (tagCounts c j s.catalog,
      if 0 < (tagCounts c j s.catalog).1 ∧ (tagCounts c j s.catalog).2 = 0 then
        { s with cleaning := c :: s.cleaning }
      else s)

/-- The transaction of `_truncate`. -/
def emptyPartition (partition : RelName) (k : Catalog) : Except DbError Catalog := do
  let k ← k.truncateTable partition
  k.deleteFrom Catalog.featuresDefault (·.collectionId == c)

def truncatePartition (partition : RelName) : Work Unit :=
  Prog.atomic .db fun s =>
    match emptyPartition c partition s.catalog with
    | .ok k => .ok ((), { s with catalog := k, cleaning := s.cleaning.filter (· != c) })
    | .error e => .error (Exn.ofDb e)

/-- The mutex of the collection is refreshed for whoever holds it. -/
def refreshHolder : Work Unit := do
  let holder ← getCollectionBulkMutexHolder cfg c
  match holder with
  | some h => refreshCollectionBulkMutex cfg c h
  | none => pure ()

/-- `_truncate_collection_features_sync`; `progress` is called before and after. -/
def truncateCollectionFeatures (jobId : Option JobId) (progress : Work Unit) : Work Unit := do
  raiseIfBulkCancelled cfg jobId
  bulkActivity cfg
  Prog.tryFinally
    (do
      progress
      let partition ← ensureFeaturesPartition H c
      raiseIfBulkCancelled cfg jobId
      runDbRetry (truncatePartition c partition) (cfg.dbAttempts - 1)
      refreshHolder cfg c
      progress)
    (bulkActivity cfg)

/-- `DELETE FROM features WHERE collection_id = c AND bulk_import_job_id = j`. -/
def deleteTagged : Work Unit :=
  execute .db fun k =>
    .ok (k.onLive (Table.tame_keep fun r => !(r.collectionId == c && taggedBy j r)))

/-- The count of features and the extent of the collection are computed again; an error of the
extent is swallowed. -/
def refreshCounts : Work Unit := do
  updateFeatureCount cfg c
  tryCatch (Prog.write .db id) fun _ => pure ()

/-- `_sync_delete_bulk_import_rows_and_refresh`. -/
def syncDeleteBulkImportRowsAndRefresh : Work Unit := do
  let n ← rowCounts c j
  if n.1 = 0 then refreshCounts cfg c
  else if n.2 = 0 then
    truncateCollectionFeatures H cfg c none (pure ())
    refreshCounts cfg c
  else
    runDbRetry (deleteTagged c j) (cfg.dbAttempts - 1)
    refreshCounts cfg c

end

/-- The transaction of `create_feature`: the parts of one feature, without a tag. -/
structure FeatureInsert where
  rows : List Row
  untagged : ∀ r ∈ rows, r.bulkImportJobId = none

def FeatureInsert.commit (ins : FeatureInsert) : Sys → Sys :=
  Sys.onDb fun k => k.insertFeatures ins.rows

/-- No feature of `c` comes while a clean-up has counted no others and not yet emptied `c`. -/
def NotBetween (c : CollectionId) (ins : FeatureInsert) (s : Sys) : Prop :=
  c ∈ s.cleaning → ∀ r ∈ ins.rows, r.collectionId ≠ c

/-! ## What is kept -/

section
variable (c : CollectionId) (j : JobId)

/-- The rows of `c` without the tag of the job stay. -/
def KeepsOthers (s t : Sys) : Prop :=
  ∀ r ∈ s.catalog.rowsOf c, taggedBy j r = false → r ∈ t.catalog.rowsOf c

def NoneTagged (s : Sys) : Prop := ∀ r ∈ s.catalog.rowsOf c, taggedBy j r = false

structure CleanupInv (s : Sys) : Prop where
  grounded : s.catalog.Grounded
  lookalike : s.catalog.NoLookalike c
  cleaning : c ∈ s.cleaning → ∀ r ∈ s.catalog.rowsOf c, taggedBy j r = true

/-- What the inserts of features do. -/
structure Inserts (s t : Sys) : Prop where
  partition : ∀ n, s.catalog.IsPartition c n → t.catalog.IsPartition c n
  tags : NoneTagged c j s → NoneTagged c j t
  cleaning : c ∈ s.cleaning → c ∈ t.cleaning
  others : KeepsOthers c j s t

def cleanupGuarantee : Guarantee Label Sys where
  inv := CleanupInv c j
  rely := Inserts c j
  rel := KeepsOthers c j
  must _ _ := True
  rely_refl _ := ⟨fun _ h => h, fun h => h, fun h => h, fun _ h _ => h⟩
  rely_trans h h' := ⟨fun n hn => h'.partition n (h.partition n hn), fun hn => h'.tags (h.tags hn),
    fun hc => h'.cleaning (h.cleaning hc), fun r hr ht => h'.others r (h.others r hr ht) ht⟩
  rel_refl _ := fun _ h _ => h

/-- Steps are always taken, and raise only what they compute. -/
def noFaults : Assume Label Sys Exn where
  may _ _ := True
  raises _ _ _ := False

end

section
variable {c : CollectionId} {j : JobId} {α : Type}

theorem commit_inserts {ins : FeatureInsert} {s : Sys} (h : NotBetween c ins s)
    (hs : CleanupInv c j s) :
    CleanupInv c j (ins.commit s) ∧ Inserts c j s (ins.commit s) := by
  cases hk : s.catalog.insertFeatures ins.rows with
  | error e =>
    have hsame : ins.commit s = s := by simp only [FeatureInsert.commit, Sys.onDb, hk]
    rw [hsame]
    exact ⟨hs, (cleanupGuarantee c j).rely_refl s⟩
  | ok k =>
    have hnext : ins.commit s = { s with catalog := k } := by
      simp only [FeatureInsert.commit, Sys.onDb, hk]
    rw [hnext]
    have hrows := Catalog.insertFeatures_ok hk c
    have hbounds := Catalog.insertFeatures_bounds hk
    have hnew : ∀ r ∈ ins.rows, taggedBy j r = false := fun r hr => by
      simp [taggedBy, ins.untagged r hr]
    have hmem : ∀ r, r ∈ k.rowsOf c ↔
        r ∈ s.catalog.rowsOf c ∨ r ∈ ins.rows ∧ r.collectionId = c := fun r => by
      rw [hrows.mem_iff, List.mem_append, List.mem_filter, beq_iff_eq]
    refine ⟨⟨Catalog.grounded_of_bounds hs.grounded hbounds,
      Catalog.noLookalike_of_bounds hs.lookalike fun m _ => .inr (hbounds m), fun hc r hr => ?_⟩,
      ⟨fun n hn => ?_, fun hn r hr => ?_, fun hc => hc, fun r hr _ => (hmem r).mpr (.inl hr)⟩⟩
    · rcases (hmem r).mp hr with hr | ⟨hr, hrc⟩
      · exact hs.cleaning hc r hr
      · exact absurd hrc (h hc r hr)
    · rw [Catalog.IsPartition, hbounds]
      exact hn
    · rcases (hmem r).mp hr with hr | ⟨hr, _⟩
      · exact hn r hr
      · exact hnew r hr

/-! ## The steps -/

/-- Steps that touch neither the tables nor the history of clean-ups. -/
def Still (_ : Label) (g : Sys → Sys) : Prop :=
  ∀ s, (g s).catalog = s.catalog ∧ (g s).cleaning = s.cleaning

/-- What is known of the tables and survives inserts survives steps that do not touch them. -/
theorem still_triple {P : Sys → Prop} (hP : Stable (cleanupGuarantee c j) P)
    (hcat : ∀ s t : Sys, t.catalog = s.catalog → t.cleaning = s.cleaning → P s → P t)
    {p : Work α} (h : p.Within Still) :
    Triple noFaults (cleanupGuarantee c j) P p (fun _ s => P s) := by
  intro s _ hp
  induction p generalizing s with
  | done r => exact hp
  | atom l g k d ihk _ =>
    intro t hst ht
    obtain ⟨hk, hc⟩ := h.1 t
    refine ⟨fun e he => he.elim, fun _ => ⟨trivial, ?_, ?_, ?_, fun e he => he.elim⟩⟩
    · exact ⟨by rw [hk]; exact ht.grounded, by rw [hk]; exact ht.lookalike,
        by rw [hk, hc]; exact ht.cleaning⟩
    · intro r hr _
      rw [hk]
      exact hr
    · have hinv : CleanupInv c j (g t) := ⟨by rw [hk]; exact ht.grounded,
        by rw [hk]; exact ht.lookalike, by rw [hk, hc]; exact ht.cleaning⟩
      exact ihk t (h.2.1 t) (g t) hinv (hcat t (g t) hk hc (hP s t hst ht hp))

theorem stable_noneTagged : Stable (cleanupGuarantee c j) (NoneTagged c j) :=
  fun _ _ h _ hn => h.tags hn

theorem stable_cleaning : Stable (cleanupGuarantee c j) fun s => c ∈ s.cleaning :=
  fun _ _ h _ hc => h.cleaning hc

theorem stable_partition (n : RelName) :
    Stable (cleanupGuarantee c j) fun s => c ∈ s.cleaning ∧ s.catalog.IsPartition c n :=
  fun _ _ h _ hp => ⟨h.cleaning hp.1, h.partition n hp.2⟩

theorem still_bulkActivity {cfg : Settings} : (bulkActivity cfg).Within Still := by
  unfold bulkActivity
  split
  · exact Prog.Within.pure ()
  · refine Prog.Within.retry (Prog.Within.bind ?_ fun _ => ?_) _
    · exact Prog.Within.write fun _ => ⟨rfl, rfl⟩
    · exact Prog.Within.write fun _ => ⟨rfl, rfl⟩

theorem still_refresh {cfg : Settings} {h : JobId} :
    (refreshCollectionBulkMutex cfg c h).Within Still := by
  unfold refreshCollectionBulkMutex
  split
  · exact Prog.Within.pure ()
  · refine Prog.Within.retry (Prog.Within.bind ?_ fun held => ?_) _
    · exact Prog.Within.read _ fun _ => ⟨rfl, rfl⟩
    · split
      · exact Prog.Within.write fun _ => ⟨rfl, rfl⟩
      · exact Prog.Within.pure ()

theorem still_refreshHolder {cfg : Settings} : (refreshHolder cfg c).Within Still := by
  have hget : (getCollectionBulkMutexHolder cfg c).Within Still := by
    unfold getCollectionBulkMutexHolder
    split
    · exact Prog.Within.pure _
    · exact Prog.Within.retry (Prog.Within.read _ fun _ => ⟨rfl, rfl⟩) _
  refine Prog.Within.bind hget fun holder => ?_
  cases holder with
  | none => exact Prog.Within.pure ()
  | some h => exact still_refresh

theorem within_runDbRetry {S : Label → (Sys → Sys) → Prop} {p : Work α} (h : p.Within S) (n : Nat) :
    (runDbRetry p n).Within S := by
  induction n with
  | zero => exact h
  | succ n ih =>
    refine Prog.Within.tryCatch h fun e => ?_
    split
    · exact ih
    · exact Prog.Within.throw e

theorem still_refreshCounts {cfg : Settings} : (refreshCounts cfg c).Within Still := by
  refine Prog.Within.bind (within_runDbRetry (Prog.Within.write fun _ => ⟨rfl, rfl⟩) _) fun _ => ?_
  exact Prog.Within.tryCatch (Prog.Within.write fun _ => ⟨rfl, rfl⟩) fun _ => Prog.Within.pure ()

theorem triple_runDbRetry {A : Assume Label Sys Exn} {K : Guarantee Label Sys} {P : Sys → Prop}
    {p : Work α} {Q : Except Exn α → Sys → Prop} (h : Triple A K P p Q)
    (he : ∀ e s, K.inv s → Q (.error e) s → P s) (n : Nat) : Triple A K P (runDbRetry p n) Q := by
  induction n with
  | zero => exact h
  | succ n ih =>
    refine Triple.tryCatch h (fun _ _ _ hq => hq) fun e => ?_
    split
    · exact ih.pre fun s hs hq => he e s hs hq
    · exact Triple.throw e fun _ _ hq => hq

theorem tagCounts_zero {k : Catalog} (h : (tagCounts c j k).1 = 0) :
    ∀ r ∈ k.rowsOf c, taggedBy j r = false := by
  intro r hr
  have hnil := List.length_eq_zero_iff.mp h
  by_contra ht
  have : r ∈ (k.rowsOf c).filter (taggedBy j) := List.mem_filter.mpr ⟨hr, by simpa using ht⟩
  rw [hnil] at this
  cases this

theorem tagCounts_others {k : Catalog} (h : (tagCounts c j k).2 = 0) :
    ∀ r ∈ k.rowsOf c, taggedBy j r = true := by
  intro r hr
  have hnil := List.length_eq_zero_iff.mp h
  by_contra ht
  have : r ∈ (k.rowsOf c).filter fun r => !taggedBy j r :=
    List.mem_filter.mpr ⟨hr, by simpa using ht⟩
  rw [hnil] at this
  cases this

theorem rowCounts_triple : Triple noFaults (cleanupGuarantee c j) (fun _ => True) (rowCounts c j)
    (fun r s => ∀ n, r = .ok n → (n.1 = 0 → NoneTagged c j s) ∧
      (n.1 ≠ 0 → n.2 = 0 → c ∈ s.cleaning)) := by
  unfold rowCounts
  refine Triple.atomic _ _ stable_true (fun _ _ _ _ => trivial) (fun s a s' hs _ _ hf => ?_)
    (fun s e _ _ _ hf => by cases hf) fun b e s he => False.elim he
  obtain ⟨rfl, rfl⟩ := Prod.mk.inj (Except.ok.inj hf)
  split
  · rename_i h
    refine ⟨⟨hs.grounded, hs.lookalike, fun _ => tagCounts_others h.2⟩, fun _ h _ => h, ?_,
      fun e he => he.elim⟩
    rintro n ⟨⟩
    exact ⟨fun h0 => absurd h0 (Nat.ne_of_gt h.1), fun _ _ => List.mem_cons_self⟩
  · rename_i h
    refine ⟨hs, fun _ h _ => h, ?_, fun e he => he.elim⟩
    rintro n ⟨⟩
    exact ⟨tagCounts_zero, fun h1 h2 => absurd ⟨Nat.pos_of_ne_zero h1, h2⟩ h⟩

/-- A transaction, by what it does to the tables. -/
theorem transaction_triple {P : Sys → Prop} (hP : Stable (cleanupGuarantee c j) P)
    {f : Catalog → Except DbError (α × Catalog)} {Q : Except Exn α → Sys → Prop}
    (hok : ∀ s a k, CleanupInv c j s → P s → f s.catalog = .ok (a, k) →
      CleanupInv c j { s with catalog := k } ∧ KeepsOthers c j s { s with catalog := k } ∧
        Q (.ok a) { s with catalog := k })
    (herr : ∀ s e, CleanupInv c j s → P s → f s.catalog = .error e → Q (.error (Exn.ofDb e)) s) :
    Triple noFaults (cleanupGuarantee c j) P (transaction .db f) Q := by
  refine Triple.atomic _ _ hP (fun _ _ _ _ => trivial) (fun s a s' hs hp _ hf => ?_)
    (fun s e hs hp _ hf => ?_) fun b e s he => False.elim he
  · cases hk : f s.catalog with
    | error e => simp only [hk] at hf; cases hf
    | ok r =>
      obtain ⟨b, k⟩ := r
      simp only [hk] at hf
      obtain ⟨rfl, rfl⟩ := Prod.mk.inj (Except.ok.inj hf)
      obtain ⟨h1, h2, h3⟩ := hok s b k hs hp hk
      exact ⟨h1, h2, h3, fun e he => he.elim⟩
  · cases hk : f s.catalog with
    | error e' => simp only [hk] at hf; cases hf; exact herr s e' hs hp hk
    | ok r => simp only [hk] at hf; cases hf

theorem ensure_triple {H : Digest} :
    Triple noFaults (cleanupGuarantee c j) (fun s => c ∈ s.cleaning) (ensureFeaturesPartition H c)
      (fun r s => ∀ n, r = .ok n → c ∈ s.cleaning ∧ s.catalog.IsPartition c n) := by
  refine Triple.bind (R := fun r s => c ∈ s.cleaning ∧
    ∀ o, r = .ok o → ∀ n, o = some n → s.catalog.IsPartition c n) ?_ (fun o => ?_) ?_
  · refine Triple.read _ _ stable_cleaning (fun s hs hp _ => ⟨trivial, hp, ?_⟩)
      fun b e s he => False.elim he
    rintro o ⟨⟩ n hn
    exact Catalog.isPartition_of_resolves hs.lookalike hn
  · cases o with
    | some n =>
      refine (transaction_triple (stable_partition n) (fun s a k hs hp hk => ?_)
        fun s e _ _ _ => nofun).pre fun s _ h => ⟨h.1, h.2 _ rfl n rfl⟩
      have ha : a = n := by
        obtain ⟨_, _, h⟩ := Catalog.bind_eq_ok.mp hk
        cases h
        rfl
      rw [Catalog.ensureExisting_ok hs.grounded hk]
      refine ⟨hs, fun _ h _ => h, ?_⟩
      rintro m ⟨⟩
      exact ⟨hp.1, ha ▸ hp.2⟩
    | none =>
      refine (transaction_triple stable_cleaning (fun s n k hs hp hk => ?_)
        fun s e _ _ _ => nofun).pre fun s _ h => h.1
      have hens := Catalog.ensureMissing_ok hs.grounded hk
      obtain ⟨hpart, hbounds⟩ := Catalog.ensureMissing_bounds hs.grounded hs.lookalike hk
      refine ⟨⟨hens.grounded, Catalog.noLookalike_of_bounds hs.lookalike fun m _ => hbounds m,
        fun hc r hr => hs.cleaning hc r (hens.rows.mem_iff.mp hr)⟩,
        fun r hr _ => hens.rows.mem_iff.mpr hr, ?_⟩
      rintro m ⟨⟩
      exact ⟨hp, hpart⟩
  · intro e s _ _ n hn
    cases hn

/-- The bounds of the tables after `TRUNCATE` and `DELETE`. -/
theorem emptyPartition_ok {k k' : Catalog} {n : RelName} (hn : k.IsPartition c n)
    (h : emptyPartition c n k = .ok k') : k'.rowsOf c = [] ∧
      ∀ m, (k'.find m).map Table.bound = (k.find m).map Table.bound := by
  obtain ⟨k₁, h₁, h₂⟩ := Catalog.bind_eq_ok.mp h
  have hempty := Catalog.rowsOf_truncate hn h₁
  constructor
  · rw [Catalog.deleteFrom_ok h₂]
    refine List.eq_nil_iff_forall_not_mem.mpr fun r hr => ?_
    obtain ⟨u, hu, hru, _⟩ := Catalog.mem_rowsOf_keep.mp hr
    have := Catalog.mem_rowsOf_iff.mpr ⟨u, hu, hru⟩
    rw [hempty] at this
    cases this
  · intro m
    rw [Catalog.deleteFrom_ok h₂, Catalog.truncateTable_ok h₁, Catalog.find_onTable,
      Catalog.find_onTable]
    cases k.find m with
    | none => split <;> split <;> rfl
    | some t => split <;> split <;> rfl

theorem truncate_triple (n : RelName) :
    Triple noFaults (cleanupGuarantee c j)
      (fun s => c ∈ s.cleaning ∧ s.catalog.IsPartition c n) (truncatePartition c n)
      (fun r s => match r with
        | .ok _ => NoneTagged c j s
        | .error _ => c ∈ s.cleaning ∧ s.catalog.IsPartition c n) := by
  refine Triple.atomic _ _ (stable_partition n) (fun _ _ _ _ => trivial)
    (fun s a s' hs hp _ hf => ?_) (fun s e hs hp _ hf => ?_) fun b e s he => False.elim he
  · cases hk : emptyPartition c n s.catalog with
    | error e => simp only [hk] at hf; cases hf
    | ok k =>
      simp only [hk] at hf
      obtain ⟨_, rfl⟩ := Prod.mk.inj (Except.ok.inj hf)
      obtain ⟨hempty, hbounds⟩ := emptyPartition_ok hp.2 hk
      refine ⟨⟨Catalog.grounded_of_bounds hs.grounded hbounds,
        Catalog.noLookalike_of_bounds hs.lookalike fun m _ => .inr (hbounds m),
        fun hc => by simp at hc⟩, fun r hr ht => ?_, fun r hr => ?_, fun e he => he.elim⟩
      -- every row of the collection is the job's while the clean-up is between count and TRUNCATE
      · exact absurd (hs.cleaning hp.1 r hr) (by simp [ht])
      · rw [hempty] at hr
        cases hr
  · cases hk : emptyPartition c n s.catalog with
    | error e' => exact hp
    | ok k => simp only [hk] at hf; cases hf

theorem deleteTagged_rows (k : Catalog) (r : Row) :
    r ∈ (k.onLive (Table.tame_keep fun r => !(r.collectionId == c && taggedBy j r))).rowsOf c ↔
      r ∈ k.rowsOf c ∧ taggedBy j r = false := by
  refine Catalog.mem_rowsOf_keep.trans ?_
  rw [Catalog.mem_rowsOf_iff]
  constructor
  · rintro ⟨t, ht, hr, hf⟩
    obtain ⟨ha, _, hc⟩ := Catalog.mem_part.mp hr
    exact ⟨⟨t, ht, hr⟩, by simpa [hc] using hf ha⟩
  · rintro ⟨⟨t, ht, hr⟩, hf⟩
    exact ⟨t, ht, hr, fun _ => by simp [hf]⟩

theorem deleteTagged_triple :
    Triple noFaults (cleanupGuarantee c j) (fun _ => True) (deleteTagged c j)
      (fun r s => r = .ok () → NoneTagged c j s) := by
  unfold deleteTagged execute
  refine transaction_triple stable_true (fun s a k hs _ hk => ?_) fun _ _ _ _ _ => nofun
  obtain ⟨_, rfl⟩ := Prod.mk.inj (Except.ok.inj hk)
  have hbounds := s.catalog.bounds_onLive (Table.tame_keep fun r =>
    !(r.collectionId == c && taggedBy j r)) fun _ => rfl
  refine ⟨⟨Catalog.grounded_of_bounds hs.grounded hbounds,
    Catalog.noLookalike_of_bounds hs.lookalike fun m _ => .inr (hbounds m), fun hc r hr => ?_⟩,
    fun r hr ht => (deleteTagged_rows _ r).mpr ⟨hr, ht⟩,
    fun _ r hr => ((deleteTagged_rows _ r).mp hr).2⟩
  exact hs.cleaning hc r ((deleteTagged_rows _ r).mp hr).1

theorem refreshCounts_triple {cfg : Settings} :
    Triple noFaults (cleanupGuarantee c j) (NoneTagged c j) (refreshCounts cfg c)
      (fun _ s => NoneTagged c j s) :=
  still_triple stable_noneTagged (fun s t hk _ hn r hr => hn r (by rwa [hk] at hr))
    still_refreshCounts

theorem truncateAll_triple {H : Digest} {cfg : Settings} :
    Triple noFaults (cleanupGuarantee c j) (fun s => c ∈ s.cleaning)
      (truncateCollectionFeatures H cfg c none (pure ()))
      (fun r s => r = .ok () → NoneTagged c j s) := by
  have hcat : ∀ s t : Sys, t.catalog = s.catalog → t.cleaning = s.cleaning →
      c ∈ s.cleaning → c ∈ t.cleaning := fun s t _ hc h => by rwa [hc]
  have hnone : ∀ s t : Sys, t.catalog = s.catalog → t.cleaning = s.cleaning →
      NoneTagged c j s → NoneTagged c j t := fun s t hk _ hn r hr => hn r (by rwa [hk] at hr)
  have hbody : Triple noFaults (cleanupGuarantee c j) (fun s => c ∈ s.cleaning) (do
      let partition ← ensureFeaturesPartition H c
      runDbRetry (truncatePartition c partition) (cfg.dbAttempts - 1)
      refreshHolder cfg c
      pure () : Work Unit) (fun r s => r = .ok () → NoneTagged c j s) := by
    refine Triple.bind ensure_triple (fun n => ?_) fun e s _ _ => nofun
    refine Triple.bind ((triple_runDbRetry (truncate_triple n) (fun e s _ h => h) _).pre
      fun s _ h => h n rfl) (fun _ => ?_) fun e s _ _ => nofun
    refine Triple.bind (still_triple stable_noneTagged hnone still_refreshHolder) (fun _ => ?_)
      fun e s _ _ => nofun
    exact Triple.pure () fun s _ h _ => h
  have hafter : ∀ r : Except Exn Unit, Stable (cleanupGuarantee c j) fun s =>
      r = .ok () → NoneTagged c j s := fun r s t hst ht h hr => stable_noneTagged s t hst ht (h hr)
  change Triple noFaults (cleanupGuarantee c j) _ (bulkActivity cfg >>= fun _ =>
    Prog.tryFinally (do
      let partition ← ensureFeaturesPartition H c
      runDbRetry (truncatePartition c partition) (cfg.dbAttempts - 1)
      refreshHolder cfg c
      pure () : Work Unit) (bulkActivity cfg)) _
  refine Triple.bind (still_triple stable_cleaning hcat still_bulkActivity) (fun _ => ?_)
    fun e s _ _ => nofun
  refine Triple.tryFinally hbody fun r => ?_
  refine (still_triple (hafter r) (fun s t hk hc h hr => hnone s t hk hc (h hr))
    still_bulkActivity).conseq (fun _ _ h => h) fun r' s _ h => ?_
  cases r' with
  | ok _ => exact h
  | error e => nofun

theorem cleanup_triple {H : Digest} {cfg : Settings} :
    Triple noFaults (cleanupGuarantee c j) (fun _ => True)
      (syncDeleteBulkImportRowsAndRefresh H cfg c j) (fun r s => r = .ok () → NoneTagged c j s) := by
  refine Triple.bind rowCounts_triple (fun n => ?_) fun e s _ _ => nofun
  split
  · rename_i h
    exact (refreshCounts_triple.conseq (fun s _ hn => (hn n rfl).1 h) fun _ _ _ h _ => h)
  · rename_i h1
    split
    · rename_i h2
      refine Triple.bind (truncateAll_triple.pre fun s _ hn => (hn n rfl).2 h1 h2) (fun _ => ?_)
        fun e s _ _ => nofun
      exact refreshCounts_triple.conseq (fun s _ hn => hn rfl) fun _ _ _ h _ => h
    · refine Triple.bind ((triple_runDbRetry deleteTagged_triple (fun _ _ _ _ => trivial) _).pre
        fun _ _ _ => trivial) (fun _ => ?_) fun e s _ _ => nofun
      exact refreshCounts_triple.conseq (fun s _ hn => hn rfl) fun _ _ _ h _ => h

/-- At every moment of the clean-up, the rows of `c` that are not the job's and have been there
at some time are there; and when it has returned, no row of the job is. -/
theorem cleanup_exact (H : Digest) (cfg : Settings) (c : CollectionId) (j : JobId) (s : Sys)
    (hground : s.catalog.Grounded) (hlook : s.catalog.NoLookalike c) (hs : s.cleaning = [])
    (sched : List (Option FeatureInsert))
    (h : Prog.AmidMeets FeatureInsert.commit (NotBetween c) sched
      (syncDeleteBulkImportRowsAndRefresh H cfg c j) s) :
    let out := Prog.amid FeatureInsert.commit sched (syncDeleteBulkImportRowsAndRefresh H cfg c j) s
    (∀ u ∈ out.visited, KeepsOthers c j u out.state) ∧
      (out.prog.returned = true → NoneTagged c j out.state) := by
  have hinv : CleanupInv c j s := ⟨hground, hlook, by simp [hs]⟩
  obtain ⟨hwp, hsound⟩ := Prog.wp_amid (A := noFaults) (R := KeepsOthers c j)
    (Q := fun r s => r = .ok () → NoneTagged c j s)
    (fun r s t hst ht hq hr => stable_noneTagged s t hst ht (hq hr))
    (fun ins s hs hok => commit_inserts hok hs) (fun _ _ hr _ => hr)
    (fun s t u h1 h2 r hr ht => h2 r (h1 r hr ht) ht) (fun _ _ h => h.others) (fun _ _ h => h)
    sched _ s hinv (cleanup_triple s hinv trivial) h
    (Prog.amidTakes_of_all _ (fun _ _ => trivial) sched _ s)
  refine ⟨hsound.last, fun hdone => ?_⟩
  revert hwp hdone
  generalize Prog.amid FeatureInsert.commit sched
    (syncDeleteBulkImportRowsAndRefresh H cfg c j) s = out
  intro hwp hdone
  cases hp : out.prog with
  | atom l g k h => rw [hp] at hdone; cases hdone
  | done r =>
    rw [hp] at hwp hdone
    cases r with
    | error e => cases hdone
    | ok _ => exact hwp rfl

end

instance (c : CollectionId) (ins : FeatureInsert) (s : Sys) : Decidable (NotBetween c ins s) :=
  inferInstanceAs (Decidable (c ∈ s.cleaning → ∀ r ∈ ins.rows, r.collectionId ≠ c))

/-! ## Runs -/

/-- A collection that holds one row, staged by the job of a cancelled import. -/
def cancelledImport : Sys :=
  Sys.idle <| match (do
      let k ← Catalog.initial.createPartition "features_a".toList "a".toList
      k.insertFeatures [{ rowA with bulkImportJobId := some importer.text }]) with
    | .ok k => k
    | .error _ => Catalog.initial

def newFeature : FeatureInsert :=
  ⟨[⟨"new".toList, "a".toList, 0, none, "{}".toList, none, 0, 0⟩], by simp⟩

/-- The clean-up with one feature inserted after `n` of its steps. -/
def insertAfter (n : Nat) : List (Option FeatureInsert) :=
  List.replicate n none ++ some newFeature :: List.replicate 12 none

/-- A feature inserted after the count is gone when the clean-up has returned. -/
theorem truncate_takes_new_feature :
    let out := Prog.amid FeatureInsert.commit (insertAfter 1)
      (syncDeleteBulkImportRowsAndRefresh plainDigest Settings.default "a".toList importer)
      cancelledImport
    out.prog.returned = true ∧
      ¬ ∀ u ∈ out.visited, KeepsOthers "a".toList importer u out.state := by
  refine ⟨by decide +kernel, fun h => ?_⟩
  revert h
  unfold KeepsOthers
  decide +kernel

theorem cancelledImport_noLookalike : cancelledImport.catalog.NoLookalike "a".toList := by
  intro t ht _ x hb _
  have hbounds : cancelledImport.catalog.tables.map Table.bound =
      [some .default, some (.values ["a".toList])] := by decide +kernel
  have hmem := List.mem_map_of_mem (f := Table.bound) ht
  rw [hbounds, hb] at hmem
  simpa using hmem

theorem cancelledImport_grounded : cancelledImport.catalog.Grounded :=
  Catalog.grounded_of_bound (by decide +kernel)

/-- A feature inserted after the `TRUNCATE` stays. -/
theorem feature_after_truncate_stays :
    let out := Prog.amid FeatureInsert.commit (insertAfter 6)
      (syncDeleteBulkImportRowsAndRefresh plainDigest Settings.default "a".toList importer)
      cancelledImport
    (∀ u ∈ out.visited, KeepsOthers "a".toList importer u out.state) ∧
      (out.prog.returned = true → NoneTagged "a".toList importer out.state) :=
  cleanup_exact plainDigest Settings.default "a".toList importer cancelledImport
    cancelledImport_grounded cancelledImport_noLookalike (by decide +kernel) (insertAfter 6)
    (by decide +kernel)

end Bulk
end Geofastmap
