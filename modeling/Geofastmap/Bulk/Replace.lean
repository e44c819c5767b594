import Geofastmap.Bulk.Orphans
import Geofastmap.Bulk.Steps

/-!
# Geofastmap.Bulk.Replace

A replace import while it is finalized: any number of runs of `process_bulk_finalize_job` for the
job, each stopped or made to raise anywhere, the cancel route at any moment, and other work that
does not write the collection. `replace_atomic` is the invariant of all such runs. Its one
condition is on the statements that drop the staging table: after the swap that table is the live
partition, and the cancelled branch, the cancel route and the clean-up of a failed import drop it
by its name without asking.
-/

namespace Geofastmap
namespace Bulk

open Db Interleave Catalog

section
variable (J : JobId) (C : CollectionId)

/-- Work that writes neither the collection nor the staging table of the job. -/
structure NoWriter (g : Sys → Sys) : Prop where
  rows : ∀ s, ((g s).catalog.rowsOf C).Perm (s.catalog.rowsOf C)
  view : ∀ s, (g s).catalog.view (stagingTableName J) = s.catalog.view (stagingTableName J)
  grounded : ∀ s, s.catalog.Grounded → (g s).catalog.Grounded

/-- What may be started while the job is finalized. -/
inductive ReplaceTask where
  | finalize (itemsCreated itemsFailed : Nat) (ownerId : Option Nat) (tiles : Bool) (attempt : Nat)
  | cancel
  | other (g : Sys → Sys) (h : NoWriter J C g)

variable {J C} in
def ReplaceTask.entry (H : Digest) (cfg : Settings) : ReplaceTask J C → Work Unit
  | .finalize created failed owner tiles attempt =>
    processBulkFinalizeJob H cfg ⟨J, C, .replace, created, failed, owner, tiles, attempt⟩
  | .cancel => cancelJob cfg J
  | .other g _ => Prog.write .db g

/-- Any step may raise. The staging table of the job is only dropped while it is not attached. -/
def replaceAssume : Assume Label Sys Exn where
  may l s := match l with
    | .dropStaging j => j = J → s.catalog.partitionIsAttached (stagingTableName J) = false
    | _ => True
  raises _ _ _ := True

/-- Before the swap the rows of the collection are the old ones, after it they are the staged
ones, which the staging table holds. -/
def ReplaceInv (old staged : List Row) (s : Sys) : Prop :=
  s.catalog.Grounded ∧
    ((s.catalog.view (stagingTableName J) = none ∨
        s.catalog.view (stagingTableName J) = some (staged, none)) ∧
      (s.catalog.rowsOf C).Perm old ∨
    s.catalog.view (stagingTableName J) = some (staged, some (.values [C])))

def replaceGuarantee (old staged : List Row) : Guarantee Label Sys where
  inv := ReplaceInv J C old staged
  rely _ _ := True
  rel _ _ := True
  must _ _ := True
  rely_refl _ := trivial
  rely_trans _ _ := trivial
  rel_refl _ := trivial

end

variable {J : JobId} {C : CollectionId} {old staged : List Row}

theorem ReplaceInv.of_same {s s' : Sys} (h : ReplaceInv J C old staged s)
    (hg : s.catalog.Grounded → s'.catalog.Grounded)
    (hv : s'.catalog.view (stagingTableName J) = s.catalog.view (stagingTableName J))
    (hr : (s'.catalog.rowsOf C).Perm (s.catalog.rowsOf C)) : ReplaceInv J C old staged s' := by
  refine ⟨hg h.1, ?_⟩
  rw [hv]
  exact h.2.imp (fun h => ⟨h.1, hr.trans h.2⟩) id

/-- The steps that keep the invariant where they may be taken. -/
def ReplaceStep (J : JobId) (C : CollectionId) (old staged : List Row) (l : Label)
    (g : Sys → Sys) : Prop :=
  ∀ s, ReplaceInv J C old staged s → (replaceAssume J).may l s → ReplaceInv J C old staged (g s)

theorem replaceStep_quiet {l : Label} {g : Sys → Sys} (h : Quiet l g) :
    ReplaceStep J C old staged l g := by
  intro s hs _
  have hk := (h.2 s).catalog
  exact hs.of_same (fun hg => by rw [hk]; exact hg) (by rw [hk]) (by rw [hk])

/-- A transaction keeps the invariant when its success does. -/
theorem replaceStep_onDb {l : Label} {f : Catalog → Except DbError Catalog}
    (h : ∀ s k, ReplaceInv J C old staged s → (replaceAssume J).may l s → f s.catalog = .ok k →
      ReplaceInv J C old staged { s with catalog := k }) :
    ReplaceStep J C old staged l (Sys.onDb f) := by
  intro s hs hmay
  unfold Sys.onDb
  split
  · rename_i k hk; exact h s k hs hmay hk
  · exact hs

theorem stagingTableName_ne (j : JobId) {n : RelName} (h : n.head? = some 'f') :
    stagingTableName j ≠ n := by
  intro he
  have hb : (stagingTableName j).head? = some 'b' := rfl
  rw [he, h] at hb
  exact absurd hb (by decide)

theorem stagingTableName_ne_default (j : JobId) : stagingTableName j ≠ featuresDefault :=
  stagingTableName_ne j (by decide)

theorem stagingTableName_ne_safe (H : Digest) (j : JobId) (c : CollectionId) :
    stagingTableName j ≠ safePartitionName H c :=
  stagingTableName_ne j rfl

theorem partitionIsAttached_iff {k : Catalog} {n : RelName} :
    k.partitionIsAttached n = true ↔ ∃ rs b, k.view n = some (rs, some b) := by
  unfold partitionIsAttached
  cases h : k.find n with
  | none => simp [view, h]
  | some t => simp [view, h, Table.attached, Option.isSome_iff_exists]

/-- Dropping the table while it is not attached. -/
theorem replaceInv_drop {s : Sys} (hs : ReplaceInv J C old staged s)
    (hatt : s.catalog.partitionIsAttached (stagingTableName J) = false) :
    ReplaceInv J C old staged { s with catalog := s.catalog.drop (stagingTableName J) } := by
  have hne := (stagingTableName_ne_default J).symm
  refine ⟨grounded_of_view hs.1 (by rw [view_drop, if_neg hne]), .inl ⟨.inl ?_, ?_⟩⟩
  · rw [view_drop, if_pos rfl]
  · rcases hs.2 with ⟨_, hrows⟩ | hview
    · refine List.Perm.trans ?_ hrows
      rw [rowsOf_drop]
      intro t ht hn
      have hfind : s.catalog.find (stagingTableName J) = some t := hn ▸ find_of_mem ht
      have : t.attached = false := by simpa [partitionIsAttached, hfind] using hatt
      simp [Table.part, this]
    · have := partitionIsAttached_iff.mpr ⟨_, _, hview⟩
      exact absurd (hatt.symm.trans this) Bool.false_ne_true

theorem replaceStep_ensured (H : Digest) {f : Catalog → Except DbError Catalog}
    (h : ∀ k k', k.Grounded → f k = .ok k' → Ensured H C k k') :
    ReplaceStep J C old staged .db (Sys.onDb f) := by
  refine replaceStep_onDb fun s k hs _ hk => ?_
  have he := h _ _ hs.1 hk
  exact hs.of_same (fun _ => he.grounded) (view_of_find (he.find _ (stagingTableName_ne_default J)
    (stagingTableName_ne_safe H J C))) he.rows

theorem map_snd_ok {α : Type} {x : Except DbError (α × Catalog)} {k : Catalog}
    (h : x.map Prod.snd = .ok k) : ∃ a, x = .ok (a, k) := by
  cases x with
  | error e => cases h
  | ok p => cases h; exact ⟨p.1, rfl⟩

theorem replaceStep_prepare :
    ReplaceStep J C old staged .db
      (Sys.onDb fun k => k.prepareStagingForAttach C (stagingTableName J)) := by
  refine replaceStep_onDb fun s k hs _ hk => ?_
  refine hs.of_same (fun hg => grounded_of_view hg (prepare_view hk _)) (prepare_view hk _) ?_
  rw [(kept_prepare hk C).rows]

theorem replaceStep_swap (H : Digest) :
    ReplaceStep J C old staged (.swap C (stagingTableName J))
      (Sys.onDb fun k => k.swapStagingIntoCollectionPartition H C (stagingTableName J)) := by
  refine replaceStep_onDb fun s k hs _ hk => ?_
  have hne := stagingTableName_ne_default J
  have hswapped : Swapped C (stagingTableName J) staged k := by
    rcases hs.2 with ⟨hv, _⟩ | hv
    · exact swap_ok hs.1 hne (.inl (hv.resolve_left (swap_exists hs.1 hne hk))) hk
    · exact swap_ok hs.1 hne (.inr hv) hk
  exact ⟨hswapped.grounded, .inr hswapped.view⟩

theorem replaceStep_dropFailed :
    ReplaceStep J C old staged (.dropStaging J)
      (Sys.onDb (dropFailedStaging (stagingTableName J))) := by
  refine replaceStep_onDb fun s k hs hmay hk => ?_
  have hatt := hmay rfl
  unfold dropFailedStaging at hk
  split at hk
  · simp only [hatt, Bool.false_eq_true, if_false] at hk
    cases hk
    exact replaceInv_drop hs hatt
  · cases hk
    exact hs

theorem replaceStep_covers (H : Digest) (cfg : Settings) (J : JobId) (C : CollectionId)
    (old staged : List Row) :
    Covers (ReplaceStep J C old staged) H cfg J C (· = .replace) := by
  have hq : ∀ l g, Quiet l g → ReplaceStep J C old staged l g := fun _ _ => replaceStep_quiet
  have hdrop : (dropStagingTable J).Within (ReplaceStep J C old staged) := by
    refine within_execute (replaceStep_onDb fun s k hs hmay hk => ?_)
    cases hk
    exact replaceInv_drop hs (hmay rfl)
  have hsame : ∀ s, ReplaceInv J C old staged s → ∀ s' : Sys, s'.catalog = s.catalog →
      ReplaceInv J C old staged s' := fun s hs s' hk =>
    hs.of_same (fun hg => by rw [hk]; exact hg) (by rw [hk]) (by rw [hk])
  refine ⟨hq, hdrop, within_execute replaceStep_dropFailed, ?_, ?_,
    fun d => within_release (fun s hs _ => hs) fun s hs _ => hsame s hs _ rfl,
    fun u s hs _ => hsame s hs _ rfl⟩
  · refine within_ensure hq (fun n => replaceStep_ensured H fun k k' hk h => ?_)
      (replaceStep_ensured H fun k k' hk h => ?_)
    · obtain ⟨_, h⟩ := map_snd_ok h
      rw [ensureExisting_ok hk h]
      exact Ensured.refl hk C
    · obtain ⟨_, h⟩ := map_snd_ok h
      exact ensureMissing_ok hk h
  · rintro m rfl
    exact within_promoteReplace hq (fun s hs _ => hs) hdrop
      (within_swap replaceStep_prepare (replaceStep_swap H))

/-- In every run of finalize runs, cancels and other work, with steps that raise and programs that
stop anywhere, the rows of the collection are the old ones or the staged ones, as long as the
staging table is only dropped while it is not attached. -/
theorem replace_atomic (H : Digest) (cfg : Settings) (J : JobId) (C : CollectionId)
    (staged : List Row) (s : Sys) (hg : s.catalog.Grounded)
    (hs : s.catalog.view (stagingTableName J) = some (staged, none))
    (run : List (Choice (ReplaceTask J C) Exn))
    (hrun : Meets (replaceAssume J) (fun _ _ => True) (ReplaceTask.entry H cfg) ⟨s, [], []⟩ run) :
    let k := ((Config.mk s [] []).exec (ReplaceTask.entry H cfg) run).st.catalog
    (k.rowsOf C).Perm (s.catalog.rowsOf C) ∨ k.rowsOf C = staged := by
  have hentry : ∀ (a : ReplaceTask J C) t, (replaceGuarantee J C (s.catalog.rowsOf C) staged).inv t →
      True → (a.entry H cfg).wp (replaceAssume J)
        (replaceGuarantee J C (s.catalog.rowsOf C) staged) (fun _ _ => True) t := by
    intro a t ht _
    have hS := replaceStep_covers H cfg J C (s.catalog.rowsOf C) staged
    have hwithin : (a.entry H cfg).Within
        (ReplaceStep J C (s.catalog.rowsOf C) staged) := by
      cases a with
      | finalize => exact hS.processBulkFinalizeJob rfl rfl rfl
      | cancel => exact hS.cancelJob
      | other g hw =>
        exact Prog.Within.write fun t ht _ => ht.of_same (hw.grounded t) (hw.view t) (hw.rows t)
    exact hwithin.keeps (fun l g h t ht hmay => ⟨trivial, h t ht hmay, trivial⟩) t ht trivial
  have hgood : (Config.mk s [] [] : Config Label Sys Exn).Good (replaceAssume J)
      (replaceGuarantee J C (s.catalog.rowsOf C) staged) :=
    ⟨⟨hg, .inl ⟨.inr hs, .refl _⟩⟩, by simp, by simp⟩
  have hinv := (exec_good (fun _ _ h => h) hentry run hgood hrun).inv
  rcases hinv.2 with ⟨_, hrows⟩ | hview
  · exact .inl hrows
  · exact .inr (rowsOf_of_view hview)

/-! ## A run with a cancel after the swap -/

def oldRow : Row := ⟨"0".toList, "a".toList, 0, none, "{}".toList, none, 0, 0⟩

/-- Collection `a` has one row, and a replace import has staged another one. -/
def stagedImport : Sys :=
  { Sys.idle (((do
      let k ← Catalog.initial.createPartition (safePartitionName plainDigest "a".toList) "a".toList
      let k ← k.insertFeatures [oldRow]
      let k ← k.createTable (stagingTableName importer) true
      k.insertInto (stagingTableName importer) [rowA]).toOption).getD Catalog.initial) with
    jobs := [importerJob]
    registered := [importer] }

/-- The finalize worker takes some steps, then the user cancels. -/
def finalizeThenCancel (n m : Nat) : List (Choice (ReplaceTask importer "a".toList) Exn) :=
  .spawn (.finalize 1 0 none false 0) :: List.replicate n (.step 0) ++
    .spawn .cancel :: List.replicate m (.step 1)

/-- A cancel between the swap and the end of the finalize run leaves neither the old rows nor the
staged ones. -/
theorem cancel_after_swap_loses_both :
    stagedImport.catalog.rowsOf "a".toList = [oldRow] ∧
    stagedImport.catalog.view (stagingTableName importer) = some ([rowA], none) ∧
    ((Config.mk stagedImport [] []).exec (ReplaceTask.entry plainDigest Settings.default)
      (finalizeThenCancel 10 9)).st.catalog.rowsOf "a".toList = [] := by
  decide +kernel

instance (J : JobId) (s : Sys) : ∀ l, Decidable ((replaceAssume J).may l s)
  | .dropStaging j =>
    inferInstanceAs (Decidable (j = J → s.catalog.partitionIsAttached (stagingTableName J) = false))
  | .redis | .db | .promote _ _ | .swap _ _ | .append _ | .markPending _ | .markState _
  | .pushFinalize _ | .recover _ _ | .mutex _ _ _ | .seeJob _ | .seeJobs | .setStatus _ _
  | .storage | .load _ _ | .commit _ | .deleteBatch | .clearTags _ => isTrue trivial

instance (J : JobId) (l : Label) (b : Bool) (e : Exn) :
    Decidable ((replaceAssume J).raises l b e) :=
  isTrue trivial

theorem stagedImport_grounded : stagedImport.catalog.Grounded :=
  grounded_of_bound (by decide +kernel)

/-- A cancel after the end of the finalize run finds the job completed. -/
theorem cancel_after_finalize_keeps_staged :
    let k := ((Config.mk stagedImport [] []).exec (ReplaceTask.entry plainDigest Settings.default)
      (finalizeThenCancel 17 2)).st.catalog
    (k.rowsOf "a".toList).Perm (stagedImport.catalog.rowsOf "a".toList) ∨
      k.rowsOf "a".toList = [rowA] :=
  replace_atomic plainDigest Settings.default importer "a".toList [rowA] stagedImport
    stagedImport_grounded (by decide +kernel) (finalizeThenCancel 17 2) (by decide +kernel)

end Bulk
end Geofastmap
