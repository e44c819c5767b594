import Geofastmap.Import.Document

/-!
# Geofastmap.Import.Agree

The fast reader against the generic one, on the same GeoJSON file. They agree when both return, with
the same counts and the same multiset of geometries and properties in the collection. `SameTally`
says the same of what they read, without a run: `agree_iff_sameTally`.
-/

namespace Geofastmap
namespace Import

open Bulk Db Interleave

/-! ## Loops that read -/

section
variable {α β : Type} {read : α → Except Raised β}

theorem readAll_of_ok {f : α → β} {xs : List α} (h : ∀ x ∈ xs, read x = .ok (f x)) :
    readAll read xs = (xs.map f, none) := by
  induction xs with
  | nil => rfl
  | cons x xs ih => simp [readAll, h x (by simp), ih fun y hy => h y (by simp [hy])]

theorem ok_of_readAll {xs : List α} (h : (readAll read xs).2 = none) :
    ∀ x ∈ xs, ∃ b ∈ (readAll read xs).1, read x = .ok b := by
  induction xs with
  | nil => simp
  | cons x xs ih =>
    cases hx : read x with
    | error e => simp [readAll, hx] at h
    | ok b =>
      simp only [readAll, hx] at h ⊢
      intro y hy
      rcases List.mem_cons.mp hy with rfl | hy
      · exact ⟨b, by simp, hx⟩
      · obtain ⟨b', hb', hy⟩ := ih h y hy
        exact ⟨b', by simp [hb'], hy⟩

end

/-! ## The runs and the counts -/

/-- What of a row does not depend on its id. -/
def Row.content (r : Row) : Option Text × Text := (r.geometry, r.properties)

def Draft.contents (d : Draft) : List (Option Text × Text) :=
  d.geometries.map fun g => (g, d.properties)

/-- From `s`, both programs return, with the same counts, and leave the same contents in the
collection. -/
def Agree (c : CollectionId) (s : Sys) (p q : Work Importing) : Prop :=
  ∃ st s₁ st' s₂, p.run s = (.ok st, s₁) ∧ q.run s = (.ok st', s₂) ∧
    st.created = st'.created ∧ st.failed = st'.failed ∧
    ((s₁.catalog.rowsOf c).map Row.content).Perm ((s₂.catalog.rowsOf c).map Row.content)

/-- The readers run undisturbed on a collection with a partition, in batches of at least one
feature, and every id they draw is new. -/
structure Ready (cfg : Settings) (c : CollectionId) (jobId : Option JobId)
    (progress : Status → Nat → Work Unit) (batchSize : Nat) (d d' : Draws) (C : Sys → Prop)
    (s : Sys) : Prop where
  calm : Undisturbed cfg jobId progress C
  state : C s
  batch : 0 < batchSize
  place : s.catalog.Open c
  distinct : d.Distinct
  distinct' : d'.Distinct
  unused : ∀ r ∈ s.catalog.rowsOf c, ∀ n i, r.id ≠ d.uuid n i ∧ r.id ≠ d'.uuid n i

/-- The readers compared by what they make of a file: the lines and the records they read, each with
the exception that ended the loop. -/
structure SameTally (ls : List LineParts × Option Raised) (rs : List (List Part) × Option Raised) :
    Prop where
  linesRead : ls.2 = none
  accepted : ∀ x ∈ ls.1.flatMap LineParts.drafts, x.isOk = true
  recordsRead : rs.2 = none
  created : (ls.1.map LineParts.created).sum = (rs.1.flatMap recordDrafts).length
  failed : (ls.1.map LineParts.failed).sum = (rs.1.map recordFailed).sum
  rows : (((ls.1.flatMap LineParts.drafts).filterMap Except.toOption).flatMap Draft.contents).Perm
    ((rs.1.flatMap recordDrafts).flatMap Draft.contents)

theorem statementRows_items {c : CollectionId} {jobId : Option JobId} {now : Nat}
    (xs : List Statement) : xs.flatMap (statementRows c jobId now) =
      (xs.filterMap Except.toOption).flatMap (Item.rows c jobId now) := by
  induction xs with
  | nil => rfl
  | cons x xs ih =>
    cases x with
    | error e => simpa [statementRows, Except.toOption, List.filterMap_cons] using ih
    | ok it => simpa [statementRows, Except.toOption] using ih

theorem toOption_drafts (xs : List Statement) :
    (xs.filterMap Except.toOption).map Item.draft =
      (xs.map (Except.map Item.draft)).filterMap Except.toOption := by
  rw [List.map_filterMap, List.filterMap_map]
  congr 1
  funext x
  cases x <;> rfl

theorem content_rows {c : CollectionId} {jobId : Option JobId} {now : Nat} (items : List Item) :
    (items.flatMap (Item.rows c jobId now)).map Row.content =
      (items.map Item.draft).flatMap Draft.contents := by
  rw [List.map_flatMap, List.flatMap_map]
  refine List.flatMap_congr fun it _ => ?_
  refine List.ext_getElem (by simp [Item.rows, Draft.contents, Item.draft]) fun i h1 h2 => ?_
  simp [Item.rows, Row.content, Draft.contents, Item.draft]

theorem content_inserted {c : CollectionId} {jobId : Option JobId} {now : Nat} {k k' : Catalog}
    {items : List Item} (h : k.insertFeatures (items.flatMap (Item.rows c jobId now)) = .ok k') :
    ((k'.rowsOf c).map Row.content).Perm
      ((k.rowsOf c).map Row.content ++ (items.map Item.draft).flatMap Draft.contents) := by
  have hown : ∀ r ∈ items.flatMap (Item.rows c jobId now), (r.collectionId == c) = true := by
    intro r hr
    obtain ⟨it, _, hr⟩ := List.mem_flatMap.mp hr
    obtain ⟨i, _, rfl⟩ := List.mem_mapIdx.mp hr
    simp
  have hrows := (Catalog.insertFeatures_ok h c).map Row.content
  rwa [List.filter_eq_self.mpr hown, List.map_append, content_rows] at hrows

section
variable {G : Type} (env : Env G) {cfg : Settings} {c : CollectionId} {jobId : Option JobId}
  {progress : Status → Nat → Work Unit} {batchSize : Nat} {d d' : Draws} {C : Sys → Prop} {s : Sys}
  (hready : Ready cfg c jobId progress batchSize d d' C s)
include hready

/-- The readers on a file with this text and the features `fs`, each from its own start. -/
theorem agree_iff_sameTally (now soFar : Nat) (text : Text) (fs : List Feature) :
    Agree c s
      (importGeojsonlSource cfg c jobId progress batchSize now soFar Session.fresh
        (sourceFile env d d' text fs))
      (importOneSource cfg c jobId progress batchSize now soFar Session.fresh
        (sourceFile env d d' text fs)) ↔
      SameTally (readAll (readLine env) (rawLines text)) (readAll (readRecord env) fs) := by
  generalize hsrc : sourceFile env d d' text fs = src
  generalize hls : readAll (readLine env) (rawLines text) = ls
  generalize hrs : readAll (readRecord env) fs = rs
  have hlines : src.lines = numberLines d ls.1 := by rw [← hsrc, ← hls]; rfl
  have hlinesError : src.linesError = ls.2 := by rw [← hsrc, ← hls]; rfl
  have hrecords : src.records = numberRecords d' rs.1 := by rw [← hsrc, ← hrs]; rfl
  have hrecordsError : src.recordsError = rs.2 := by rw [← hsrc, ← hrs]; rfl
  have hqueued : src.queued.map (Except.map Item.draft) = ls.1.flatMap LineParts.drafts := by
    rw [SourceFile.queued, hlines, drafts_lines]
  have hinserted : src.inserted.map Item.draft = rs.1.flatMap recordDrafts := by
    rw [SourceFile.inserted, hrecords, drafts_records]
  have hdrawn : Drawn d (src.queued.filterMap Except.toOption) := by
    rw [SourceFile.queued, hlines]
    exact drawn_lines hready.distinct ls.1
  have hdrawn' : Drawn d' src.inserted := by
    rw [SourceFile.inserted, hrecords]
    exact drawn_records hready.distinct' rs.1
  have hfit : Fits s.catalog (src.queued.flatMap (statementRows c jobId now)) := by
    rw [statementRows_items]
    refine fits_items hready.place hdrawn.ids fun it hit r hr => ?_
    obtain ⟨n, i, hi⟩ := hdrawn.range it hit
    exact hi ▸ (hready.unused r hr n i).1
  have hfit' : Fits s.catalog (src.inserted.flatMap (Item.rows c jobId now)) := by
    refine fits_items hready.place hdrawn'.ids fun it hit r hr => ?_
    obtain ⟨n, i, hi⟩ := hdrawn'.range it hit
    exact hi ▸ (hready.unused r hr n i).2
  have hrun := run_importGeojsonlSource hready.calm hready.batch soFar Session.fresh rfl src _ hfit s
    ⟨hready.state, rfl⟩
  have hrun' := run_importOneSource hready.calm hready.batch soFar Session.fresh rfl src _ hfit' s
    ⟨hready.state, rfl⟩
  have hrefused : src.LinesRefused ↔
      ¬(ls.2 = none ∧ ∀ x ∈ ls.1.flatMap LineParts.drafts, x.isOk = true) := by
    have hok : ∀ x : Statement, (x.map Item.draft).isOk = x.isOk := by
      intro x
      cases x <;> rfl
    rw [SourceFile.LinesRefused, hlinesError, ← hqueued]
    simp only [List.mem_map, forall_exists_index, and_imp, forall_apply_eq_imp_iff₂, hok]
    simp [imp_iff_not_or]
  rw [statementRows_items] at hrun
  constructor
  · rintro ⟨st, s₁, st', s₂, h₁, h₂, hcreated, hfailed, hrows⟩
    rw [h₁] at hrun
    rw [h₂] at hrun'
    obtain ⟨hread, hc, hf, hk⟩ := hrun
    obtain ⟨hread', hc', hf', hk'⟩ := hrun'
    rw [hrefused, not_not] at hread
    refine ⟨hread.1, hread.2, hrecordsError ▸ hread', ?_, ?_, ?_⟩
    · rw [← sum_lines created_content d ls.1, ← hinserted, List.length_map, ← hlines, ← hc, ← hc']
      exact hcreated
    · rw [← sum_lines failed_content d ls.1, ← failed_records d' rs.1, ← hlines, ← hrecords, ← hf,
        ← hf']
      exact hfailed
    · have h := (content_inserted hk).symm.trans (hrows.trans (content_inserted hk'))
      rw [List.perm_append_left_iff, toOption_drafts, hqueued, hinserted] at h
      exact h
  · intro h
    have hread : ¬src.LinesRefused := fun hr => hrefused.mp hr ⟨h.linesRead, h.accepted⟩
    have hread' : ¬src.recordsError ≠ none := by rw [hrecordsError, h.recordsRead]; simp
    rcases h₁ : (importGeojsonlSource cfg c jobId progress batchSize now soFar Session.fresh
      src).run s with ⟨r, s₁⟩
    rcases h₂ : (importOneSource cfg c jobId progress batchSize now soFar Session.fresh
      src).run s with ⟨r', s₂⟩
    rw [h₁] at hrun
    rw [h₂] at hrun'
    cases r with
    | error e => exact absurd hrun hread
    | ok st =>
      cases r' with
      | error e => exact absurd hrun' hread'
      | ok st' =>
        obtain ⟨_, hc, hf, hk⟩ := hrun
        obtain ⟨_, hc', hf', hk'⟩ := hrun'
        refine ⟨st, s₁, st', s₂, h₁, h₂, ?_, ?_, ?_⟩
        · rw [hc, hc', hlines, sum_lines created_content, h.created, ← hinserted, List.length_map]
        · rw [hf, hf', hlines, hrecords, sum_lines failed_content, failed_records, h.failed]
        · refine (content_inserted hk).trans (List.Perm.trans ?_ (content_inserted hk').symm)
          rw [List.perm_append_left_iff, toOption_drafts, hqueued, hinserted]
          exact h.rows

end

end Import
end Geofastmap
