import Mathlib.Data.Char
import Mathlib.Data.List.Lex
import Geofastmap.Items.Rows

/-!
# Geofastmap.Items.Pages

`list_features_paginated`: one page of the logical features of a collection.

Phase one selects a page of feature ids with one of five statements, chosen by the filters and by
the sort key; phase two fetches the parts of these ids.

- `pageIds` is phase one as it is written, `pageIds_eq` what the five statements have in common.
- `pages_complete_iff` is the exact condition under which the pages at offsets `0, L, 2L, ...`
  hold every matching id once, whatever PostgreSQL chooses for each page.
-/

namespace Geofastmap
namespace Items

open Db Import

def idKey : Text := "id".toList

def createdAtKey : Text := "created_at".toList

theorem createdAtKey_ne_idKey : createdAtKey ≠ idKey := by decide

/-- The keyword arguments of `list_features_paginated`. A list stands for `None` when empty. -/
structure Query (N : Type) where
  limit : Nat
  offset : Nat
  bbox : Option (Bbox N)
  datetimeStart : Option Nat
  datetimeEnd : Option Nat
  sortby : Option Text
  sortdesc : Bool
  propertyFilters : List (Text × Text)
  structuredFilters : List PropertyFilter
  fulltextQ : Option Text
  featureIds : List Text
  collectionFeatureCount : Option Nat
  includeGeometry : Bool
  skipCount : Bool
  excludeBulkJobIds : List Text

/-- A feature as the listing returns it: the geometry is the union of the geometries of the parts,
the bounding box their extent. -/
structure Feature where
  id : Text
  collectionId : CollectionId
  properties : Text
  createdAt : Nat
  updatedAt : Nat
  geometry : Option (List Text)
  bbox : Option (List Text)
deriving DecidableEq, Repr

/-- The choices for the two statements of a call that leave something open. -/
structure Choices (N : Type) where
  count : Choice N
  page : Choice N

variable {κ N : Type} [LinearOrder κ] [LinearOrder N] (pg : Pg κ N)

/-- A text without its outer blanks; a blank text is none. -/
def nonBlank (s : Option Text) : Option Text := (s.map strip).filter fun t => !t.isEmpty

namespace Query

variable (q : Query N)

/-- `(sortby.strip() if sortby else None) or None`. -/
def sort : Option Text := nonBlank q.sortby

/-- `fulltext_q and fulltext_q.strip()`. -/
def search : Option Text := nonBlank q.fulltextQ

/-- `has_filters`, and `has_any_filter` of phase one. -/
def hasFilters : Bool :=
  q.bbox.isSome || q.datetimeStart.isSome || q.datetimeEnd.isSome || !q.propertyFilters.isEmpty ||
    !q.structuredFilters.isEmpty || q.search.isSome || !q.featureIds.isEmpty

def filters : List (Clause N) :=
  (if q.featureIds.isEmpty then [] else [.ids q.featureIds]) ++
    (q.bbox.map Clause.bbox).toList ++ (q.datetimeStart.map Clause.createdFrom).toList ++
    (q.datetimeEnd.map Clause.createdTo).toList ++
    (q.propertyFilters.map fun kv => Clause.property kv.1 kv.2) ++
    q.structuredFilters.map Clause.structured ++
    (q.search.map fun s => Clause.fulltext ('%' :: escapeLike s ++ ['%'])).toList

def shadowJobs : List Text := q.excludeBulkJobIds.filter fun j => !j.isEmpty

def shadow : List (Clause N) := if q.shadowJobs.isEmpty then [] else [.visible q.shadowJobs]

def clauses : List (Clause N) := q.filters ++ q.shadow

omit [LinearOrder N] in
theorem filters_eq_nil : q.filters = [] ↔ q.hasFilters = false := by
  simp [filters, hasFilters, and_assoc]
  tauto

end Query

/-- `safe_json_key`. -/
def safeJsonKey (s : Text) : Text := (s.filter fun ch => pg.isalnum ch || ch == '_').take 200

/-- Phase one. A property key is sorted by `props ->> 'key'`, where `props` names a column of the
result; PostgreSQL knows such a name in `ORDER BY` only when it stands alone. -/
def pageIds (ch : Choice N) (rows : List Row) (q : Query N) : Except PgError (List Text) :=
  let page (s : SortBy) (cs : List (Clause N)) : Except PgError (List Text) :=
    match scan pg ch cs rows with
    | .error e => .error e
    | .ok rs =>
      .ok ((Paging.window q.offset q.limit (ordered pg ch s q.sortdesc (groups rs))).map Group.id)
  if q.hasFilters = false ∧ (q.sort = none ∨ q.sort = some idKey) then
    match scan pg ch q.shadow rows with
    | .error e => .error e
    | .ok rs =>
      let sub := (ordered pg ch .id q.sortdesc (groups rs)).take (q.limit + q.offset)
      .ok ((Paging.window q.offset q.limit (ordered pg ch .id q.sortdesc sub)).map Group.id)
  else if q.hasFilters = false ∧ q.sort = some createdAtKey then
    page .createdThenId q.shadow
  else
    match q.sort with
    | none => page .id (q.filters ++ q.shadow)
    | some key =>
      if key = createdAtKey then page .created (q.filters ++ q.shadow)
      else if key = idKey then page .id (q.filters ++ q.shadow)
      else if (safeJsonKey pg key).isEmpty then page .id (q.filters ++ q.shadow)
      else .error .undefinedColumn

/-- `COUNT(DISTINCT id)`. -/
def countDistinct (ch : Choice N) (rows : List Row) (q : Query N) : Except PgError Nat :=
  match scan pg ch q.clauses rows with
  | .error e => .error e
  | .ok rs => .ok (rs.map Row.id).dedup.length

/-- The total before the page is fetched; `none` is deferred. -/
def totalBefore (ch : Choice N) (rows : List Row) (q : Query N) : Except PgError (Option Nat) :=
  match q.skipCount, q.hasFilters, q.collectionFeatureCount with
  | true, false, some n => .ok (some n)
  | true, _, _ => .ok none
  | false, false, some n => .ok (some n)
  | false, _, _ => (countDistinct pg ch rows q).map some

/-- Geometries that are shown; no geometry is `None`. -/
def shown (geometries : List Text) : Option (List Text) :=
  if geometries.isEmpty then none else some geometries

/-- Parts of one id as one feature. -/
def logicalFeature (includeGeometry : Bool) (parts : List Row) : Option Feature :=
  match parts.mergeSort fun a b => a.partIndex ≤ b.partIndex with
  | [] => none
  | first :: rest => some {
      id := first.id
      collectionId := first.collectionId
      properties := first.properties
      createdAt := rest.foldl (fun t r => min t r.createdAt) first.createdAt
      updatedAt := rest.foldl (fun t r => max t r.updatedAt) first.updatedAt
      geometry := if includeGeometry then shown ((first :: rest).filterMap Row.geometry) else none
      bbox := if includeGeometry then none else shown ((first :: rest).filterMap Row.geometry) }

/-- The rows that a reader sees while the given jobs are hidden. -/
def visibleRows (jobs : List Text) (rows : List Row) : List Row :=
  rows.filter fun r => r.bulkImportJobId.all fun j => !jobs.contains j

/-- Phase two. -/
def pageFeatures (rows : List Row) (q : Query N) (ids : List Text) : List Feature :=
  let parts := (visibleRows q.shadowJobs rows).filter fun r => ids.contains r.id
  ids.filterMap fun i => logicalFeature q.includeGeometry (parts.filter (·.id == i))

/-- `list_features_paginated`, on the rows of the collection. -/
def listFeaturesPaginated (ch : Choices N) (rows : List Row) (q : Query N) :
    Except PgError (List Feature × Nat) :=
  match totalBefore pg ch.count rows q with
  | .error e => .error e
  | .ok total =>
    match pageIds pg ch.page rows q with
    | .error e => .error e
    | .ok [] => .ok ([], total.getD q.offset)
    | .ok ids =>
      let n := ids.length
      let total := total.getD (if n < q.limit then q.offset + n else q.offset + n + 1)
      .ok (pageFeatures rows q ids, total)

/-! ## What the five statements have in common -/

/-- The `ORDER BY` that the sort key and the filters lead to. -/
def Query.order (q : Query N) : Except PgError SortBy :=
  match q.sort with
  | none => .ok .id
  | some key =>
    if key = idKey then .ok .id
    else if key = createdAtKey then
      .ok (if q.hasFilters then .created else .createdThenId)
    else if (safeJsonKey pg key).isEmpty then .ok .id
    else .error .undefinedColumn

theorem pageIds_eq (ch : Choice N) (rows : List Row) (q : Query N) :
    pageIds pg ch rows q =
      match q.order pg with
      | .error e => .error e
      | .ok s =>
        match scan pg ch q.clauses rows with
        | .error e => .error e
        | .ok rs =>
          .ok ((Paging.window q.offset q.limit
            (ordered pg ch s q.sortdesc (groups rs))).map Group.id) := by
  have hne := createdAtKey_ne_idKey
  by_cases hf : q.hasFilters = false
  · have hnil : q.filters = [] := q.filters_eq_nil.mpr hf
    have hcl : q.clauses = q.shadow := by simp [Query.clauses, hnil]
    cases hs : q.sort with
    | none => simp [pageIds, Query.order, hf, hs, hcl, ordered_take, Paging.window_take]
    | some key =>
      by_cases hid : key = idKey
      · simp [pageIds, Query.order, hf, hs, hid, hcl, ordered_take, Paging.window_take]
      by_cases hc : key = createdAtKey
      · simp [pageIds, Query.order, hf, hs, hc, hcl, hne]
      by_cases hk : (safeJsonKey pg key).isEmpty = true
      · simp [pageIds, Query.order, hf, hs, hid, hc, hcl, hk, hnil]
      · simp [pageIds, Query.order, hf, hs, hid, hc, hk]
  · cases hs : q.sort with
    | none => simp [pageIds, Query.order, hf, hs, Query.clauses]
    | some key =>
      by_cases hid : key = idKey
      · simp [pageIds, Query.order, hf, hs, hid, hne.symm, Query.clauses]
      by_cases hc : key = createdAtKey
      · simp [pageIds, Query.order, hf, hs, hc, hne, Query.clauses]
      by_cases hk : (safeJsonKey pg key).isEmpty = true
      · simp [pageIds, Query.order, hf, hs, hid, hc, hk, Query.clauses]
      · simp [pageIds, Query.order, hf, hs, hid, hc, hk]

/-! ## One page -/

omit [LinearOrder κ] [LinearOrder N] in
theorem logicalFeature_some {b : Bool} {parts : List Row} {i : Text} (hne : parts ≠ [])
    (hid : ∀ r ∈ parts, r.id = i) : ∃ f, logicalFeature b parts = some f ∧ f.id = i := by
  have hperm := List.mergeSort_perm parts fun a b => decide (a.partIndex ≤ b.partIndex)
  cases hs : parts.mergeSort fun a b => decide (a.partIndex ≤ b.partIndex) with
  | nil => exact absurd (hs ▸ hperm).symm.eq_nil hne
  | cons first rest =>
    have hfirst : first ∈ parts := by
      rw [hs] at hperm
      exact hperm.mem_iff.mp (by simp)
    simp only [logicalFeature, hs]
    exact ⟨_, rfl, hid first hfirst⟩

omit [LinearOrder κ] [LinearOrder N] in
/-- Phase two drops none of the ids that have a visible row. -/
theorem map_id_pageFeatures (rows : List Row) (q : Query N) (ids : List Text)
    (h : ∀ i ∈ ids, ∃ r ∈ visibleRows q.shadowJobs rows, r.id = i) :
    (pageFeatures rows q ids).map Feature.id = ids := by
  have hone : ∀ i ∈ ids, ∃ f, logicalFeature q.includeGeometry
      (((visibleRows q.shadowJobs rows).filter fun r => ids.contains r.id).filter (·.id == i)) =
        some f ∧ f.id = i := by
    intro i hi
    obtain ⟨r, hr, rfl⟩ := h i hi
    refine logicalFeature_some ?_ ?_
    · exact List.ne_nil_of_mem (a := r) (by simp [hr, hi])
    · intro r' hr'
      simpa using (List.mem_filter.mp hr').2
  unfold pageFeatures
  generalize (visibleRows q.shadowJobs rows).filter (fun r => ids.contains r.id) = parts at hone
  clear h
  induction ids with
  | nil => rfl
  | cons i ids ih =>
    obtain ⟨f, hf, hid⟩ := hone i (by simp)
    simp only [List.filterMap_cons, hf, List.map_cons, hid]
    rw [ih fun i' hi' => hone i' (by simp [hi'])]

theorem visible_of_matching {rows : List Row} {q : Query N} {r : Row}
    (h : r ∈ matching pg q.clauses rows) : r ∈ visibleRows q.shadowJobs rows := by
  obtain ⟨hr, hall⟩ := List.mem_filter.mp h
  refine List.mem_filter.mpr ⟨hr, ?_⟩
  by_cases hj : q.shadowJobs = []
  · simp [hj]
  · have hc : Clause.visible q.shadowJobs ∈ q.clauses := by
      simp [Query.clauses, Query.shadow, hj]
    simpa [Clause.holds, Clause.eval] using List.all_eq_true.mp hall _ hc

/-- The groups of the matching rows of a query. -/
def matchingGroups (rows : List Row) (q : Query N) : List Group :=
  groups (matching pg q.clauses rows)

/-- The matching logical feature ids. -/
def matchingIds (rows : List Row) (q : Query N) : List Text :=
  ((matching pg q.clauses rows).map Row.id).dedup

theorem map_id_matchingGroups (rows : List Row) (q : Query N) :
    (matchingGroups pg rows q).map Group.id = matchingIds pg rows q := map_id_groups _

/-- The ids of one page. -/
def windowIds (ch : Choice N) (rows : List Row) (q : Query N) (s : SortBy) : List Text :=
  (Paging.window q.offset q.limit (ordered pg ch s q.sortdesc (matchingGroups pg rows q))).map
    Group.id

theorem windowIds_subset (ch : Choice N) (rows : List Row) (q : Query N) (s : SortBy) :
    ∀ i ∈ windowIds pg ch rows q s, i ∈ matchingIds pg rows q := by
  intro i hi
  obtain ⟨g, hg, rfl⟩ := List.mem_map.mp hi
  have hord := (ordered_arranged pg ch s q.sortdesc (matchingGroups pg rows q)).1
  have hmem : g ∈ matchingGroups pg rows q :=
    hord.mem_iff.mp ((Paging.window_sublist _ _ _).mem hg)
  rw [← map_id_matchingGroups]
  exact List.mem_map_of_mem hmem

theorem windowIds_visible (ch : Choice N) (rows : List Row) (q : Query N) (s : SortBy) :
    ∀ i ∈ windowIds pg ch rows q s, ∃ r ∈ visibleRows q.shadowJobs rows, r.id = i := by
  intro i hi
  have hid := windowIds_subset pg ch rows q s i hi
  rw [matchingIds, List.mem_dedup] at hid
  obtain ⟨r, hr, he⟩ := List.mem_map.mp hid
  exact ⟨r, visible_of_matching pg hr, he⟩

theorem pageIds_ok (ch : Choice N) {rows : List Row} {q : Query N} {s : SortBy}
    (hsafe : Safe pg q.clauses rows) (hs : q.order pg = .ok s) :
    pageIds pg ch rows q = .ok (windowIds pg ch rows q s) := by
  rw [pageIds_eq, hs, scan_ok pg ch hsafe]
  rfl

theorem totalBefore_ok (ch : Choice N) {rows : List Row} {q : Query N}
    (hsafe : Safe pg q.clauses rows) : ∃ total, totalBefore pg ch rows q = .ok total := by
  have hcount : countDistinct pg ch rows q = .ok (matchingIds pg rows q).length := by
    simp [countDistinct, scan_ok pg ch hsafe, matchingIds]
  unfold totalBefore
  split
  · exact ⟨_, rfl⟩
  · exact ⟨_, rfl⟩
  · exact ⟨_, rfl⟩
  · exact ⟨_, by rw [hcount]; rfl⟩

/-- A call whose conjuncts cannot raise returns the features of its window. -/
theorem listFeaturesPaginated_ok (ch : Choices N) {rows : List Row} {q : Query N} {s : SortBy}
    (hsafe : Safe pg q.clauses rows) (hs : q.order pg = .ok s) :
    ∃ total, listFeaturesPaginated pg ch rows q =
      .ok (pageFeatures rows q (windowIds pg ch.page rows q s), total) := by
  obtain ⟨total, htotal⟩ := totalBefore_ok pg ch.count hsafe
  simp only [listFeaturesPaginated, htotal, pageIds_ok pg ch.page hsafe hs]
  cases hids : windowIds pg ch.page rows q s with
  | nil => exact ⟨total.getD q.offset, by simp [pageFeatures]⟩
  | cons i ids => exact ⟨_, rfl⟩

theorem listFeaturesPaginated_unordered (ch : Choices N) (rows : List Row) {q : Query N}
    {e : PgError} (hs : q.order pg = .error e) :
    ∃ e, listFeaturesPaginated pg ch rows q = .error e := by
  simp only [listFeaturesPaginated, pageIds_eq, hs]
  cases totalBefore pg ch.count rows q with
  | error e' => exact ⟨e', rfl⟩
  | ok total => exact ⟨e, rfl⟩

/-- Where a conjunct raises on a row, PostgreSQL may meet it. -/
theorem listFeaturesPaginated_unsafe {rows : List Row} {q : Query N}
    (hsafe : ¬ Safe pg q.clauses rows) :
    ∃ e, listFeaturesPaginated pg ⟨.hasty pg, .hasty pg⟩ rows q = .error e := by
  obtain ⟨e, he⟩ := scan_hasty pg hsafe
  cases hs : q.order pg with
  | error e' => exact listFeaturesPaginated_unordered pg _ rows hs
  | ok s =>
    simp only [listFeaturesPaginated, pageIds_eq, hs, he]
    cases totalBefore pg (.hasty pg) rows q with
    | error e' => exact ⟨e', rfl⟩
    | ok total => exact ⟨e, rfl⟩

/-! ## All pages -/

/-- The page of size `L` with number `k`. -/
def Query.page (q : Query N) (L k : Nat) : Query N := { q with limit := L, offset := k * L }

/-- Whatever PostgreSQL chooses for each page: the pages answer, and together they hold every
matching id once. -/
def PagesComplete (rows : List Row) (q : Query N) (L : Nat) : Prop :=
  ∀ ch : Nat → Choices N, ∃ pages : Nat → List Feature,
    (∀ k, ∃ total, listFeaturesPaginated pg (ch k) rows (q.page L k) = .ok (pages k, total)) ∧
      ∀ n, (matchingIds pg rows q).length ≤ n * L →
        ((List.range n).flatMap fun k => (pages k).map Feature.id).Perm (matchingIds pg rows q)

/-- The choice that evaluates conjuncts as they are written. -/
def Choice.written (rank : Text → Nat) : Choice N where
  conjuncts _ cs := cs
  perm _ cs := List.Perm.refl cs
  rank := rank

/-- `created_at` of the matches, sorted. -/
def sortedTimes (rows : List Row) (q : Query N) : List Nat :=
  (ordered pg (.written fun _ => 0) .created q.sortdesc (matchingGroups pg rows q)).map
    Group.createdAt

omit [LinearOrder κ] [LinearOrder N] in
theorem perm_of_perm_ids {gs ws : List Group} (hnd : (gs.map Group.id).Nodup)
    (hws : ∀ g ∈ ws, g ∈ gs) (h : (ws.map Group.id).Perm (gs.map Group.id)) : ws.Perm gs := by
  have hndws : ws.Nodup := List.Nodup.of_map _ (h.nodup_iff.mpr hnd)
  refine (List.perm_ext_iff_of_nodup hndws (List.Nodup.of_map _ hnd)).mpr fun g => ⟨hws g, fun hg => ?_⟩
  have hid : g.id ∈ ws.map Group.id := h.mem_iff.mpr (List.mem_map_of_mem hg)
  obtain ⟨g', hg', he⟩ := List.mem_map.mp hid
  rwa [← List.inj_on_of_nodup_map hnd (hws g' hg') hg he]

/-- Pages of a query that has an order and meets no error. -/
theorem pagesComplete_iff_windows {rows : List Row} {q : Query N} {L : Nat} {s : SortBy}
    (hsafe : Safe pg q.clauses rows) (hs : q.order pg = .ok s) :
    PagesComplete pg rows q L ↔
      ∀ ch : Nat → Choice N, ∀ n, (matchingGroups pg rows q).length ≤ n * L →
        ((List.range n).flatMap fun k => Paging.window (k * L) L
          (ordered pg (ch k) s q.sortdesc (matchingGroups pg rows q))).Perm
            (matchingGroups pg rows q) := by
  have hids := map_id_matchingGroups pg rows q
  have hlen : (matchingIds pg rows q).length = (matchingGroups pg rows q).length := by
    rw [← hids, List.length_map]
  have hpage : ∀ (ch : Choices N) k, ∃ total, listFeaturesPaginated pg ch rows (q.page L k) =
      .ok (pageFeatures rows (q.page L k) (windowIds pg ch.page rows (q.page L k) s), total) :=
    fun ch k => listFeaturesPaginated_ok pg ch (q := q.page L k) hsafe hs
  have hfeat : ∀ (ch : Choice N) k, (pageFeatures rows (q.page L k)
      (windowIds pg ch rows (q.page L k) s)).map Feature.id =
        (Paging.window (k * L) L (ordered pg ch s q.sortdesc (matchingGroups pg rows q))).map
          Group.id := fun ch k => map_id_pageFeatures _ _ _ (windowIds_visible pg ch rows _ s)
  constructor
  · intro h ch n hn
    obtain ⟨pages, hpages, hperm⟩ := h fun k => ⟨ch k, ch k⟩
    have heq : ∀ k, (pages k).map Feature.id = (Paging.window (k * L) L
        (ordered pg (ch k) s q.sortdesc (matchingGroups pg rows q))).map Group.id := by
      intro k
      obtain ⟨total, ht⟩ := hpages k
      obtain ⟨total', ht'⟩ := hpage ⟨ch k, ch k⟩ k
      have hfst := congrArg Prod.fst (Except.ok.inj (ht'.symm.trans ht))
      rw [← show _ = pages k from hfst]
      exact hfeat (ch k) k
    have hperm := hperm n (hlen ▸ hn)
    simp only [heq] at hperm
    rw [← List.map_flatMap, ← hids] at hperm
    refine perm_of_perm_ids (hids ▸ List.nodup_dedup _) ?_ hperm
    intro g hg
    obtain ⟨k, -, hk⟩ := List.mem_flatMap.mp hg
    exact (ordered_arranged pg (ch k) s q.sortdesc _).1.mem_iff.mp
      ((Paging.window_sublist _ _ _).mem hk)
  · intro h ch
    refine ⟨fun k => pageFeatures rows (q.page L k)
      (windowIds pg (ch k).page rows (q.page L k) s), fun k => hpage (ch k) k, fun n hn => ?_⟩
    simp only [hfeat]
    rw [← List.map_flatMap, ← hids]
    exact (h (fun k => (ch k).page) n (hlen ▸ hn)).map _

omit [LinearOrder N] in
/-- PostgreSQL's choices reach every arrangement, independently for each page. -/
theorem forall_choices_iff (s : SortBy) (desc : Bool) {gs : List Group}
    (hnd : (gs.map Group.id).Nodup) (P : (Nat → List Group) → Prop) :
    (∀ ch : Nat → Choice N, P fun k => ordered pg (ch k) s desc gs) ↔
      ∀ ls : Nat → List Group, (∀ k, Paging.Arranged (s.le pg desc) gs (ls k)) → P ls := by
  constructor
  · intro h ls hls
    have hch := h fun k => .written fun i => ((ls k).map Group.id).idxOf i
    convert hch with k
    refine (Paging.arrange_eq (s.le_trans pg desc) (s.le_total pg desc) (hls k) ?_).symm
    have hndl : ((ls k).map Group.id).Nodup := ((hls k).1.map _).nodup_iff.mpr hnd
    rw [List.pairwise_iff_getElem]
    intro i j hi hj hij
    have hidx : ∀ i (hi : i < (ls k).length), ((ls k).map Group.id).idxOf (ls k)[i].id = i := by
      intro i hi
      have := hndl.idxOf_getElem i (by simpa using hi)
      rwa [List.getElem_map] at this
    change ((ls k).map Group.id).idxOf _ < ((ls k).map Group.id).idxOf _
    rw [hidx i hi, hidx j hj]
    exact hij
  · intro h ch
    exact h _ fun k => ordered_arranged pg (ch k) s desc gs

omit [LinearOrder N] in
/-- A sort that ends with the id leaves no two matches in one rank. -/
theorem splitAt_of_total {s : SortBy} (hne : s ≠ .created) {desc : Bool} {gs l : List Group}
    (hnd : (gs.map Group.id).Nodup) (hl : Paging.Arranged (s.le pg desc) gs l) {m : Nat}
    (hm : 0 < m) : Paging.SplitAt (s.le pg desc) l m := by
  intro a b ha hb
  by_contra hba
  have hba : s.le pg desc b a = true := by simpa using hba
  obtain ⟨hlt, rfl⟩ := List.getElem?_eq_some_iff.mp hb
  obtain ⟨hlt', rfl⟩ := List.getElem?_eq_some_iff.mp ha
  have hab := List.pairwise_iff_getElem.mp hl.2 (m - 1) m hlt' hlt (by omega)
  have hid : l[m - 1].id = l[m].id := SortBy.eq_of_le_le pg hne hab hba
  have hndl : (l.map Group.id).Nodup := (hl.1.map _).nodup_iff.mpr hnd
  have hsame := List.pairwise_iff_getElem.mp hndl (m - 1) m (by simpa using hlt')
    (by simpa using hlt) (by omega)
  simp only [List.getElem_map] at hsame
  exact hsame hid

omit [LinearOrder N] in
/-- Two matches on both sides of a boundary share their rank exactly when they share
`created_at`. -/
theorem splitAt_created_iff {desc : Bool} {gs l : List Group}
    (hl : Paging.Arranged (SortBy.created.le pg desc) gs l) {m : Nat} (hm : 0 < m)
    (hlt : m < gs.length) :
    Paging.SplitAt (SortBy.created.le pg desc) l m ↔
      (l.map Group.createdAt)[m - 1]? ≠ (l.map Group.createdAt)[m]? := by
  have hml : m < l.length := by rw [hl.1.length_eq]; exact hlt
  have hab := List.pairwise_iff_getElem.mp hl.2 (m - 1) m (by omega) hml (by omega)
  have ha : l[m - 1]? = some l[m - 1] := List.getElem?_eq_getElem _
  have hb : l[m]? = some l[m] := List.getElem?_eq_getElem _
  rw [List.getElem?_map, List.getElem?_map, ha, hb]
  simp only [Paging.SplitAt, ha, hb, Option.some.injEq, Option.map_some, ne_eq]
  cases desc <;> simp [SortBy.le, SortBy.ascending] at hab ⊢ <;> omega

/-- Complete pages of a query that has an order and meets no error. -/
theorem pagesComplete_iff_split {rows : List Row} {q : Query N} {L : Nat} {s : SortBy} (hL : 0 < L)
    (hsafe : Safe pg q.clauses rows) (hs : q.order pg = .ok s) :
    PagesComplete pg rows q L ↔
      (s = .created → ∀ k, 0 < k → k * L < (matchingIds pg rows q).length →
        (sortedTimes pg rows q)[k * L - 1]? ≠ (sortedTimes pg rows q)[k * L]?) := by
  have hids := map_id_matchingGroups pg rows q
  have hnd : ((matchingGroups pg rows q).map Group.id).Nodup := hids ▸ List.nodup_dedup _
  have hlen : (matchingIds pg rows q).length = (matchingGroups pg rows q).length := by
    rw [← hids, List.length_map]
  have hl := ordered_arranged pg (.written fun _ => 0) s q.sortdesc (matchingGroups pg rows q)
  have hwin := Paging.windows_perm_iff (s.le_trans pg q.sortdesc) (s.le_total pg q.sortdesc)
    (List.Nodup.of_map _ hnd) hL hl
  rw [pagesComplete_iff_windows pg hsafe hs, forall_choices_iff pg s q.sortdesc hnd
    (fun ls => ∀ n, (matchingGroups pg rows q).length ≤ n * L →
      ((List.range n).flatMap fun k => Paging.window (k * L) L (ls k)).Perm
        (matchingGroups pg rows q)), hwin, hlen]
  by_cases hc : s = .created
  · subst hc
    simp only [forall_const]
    refine forall_congr' fun k => forall_congr' fun hk => forall_congr' fun hkn => ?_
    exact splitAt_created_iff pg hl (Nat.mul_pos hk hL) hkn
  · refine iff_of_true (fun k hk _ => ?_) fun h => absurd h hc
    exact splitAt_of_total pg hc hnd hl (Nat.mul_pos hk hL)

/-- The exact condition for complete pages: no text of a filter has NUL, no conjunct raises on a row
of the collection, the sort key is not a property name that reaches the statement, and where matches are sorted by
`created_at` alone no page ends between two matches of one time. -/
theorem pages_complete_iff (rows : List Row) (q : Query N) (L : Nat) (hL : 0 < L) :
    PagesComplete pg rows q L ↔
      Safe pg q.clauses rows ∧ ∃ s, q.order pg = .ok s ∧
        (s = .created → ∀ k, 0 < k → k * L < (matchingIds pg rows q).length →
          (sortedTimes pg rows q)[k * L - 1]? ≠ (sortedTimes pg rows q)[k * L]?) := by
  by_cases hsafe : Safe pg q.clauses rows
  swap
  · refine iff_of_false (fun h => ?_) fun h => hsafe h.1
    obtain ⟨pages, hpages, -⟩ := h fun _ => ⟨.hasty pg, .hasty pg⟩
    obtain ⟨total, ht⟩ := hpages 0
    obtain ⟨e, he⟩ := listFeaturesPaginated_unsafe pg (q := q.page L 0) hsafe
    simp [he] at ht
  cases hs : q.order pg with
  | error e =>
    refine iff_of_false (fun h => ?_) fun h => by simpa using h.2
    obtain ⟨pages, hpages, -⟩ := h fun _ => ⟨.hasty pg, .hasty pg⟩
    obtain ⟨total, ht⟩ := hpages 0
    have hs' : (q.page L 0).order pg = .error e := hs
    obtain ⟨e', he⟩ := listFeaturesPaginated_unordered pg ⟨.hasty pg, .hasty pg⟩ rows hs'
    simp [he] at ht
  | ok s =>
    rw [pagesComplete_iff_split pg hL hsafe hs]
    constructor
    · intro h
      exact ⟨hsafe, s, rfl, h⟩
    · rintro ⟨-, s', hs', h⟩
      cases hs'
      exact h

/-! ## Two features of one import -/

/-- The properties of a feature whose height is a word. -/
def tallText : Text := '\x7b' :: "\"height\": \"tall\"".toList ++ ['\x7d']

/-- The value of a text of digits. -/
def decimal (t : Text) : Option Nat :=
  if t.isEmpty || !t.all Char.isDigit then none
  else some (t.foldl (fun n ch => 10 * n + (ch.toNat - '0'.toNat)) 0)

/-- `s LIKE p`. -/
def likeRaising (s p : Text) : Except PgError Bool :=
  if Sql.reachesEscape false p s then .error .invalidEscapeSequence else .ok (Sql.likeEscape p s)

theorem likeRaising_ok_iff (s p : Text) :
    (∃ b, likeRaising s p = .ok b) ↔ Sql.reachesEscape false p s = false := by
  unfold likeRaising
  cases Sql.reachesEscape false p s <;> simp

/-- Texts compare by code points and numbers are natural. -/
def samplePg : Pg Text Nat where
  collate := id
  collate_injective := Function.injective_id
  properties _ := some []
  astext p key := if p = tallText ∧ key = "height".toList then some "tall".toList else none
  hasKey p key := p == tallText && key == "height".toList
  hasKey_of_astext p key v h := by
    by_cases hk : p = tallText ∧ key = "height".toList
    · rw [hk.1, hk.2]
      decide
    · rw [if_neg hk] at h
      cases h
  lower := Sql.lower
  like := likeRaising
  like_ok_iff := likeRaising_ok_iff
  ilike v p := likeRaising (Sql.lower v) (Sql.lower p)
  ilike_ok_iff _ _ := likeRaising_ok_iff _ _
  cast := decimal
  float := decimal
  flat p := if p = tallText then some "tall".toList else none
  inside _ _ := false
  isalnum := Char.isAlphanum

def sampleRow (name : Char) (time : Nat) : Row where
  id := [name]
  collectionId := ['r']
  partIndex := 0
  geometry := none
  properties := "null".toList
  bulkImportJobId := none
  createdAt := time
  updatedAt := time

/-- `sortby=created_at&datetime=2024-01-01/..`. -/
def byTime : Query Nat where
  limit := 1
  offset := 0
  bbox := none
  datetimeStart := some 0
  datetimeEnd := none
  sortby := some createdAtKey
  sortdesc := false
  propertyFilters := []
  structuredFilters := []
  fulltextQ := none
  featureIds := []
  collectionFeatureCount := none
  includeGeometry := false
  skipCount := false
  excludeBulkJobIds := []

theorem byTime_order : byTime.order samplePg = .ok .created := by decide

theorem byTime_clauses : byTime.clauses = [.createdFrom 0] := rfl

theorem byTime_safe (rows : List Row) : Safe samplePg byTime.clauses rows := by
  refine ⟨rfl, fun r _ c hc => ?_⟩
  obtain rfl : c = .createdFrom 0 := by simpa [byTime_clauses] using hc
  rfl

theorem byTime_matching (rows : List Row) : matching samplePg byTime.clauses rows = rows := by
  simp [matching, byTime_clauses, Clause.holds, Clause.eval]

theorem byTime_groups (s t : Nat) :
    matchingGroups samplePg [sampleRow 'a' s, sampleRow 'b' t] byTime = [⟨['a'], s⟩, ⟨['b'], t⟩] := by
  rw [matchingGroups, byTime_matching]
  simp [groups, sampleRow, List.dedup_cons_of_notMem]

theorem byTime_times {s t : Nat} (h : s ≤ t) :
    sortedTimes samplePg [sampleRow 'a' s, sampleRow 'b' t] byTime = [s, t] := by
  rw [sortedTimes, byTime_groups, ordered, Paging.arrange, List.mergeSort_of_pairwise]
  · rfl
  · simp [Paging.ranked, SortBy.le, SortBy.ascending, byTime, Choice.written, h]

theorem byTime_ids (s t : Nat) :
    (matchingIds samplePg [sampleRow 'a' s, sampleRow 'b' t] byTime).length = 2 := by
  rw [← map_id_matchingGroups, byTime_groups]
  rfl

/-- Two features of one `created_at`: both pages of size one may hold the same feature. -/
theorem tied_pages_repeat :
    ¬ PagesComplete samplePg [sampleRow 'a' 5, sampleRow 'b' 5] byTime 1 := by
  rw [pagesComplete_iff_split samplePg (by decide) (byTime_safe _) byTime_order,
    byTime_ids, byTime_times le_rfl]
  intro h
  exact h rfl 1 (by decide) (by decide) rfl

theorem distinct_times_complete :
    0 < 1 ∧ PagesComplete samplePg [sampleRow 'a' 5, sampleRow 'b' 6] byTime 1 := by
  refine ⟨by decide, (pages_complete_iff samplePg _ byTime 1 (by decide)).mpr
    ⟨byTime_safe _, .created, byTime_order, fun _ k hk hlt => ?_⟩⟩
  rw [byTime_ids] at hlt
  obtain rfl : k = 1 := by omega
  rw [byTime_times (by decide)]
  decide

end Items
end Geofastmap
