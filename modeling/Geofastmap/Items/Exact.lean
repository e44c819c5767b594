import Geofastmap.Items.Pages

/-!
# Geofastmap.Items.Exact

The items route answers a list of equality filters by a fast path: `resolve_structured_eq_feature_ids`
selects the ids whose properties match, up to a limit and in no order, and
`list_features_paginated` pages inside these ids. `eq_fast_path_iff` is the exact condition under
which the page and the link to the next page are those of the query with the filters themselves,
whatever ids the first statement returns.
-/

namespace Geofastmap
namespace Items

open Db Import

variable {κ N : Type} [LinearOrder κ] [LinearOrder N] (pg : Pg κ N)

/-- `validate_property_index_field`: `[a-zA-Z_][a-zA-Z0-9_]{0,63}`. -/
def validPropertyIndexField (field : Text) : Bool :=
  match strip field with
  | [] => false
  | ch :: rest =>
    (ch.isAlpha || ch == '_') && rest.all (fun c => c.isAlphanum || c == '_') && rest.length ≤ 63

/-- `properties ? key AND properties ->> key = value`. -/
def eqHolds (f : PropertyFilter) (r : Row) : Bool :=
  pg.hasKey r.properties (strip f.key) && pg.astext r.properties (strip f.key) == some f.value

/-- The distinct ids that the resolving statement may return. -/
def eqIds (jobs : List Text) (filters : List PropertyFilter) (rows : List Row) : List Text :=
  (((visibleRows jobs rows).filter fun r => filters.all fun f => eqHolds pg f r).map Row.id).dedup

/-- The filters that `resolve_structured_eq_feature_ids` takes. -/
def allEq (filters : List PropertyFilter) : Bool :=
  !filters.isEmpty && filters.all fun f => f.op == .eq && validPropertyIndexField f.key

/-- The parameters of the resolving statement are taken. -/
def eqBindable (filters : List PropertyFilter) : Bool :=
  filters.all fun f => bindableText (strip f.key) && bindableText f.value

/-- `resolve_structured_eq_feature_ids`: distinct ids without an order, up to the limit. -/
def resolveStructuredEqFeatureIds (pick : Choice N) (rows : List Row) (filters : List PropertyFilter)
    (limit : Nat) (jobs : List Text) : Except PgError (Option (List Text)) :=
  if allEq filters then
    if eqBindable filters then
      .ok (some ((Paging.arrange Paging.unordered pick.rank (eqIds pg jobs filters rows)).take
        (max 1 limit)))
    else .error .characterNotInRepertoire
  else .ok none

/-- The route tries the fast path when the structured filters are the only text filters. -/
def Query.tries (q : Query N) : Bool :=
  !q.structuredFilters.isEmpty && q.search.isNone && q.propertyFilters.isEmpty

/-- The arguments with which the fast path calls `list_features_paginated`. -/
def Query.within (q : Query N) (ids : List Text) : Query N :=
  { q with structuredFilters := [], fulltextQ := none, featureIds := ids,
           collectionFeatureCount := some ids.length, skipCount := true }

/-- What the route loads. -/
def loadPage (pick : Choice N) (ch : Choices N) (rows : List Row) (q : Query N) :
    Except PgError (List Feature × Nat) :=
  if q.tries then
    match resolveStructuredEqFeatureIds pg pick rows q.structuredFilters (max q.limit 50)
      q.shadowJobs with
    | .error e => .error e
    | .ok none => listFeaturesPaginated pg ch rows q
    | .ok (some []) => .ok ([], 0)
    | .ok (some (i :: ids)) => listFeaturesPaginated pg ch rows (q.within (i :: ids))
  else listFeaturesPaginated pg ch rows q

/-- The page, and whether a next page is linked. -/
def answer (q : Query N) (r : Except PgError (List Feature × Nat)) :
    Except PgError (List Feature × Bool) :=
  r.map fun p => (p.1, decide (q.offset + p.1.length < p.2))

/-- Whatever ids the resolving statement returns, the route gives the answers that the listing with
the filters may give, and no other. -/
def FastPathAgrees (rows : List Row) (q : Query N) : Prop :=
  ∀ pick : Choice N, ∀ a, (∃ ch, answer q (loadPage pg pick ch rows q) = a) ↔
    ∃ ch, answer q (listFeaturesPaginated pg ch rows q) = a

/-- All parts of a feature carry the same properties, as every statement that writes features
leaves them. -/
def Uniform (rows : List Row) : Prop :=
  ∀ r ∈ rows, ∀ r' ∈ rows, r.id = r'.id → r.properties = r'.properties

/-- The arguments of the items route: a positive limit, no explicit ids, and keys as
`parse_filter_param` leaves them. -/
structure FromRoute (q : Query N) : Prop where
  limit : 0 < q.limit
  ids : q.featureIds = []
  keys : ∀ f ∈ q.structuredFilters, strip f.key = f.key

/-! ## One filtered query -/

/-- The total of a filtered query. -/
def filteredTotal (rows : List Row) (q : Query N) (ids : List Text) : Nat :=
  if q.skipCount then
    if ids.isEmpty then q.offset
    else if ids.length < q.limit then q.offset + ids.length else q.offset + ids.length + 1
  else (matchingIds pg rows q).length

theorem listFeaturesPaginated_filtered (ch : Choices N) {rows : List Row} {q : Query N} {s : SortBy}
    (hf : q.hasFilters = true) (hsafe : Safe pg q.clauses rows) (hs : q.order pg = .ok s) :
    listFeaturesPaginated pg ch rows q =
      .ok (pageFeatures rows q (windowIds pg ch.page rows q s),
        filteredTotal pg rows q (windowIds pg ch.page rows q s)) := by
  have hcount : countDistinct pg ch.count rows q = .ok (matchingIds pg rows q).length := by
    simp [countDistinct, scan_ok pg ch.count hsafe, matchingIds]
  have htotal : totalBefore pg ch.count rows q =
      .ok (if q.skipCount then none else some (matchingIds pg rows q).length) := by
    cases hk : q.skipCount <;> simp [totalBefore, hk, hf, hcount, Except.map]
  simp only [listFeaturesPaginated, htotal, pageIds_ok pg ch.page hsafe hs]
  cases hids : windowIds pg ch.page rows q s with
  | nil => cases hk : q.skipCount <;> simp [pageFeatures, filteredTotal, hk]
  | cons i ids => cases hk : q.skipCount <;> simp [filteredTotal, hk]

/-- The answer of a filtered query whose conjuncts cannot raise. -/
theorem answer_filtered (ch : Choices N) {rows : List Row} {q q' : Query N} {s : SortBy}
    (hf : q'.hasFilters = true) (hsafe : Safe pg q'.clauses rows)
    (hs : q'.order pg = .ok s) :
    answer q (listFeaturesPaginated pg ch rows q') =
      .ok (pageFeatures rows q' (windowIds pg ch.page rows q' s),
        decide (q.offset + (windowIds pg ch.page rows q' s).length <
          filteredTotal pg rows q' (windowIds pg ch.page rows q' s))) := by
  have hlen : (pageFeatures rows q' (windowIds pg ch.page rows q' s)).length =
      (windowIds pg ch.page rows q' s).length := by
    rw [← List.length_map (f := Feature.id),
      map_id_pageFeatures _ _ _ (windowIds_visible pg ch.page rows q' s)]
  rw [listFeaturesPaginated_filtered pg ch hf hsafe hs]
  simp only [answer, Except.map, hlen]

/-- Without a count, a full page announces one more. -/
theorem lt_filteredTotal_skipped {rows : List Row} {q : Query N} (hk : q.skipCount = true)
    {ids : List Text} (hne : ids ≠ []) :
    q.offset + ids.length < filteredTotal pg rows q ids ↔ q.limit ≤ ids.length := by
  simp only [filteredTotal, hk, if_true, List.isEmpty_iff, hne, if_false]
  split <;> omega

theorem length_windowIds (ch : Choice N) (rows : List Row) (q : Query N) (s : SortBy) :
    (windowIds pg ch rows q s).length =
      min q.limit ((matchingIds pg rows q).length - q.offset) := by
  have hlen : (ordered pg ch s q.sortdesc (matchingGroups pg rows q)).length =
      (matchingIds pg rows q).length := by
    rw [(ordered_arranged pg ch s q.sortdesc _).1.length_eq, ← map_id_matchingGroups,
      List.length_map]
  rw [windowIds, List.length_map, Paging.length_window, hlen]

/-! ## The two queries of the route -/

/-- The conjuncts that both queries share, apart from the hidden jobs. -/
def Query.others (q : Query N) : List (Clause N) :=
  (q.bbox.map Clause.bbox).toList ++ (q.datetimeStart.map Clause.createdFrom).toList ++
    (q.datetimeEnd.map Clause.createdTo).toList

omit [LinearOrder N] in
theorem clauses_tried {q : Query N} (hr : FromRoute q) (ht : q.tries = true) :
    q.clauses = q.others ++ q.structuredFilters.map Clause.structured ++ q.shadow := by
  simp only [Query.tries, Bool.and_eq_true, Option.isNone_iff_eq_none, List.isEmpty_iff] at ht
  simp [Query.clauses, Query.filters, Query.others, hr.ids, ht.1.2, ht.2]

omit [LinearOrder N] in
theorem clauses_within {q : Query N} (ht : q.tries = true) {ids : List Text} (hne : ids ≠ []) :
    (q.within ids).clauses = [.ids ids] ++ q.others ++ q.shadow := by
  simp only [Query.tries, Bool.and_eq_true, List.isEmpty_iff] at ht
  simp [Query.clauses, Query.filters, Query.others, Query.within, Query.search, nonBlank, ht.2, hne,
    Query.shadow, Query.shadowJobs]

theorem others_safe (q : Query N) (r : Row) : ∀ c ∈ q.others ++ q.shadow, c.raises pg r = false := by
  intro c hc
  have hkind : (∃ b, c = .bbox b) ∨ (∃ t, c = .createdFrom t) ∨ (∃ t, c = .createdTo t) ∨
      ∃ jobs, c = .visible jobs := by
    simp only [Query.others, Query.shadow, List.mem_append, Option.mem_toList, Option.map_eq_some_iff]
      at hc
    rcases hc with ((⟨b, -, rfl⟩ | ⟨t, -, rfl⟩) | ⟨t, -, rfl⟩) | hc
    · exact .inl ⟨b, rfl⟩
    · exact .inr (.inl ⟨t, rfl⟩)
    · exact .inr (.inr (.inl ⟨t, rfl⟩))
    · split at hc
      · simp at hc
      · exact .inr (.inr (.inr ⟨_, by simpa using hc⟩))
  rcases hkind with ⟨b, rfl⟩ | ⟨t, rfl⟩ | ⟨t, rfl⟩ | ⟨jobs, rfl⟩ <;> rfl

/-- An equality with a clean key, as the listing evaluates it. -/
theorem eval_eq {f : PropertyFilter} (hop : f.op = .eq) (hkey : strip f.key = f.key) (r : Row) :
    (Clause.structured f : Clause N).eval pg r = .ok (eqHolds pg f r) := by
  simp only [Clause.eval, structuredFilterClause, eqHolds, hkey, hop]
  cases hv : pg.astext r.properties f.key with
  | none => simp
  | some v =>
    have hk := pg.hasKey_of_astext _ _ _ hv
    simp [hk]

theorem allEq_spec {fs : List PropertyFilter} (h : allEq fs = true) : ∀ f ∈ fs, f.op = .eq := by
  intro f hf
  simp only [allEq, Bool.and_eq_true, List.all_eq_true, beq_iff_eq] at h
  exact (h.2 f hf).1

omit [LinearOrder N] in
theorem bindable_others (q : Query N) : bindable (q.others ++ q.shadow) = true := by
  rw [bindable, List.all_eq_true]
  intro c hc
  simp only [Query.others, Query.shadow, List.mem_append, Option.mem_toList, Option.map_eq_some_iff]
    at hc
  rcases hc with ((⟨b, -, rfl⟩ | ⟨t, -, rfl⟩) | ⟨t, -, rfl⟩) | hc
  · rfl
  · rfl
  · rfl
  · split at hc
    · simp at hc
    · obtain rfl := by simpa using hc
      rfl

omit [LinearOrder N] in
/-- The filters of the request are what both statements bind. -/
theorem bindable_tried {q : Query N} (hr : FromRoute q) (ht : q.tries = true) :
    bindable q.clauses = eqBindable q.structuredFilters := by
  have hothers := bindable_others q
  have hfilters : bindable (q.structuredFilters.map (Clause.structured (N := N))) =
      eqBindable q.structuredFilters := by
    rw [bindable, eqBindable, List.all_map, Bool.eq_iff_iff, List.all_eq_true, List.all_eq_true]
    refine forall₂_congr fun f hf => ?_
    simp [Clause.texts, hr.keys f hf]
  rw [bindable] at hothers hfilters
  rw [List.all_append, Bool.and_eq_true] at hothers
  rw [bindable, clauses_tried hr ht, List.all_append, List.all_append, hfilters, hothers.1, hothers.2]
  simp

theorem safe_tried {q : Query N} (hr : FromRoute q) (ht : q.tries = true)
    (he : allEq q.structuredFilters = true) (hb : bindable q.clauses = true) (rows : List Row) :
    Safe pg q.clauses rows := by
  refine ⟨hb, fun r _ c hc => ?_⟩
  rw [clauses_tried hr ht, List.append_assoc, List.mem_append, List.mem_append] at hc
  rcases hc with hc | hc | hc
  · exact others_safe pg q r c (List.mem_append_left _ hc)
  · obtain ⟨f, hf, rfl⟩ := List.mem_map.mp hc
    simp [Clause.raises, eval_eq pg (allEq_spec he f hf) (hr.keys f hf)]
  · exact others_safe pg q r c (List.mem_append_right _ hc)

theorem safe_within {q : Query N} (ht : q.tries = true) {ids : List Text} (hne : ids ≠ [])
    (rows : List Row) : Safe pg (q.within ids).clauses rows := by
  have hb : bindable (q.within ids).clauses = true := by
    rw [clauses_within ht hne, List.append_assoc]
    exact bindable_others q
  refine ⟨hb, fun r _ c hc => ?_⟩
  rw [clauses_within ht hne, List.append_assoc, List.mem_append, List.mem_singleton] at hc
  rcases hc with rfl | hc
  · rfl
  · exact others_safe pg q r c hc

/-- A row that no hidden job has written. -/
def unhidden (jobs : List Text) (r : Row) : Bool := r.bulkImportJobId.all fun j => !jobs.contains j

theorem shadow_all (q : Query N) (r : Row) :
    (q.shadow.all fun c => c.holds pg r) = unhidden q.shadowJobs r := by
  by_cases hj : q.shadowJobs = []
  · cases r.bulkImportJobId <;> simp [Query.shadow, hj, unhidden]
  · simp [Query.shadow, hj, unhidden, Clause.holds, Clause.eval]

theorem matching_tried {q : Query N} (hr : FromRoute q) (ht : q.tries = true)
    (he : allEq q.structuredFilters = true) (rows : List Row) :
    matching pg q.clauses rows = rows.filter fun r => q.others.all (fun c => c.holds pg r) &&
      q.structuredFilters.all (fun f => eqHolds pg f r) && unhidden q.shadowJobs r := by
  refine List.filter_congr fun r _ => ?_
  rw [clauses_tried hr ht, List.all_append, List.all_append, shadow_all, List.all_map]
  congr 2
  rw [Bool.eq_iff_iff, List.all_eq_true, List.all_eq_true]
  refine forall₂_congr fun f hf => ?_
  simp [Clause.holds, eval_eq pg (allEq_spec he f hf) (hr.keys f hf)]

theorem matching_within {q : Query N} (ht : q.tries = true) {ids : List Text} (hne : ids ≠ [])
    (rows : List Row) :
    matching pg (q.within ids).clauses rows = rows.filter fun r => ids.contains r.id &&
      q.others.all (fun c => c.holds pg r) && unhidden q.shadowJobs r := by
  refine List.filter_congr fun r _ => ?_
  rw [clauses_within ht hne, List.all_append, List.all_append, shadow_all]
  simp [Clause.holds, Clause.eval]

omit [LinearOrder κ] [LinearOrder N] in
theorem mem_eqIds {jobs : List Text} {fs : List PropertyFilter} {rows : List Row} {i : Text} :
    i ∈ eqIds pg jobs fs rows ↔
      ∃ r ∈ rows, unhidden jobs r = true ∧ (fs.all fun f => eqHolds pg f r) = true ∧ r.id = i := by
  simp only [eqIds, List.mem_dedup, List.mem_map, List.mem_filter, visibleRows, unhidden]
  constructor
  · rintro ⟨r, ⟨⟨hr, hv⟩, he⟩, hid⟩
    exact ⟨r, hr, hv, he, hid⟩
  · rintro ⟨r, hr, hv, he, hid⟩
    exact ⟨r, ⟨⟨hr, hv⟩, he⟩, hid⟩

omit [LinearOrder κ] [LinearOrder N] in
/-- Parts of one feature pass the equalities together. -/
theorem eqHolds_of_id {rows : List Row} (hu : Uniform rows) {jobs : List Text}
    {fs : List PropertyFilter} {r : Row} (hr : r ∈ rows) (hid : r.id ∈ eqIds pg jobs fs rows) :
    (fs.all fun f => eqHolds pg f r) = true := by
  obtain ⟨r', hr', -, he, heq⟩ := (mem_eqIds pg).mp hid
  have hp : r.properties = r'.properties := hu r hr r' hr' heq.symm
  simp only [List.all_eq_true, eqHolds] at he ⊢
  rw [hp]
  exact he

/-- The rows found inside some of the ids match the filters. -/
theorem matching_within_subset {rows : List Row} (hu : Uniform rows) {q : Query N}
    (hr : FromRoute q) (ht : q.tries = true) (he : allEq q.structuredFilters = true)
    {ids : List Text} (hne : ids ≠ [])
    (hids : ∀ i ∈ ids, i ∈ eqIds pg q.shadowJobs q.structuredFilters rows) :
    ∀ r ∈ matching pg (q.within ids).clauses rows, r ∈ matching pg q.clauses rows := by
  intro r hmem
  rw [matching_within pg ht hne, List.mem_filter] at hmem
  rw [matching_tried pg hr ht he, List.mem_filter]
  obtain ⟨hrow, hall⟩ := hmem
  simp only [Bool.and_eq_true] at hall ⊢
  have hin : r.id ∈ ids := by simpa using hall.1.1
  exact ⟨hrow, ⟨hall.1.2, eqHolds_of_id pg hu hrow (hids _ hin)⟩, hall.2⟩

/-- Inside all of the ids the two queries match the same rows. -/
theorem matching_within_eq {rows : List Row} (hu : Uniform rows) {q : Query N}
    (hr : FromRoute q) (ht : q.tries = true) (he : allEq q.structuredFilters = true)
    {ids : List Text} (hne : ids ≠ [])
    (hids : ∀ i, i ∈ ids ↔ i ∈ eqIds pg q.shadowJobs q.structuredFilters rows) :
    matching pg (q.within ids).clauses rows = matching pg q.clauses rows := by
  rw [matching_within pg ht hne, matching_tried pg hr ht he]
  refine List.filter_congr fun r hrow => ?_
  rw [Bool.eq_iff_iff]
  simp only [Bool.and_eq_true, List.contains_iff_mem]
  constructor
  · rintro ⟨⟨hin, ho⟩, hv⟩
    exact ⟨⟨ho, eqHolds_of_id pg hu hrow ((hids _).mp hin)⟩, hv⟩
  · rintro ⟨⟨ho, heq⟩, hv⟩
    exact ⟨⟨(hids _).mpr ((mem_eqIds pg).mpr ⟨r, hrow, hv, heq, rfl⟩), ho⟩, hv⟩

omit [LinearOrder N] in
theorem hasFilters_tried {q : Query N} (ht : q.tries = true) : q.hasFilters = true := by
  simp only [Query.tries, Bool.and_eq_true, Bool.not_eq_true'] at ht
  simp [Query.hasFilters, ht.1.1]

omit [LinearOrder N] in
theorem hasFilters_within (q : Query N) {ids : List Text} (hne : ids ≠ []) :
    (q.within ids).hasFilters = true := by
  simp [Query.hasFilters, Query.within, hne]

omit [LinearOrder κ] [LinearOrder N] in
theorem order_refused {q : Query N} {e : PgError} (h : q.order pg = .error e) :
    e = .undefinedColumn := by
  unfold Query.order at h
  split at h
  · cases h
  · split at h
    · cases h
    · split at h
      · cases h
      · split at h
        · cases h
        · exact (Except.error.inj h).symm

omit [LinearOrder κ] [LinearOrder N] in
theorem order_within {q : Query N} (ht : q.tries = true) {ids : List Text} (hne : ids ≠ []) :
    (q.within ids).order pg = q.order pg := by
  simp only [Query.order, hasFilters_tried ht, hasFilters_within q hne]
  rfl

/-! ## The ids that the resolving statement returns -/

/-- Distinct ids without an order, up to the limit of the route. -/
def picked (pick : Choice N) (rows : List Row) (q : Query N) : List Text :=
  (Paging.arrange Paging.unordered pick.rank
    (eqIds pg q.shadowJobs q.structuredFilters rows)).take (max q.limit 50)

section Picked

variable (pick : Choice N) (rows : List Row) (q : Query N)

omit [LinearOrder κ] [LinearOrder N]

theorem picked_subset :
    ∀ i ∈ picked pg pick rows q, i ∈ eqIds pg q.shadowJobs q.structuredFilters rows :=
  fun _ hi => (Paging.arrange_perm pick.rank _).mem_iff.mp (List.mem_of_mem_take hi)

theorem mem_picked_of_le
    (h : (eqIds pg q.shadowJobs q.structuredFilters rows).length ≤ max q.limit 50) (i : Text) :
    i ∈ picked pg pick rows q ↔ i ∈ eqIds pg q.shadowJobs q.structuredFilters rows := by
  have hperm : (Paging.arrange Paging.unordered pick.rank _).Perm
    (eqIds pg q.shadowJobs q.structuredFilters rows) := Paging.arrange_perm pick.rank _
  rw [picked, List.take_of_length_le (by rw [hperm.length_eq]; exact h), hperm.mem_iff]

theorem picked_eq_nil_iff :
    picked pg pick rows q = [] ↔ eqIds pg q.shadowJobs q.structuredFilters rows = [] := by
  have hperm : (Paging.arrange Paging.unordered pick.rank _).Perm
    (eqIds pg q.shadowJobs q.structuredFilters rows) := Paging.arrange_perm pick.rank _
  have hpos : max q.limit 50 ≠ 0 := by omega
  rw [picked, List.take_eq_nil_iff, or_iff_right hpos, ← List.length_eq_zero_iff, hperm.length_eq,
    List.length_eq_zero_iff]

/-- Past the limit, any id can be left out. -/
theorem exists_notMem_picked
    (h : max q.limit 50 < (eqIds pg q.shadowJobs q.structuredFilters rows).length) (x : Text) :
    ∃ pick : Choice N, x ∉ picked pg pick rows q := by
  obtain ⟨rank, hrank⟩ := Paging.exists_rank_notMem_take (List.nodup_dedup _) h x
  exact ⟨.written rank, hrank⟩

end Picked

theorem loadPage_fast {q : Query N} (hr : FromRoute q) (ht : q.tries = true)
    (he : allEq q.structuredFilters = true) (hb : bindable q.clauses = true)
    (pick : Choice N) (ch : Choices N) (rows : List Row) :
    loadPage pg pick ch rows q = if picked pg pick rows q = [] then .ok ([], 0)
      else listFeaturesPaginated pg ch rows (q.within (picked pg pick rows q)) := by
  have hlim : max 1 (max q.limit 50) = max q.limit 50 := by omega
  rw [bindable_tried hr ht] at hb
  have hresolve : resolveStructuredEqFeatureIds pg pick rows q.structuredFilters (max q.limit 50)
      q.shadowJobs = .ok (some (picked pg pick rows q)) := by
    rw [resolveStructuredEqFeatureIds, if_pos he, if_pos hb, hlim]
    rfl
  simp only [loadPage, ht, if_true, hresolve]
  cases picked pg pick rows q <;> simp

theorem loadPage_unbindable {q : Query N} (hr : FromRoute q) (ht : q.tries = true)
    (he : allEq q.structuredFilters = true) (hb : bindable q.clauses = false)
    (pick : Choice N) (ch : Choices N) (rows : List Row) :
    loadPage pg pick ch rows q = .error .characterNotInRepertoire := by
  rw [bindable_tried hr ht] at hb
  simp [loadPage, ht, resolveStructuredEqFeatureIds, he, hb]

theorem loadPage_general {q : Query N} (h : ¬ (q.tries = true ∧ allEq q.structuredFilters = true))
    (pick : Choice N) (ch : Choices N) (rows : List Row) :
    loadPage pg pick ch rows q = listFeaturesPaginated pg ch rows q := by
  by_cases ht : q.tries = true
  · have he : ¬ allEq q.structuredFilters = true := fun he => h ⟨ht, he⟩
    simp [loadPage, ht, resolveStructuredEqFeatureIds, he]
  · simp [loadPage, ht]

/-! ## Agreement -/

section Agreement

variable {rows : List Row} {q : Query N} (hu : Uniform rows) (hr : FromRoute q)
  (ht : q.tries = true) (he : allEq q.structuredFilters = true)
include hr ht he

/-- A value with NUL is refused by the resolving statement. So it is by the listing, unless that has
no count to make and PostgreSQL refuses the sort key first. -/
theorem agrees_unbindable_iff (hb : bindable q.clauses = false) :
    FastPathAgrees pg rows q ↔ (q.skipCount = true → ∃ s, q.order pg = .ok s) := by
  have hfast : ∀ pick ch, answer q (loadPage pg pick ch rows q) = .error .characterNotInRepertoire :=
    fun pick ch => by rw [loadPage_unbindable pg hr ht he hb]; rfl
  have hgen : ∀ ch, answer q (listFeaturesPaginated pg ch rows q) =
      if q.skipCount then (q.order pg).bind fun _ => .error .characterNotInRepertoire
      else .error .characterNotInRepertoire := by
    intro ch
    have hf := hasFilters_tried ht
    cases hk : q.skipCount with
    | false =>
      simp [listFeaturesPaginated, totalBefore, hk, hf, countDistinct, scan_unbindable pg _ hb, answer,
        Except.map]
    | true =>
      cases hs : q.order pg <;>
        simp [listFeaturesPaginated, totalBefore, hk, hf, pageIds_eq, hs, scan_unbindable pg _ hb,
          answer, Except.map, Except.bind]
  constructor
  · intro h hk
    cases hs : q.order pg with
    | ok s => exact ⟨s, rfl⟩
    | error e =>
      obtain ⟨ch, hch⟩ := (h (.hasty pg) _).mp ⟨⟨.hasty pg, .hasty pg⟩, rfl⟩
      rw [hfast, hgen, if_pos hk, hs, order_refused pg hs] at hch
      cases hch
  · intro h pick a
    refine exists_congr fun ch => ?_
    rw [hfast, hgen]
    cases hk : q.skipCount with
    | false => simp
    | true =>
      obtain ⟨s, hs⟩ := h hk
      simp [hs, Except.bind]

variable (hb : bindable q.clauses = true)
include hb

omit hb in
theorem matchingIds_subset_eqIds :
    ∀ i ∈ matchingIds pg rows q, i ∈ eqIds pg q.shadowJobs q.structuredFilters rows := by
  intro i hi
  rw [matchingIds, List.mem_dedup, matching_tried pg hr ht he] at hi
  obtain ⟨r, hmem, rfl⟩ := List.mem_map.mp hi
  obtain ⟨hrow, hall⟩ := List.mem_filter.mp hmem
  simp only [Bool.and_eq_true] at hall
  exact (mem_eqIds pg).mpr ⟨r, hrow, hall.2, hall.1.2, rfl⟩

/-- A sort key that PostgreSQL refuses is refused by both queries, unless the fast path has no id
to list. -/
theorem agrees_unordered_iff {e : PgError} (hs : q.order pg = .error e) :
    FastPathAgrees pg rows q ↔ eqIds pg q.shadowJobs q.structuredFilters rows ≠ [] := by
  have herr : ∀ (q' : Query N) (ch : Choices N), q'.order pg = .error e →
      Safe pg q'.clauses rows → listFeaturesPaginated pg ch rows q' = .error e := by
    intro q' ch hs' hsafe
    obtain ⟨total, htotal⟩ := totalBefore_ok pg ch.count hsafe
    simp [listFeaturesPaginated, htotal, pageIds_eq, hs']
  have hgen : ∀ ch, listFeaturesPaginated pg ch rows q = .error e :=
    fun ch => herr q ch hs (safe_tried pg hr ht he hb rows)
  constructor
  · intro h hnil
    have hpick := (picked_eq_nil_iff pg (.hasty pg) rows q).mpr hnil
    obtain ⟨ch, hch⟩ := (h (.hasty pg) _).mp ⟨⟨.hasty pg, .hasty pg⟩, rfl⟩
    rw [loadPage_fast pg hr ht he hb, if_pos hpick, hgen] at hch
    simp [answer, Except.map] at hch
  · intro hne pick a
    have hpick : picked pg pick rows q ≠ [] := fun h => hne ((picked_eq_nil_iff pg pick rows q).mp h)
    refine exists_congr fun ch => ?_
    rw [loadPage_fast pg hr ht he hb, if_neg hpick, hgen,
      herr _ ch ((order_within pg ht hpick).trans hs) (safe_within pg ht hpick rows)]

include hu

omit hb in
theorem length_matchingIds_within_le {ids : List Text} (hne : ids ≠ [])
    (hids : ∀ i ∈ ids, i ∈ eqIds pg q.shadowJobs q.structuredFilters rows) :
    (matchingIds pg rows (q.within ids)).length ≤ (matchingIds pg rows q).length := by
  refine (List.subperm_of_subset (List.nodup_dedup _) ?_).length_le
  intro i hi
  obtain ⟨r, hmem, rfl⟩ := List.mem_map.mp (List.mem_dedup.mp hi)
  refine List.mem_dedup.mpr ?_
  exact List.mem_map_of_mem (matching_within_subset pg hu hr ht he hne hids r hmem)

/-- Past the last match both are empty. -/
theorem agrees_past_end {s : SortBy} (hs : q.order pg = .ok s)
    (hend : (matchingIds pg rows q).length ≤ q.offset) : FastPathAgrees pg rows q := by
  have hgen : ∀ ch, answer q (listFeaturesPaginated pg ch rows q) = .ok ([], false) := by
    intro ch
    have hwin : windowIds pg ch.page rows q s = [] := by
      rw [← List.length_eq_zero_iff, length_windowIds]
      omega
    rw [answer_filtered pg ch (hasFilters_tried ht) (safe_tried pg hr ht he hb rows) hs, hwin]
    cases hk : q.skipCount <;> simp [pageFeatures, filteredTotal, hk]
    omega
  intro pick a
  refine exists_congr fun ch => ?_
  rw [hgen, loadPage_fast pg hr ht he hb]
  split
  · simp [answer, Except.map]
  · rename_i hpick
    have hle := length_matchingIds_within_le pg hu hr ht he hpick (picked_subset pg pick rows q)
    have hwin : windowIds pg ch.page rows (q.within (picked pg pick rows q)) s = [] := by
      rw [← List.length_eq_zero_iff, length_windowIds]
      have ho : (q.within (picked pg pick rows q)).offset = q.offset := rfl
      omega
    rw [answer_filtered pg ch (hasFilters_within q hpick) (safe_within pg ht hpick rows)
      ((order_within pg ht hpick).trans hs), hwin]
    simp [pageFeatures, filteredTotal, Query.within]

omit hu in
/-- Past the limit of the resolving statement a match of the page can be missing. -/
theorem not_agrees_past_limit {s : SortBy} (hs : q.order pg = .ok s)
    (hend : q.offset < (matchingIds pg rows q).length)
    (hlim : max q.limit 50 < (eqIds pg q.shadowJobs q.structuredFilters rows).length) :
    ¬ FastPathAgrees pg rows q := by
  intro h
  let ch : Choices N := ⟨.hasty pg, .hasty pg⟩
  have hne : windowIds pg ch.page rows q s ≠ [] := by
    rw [← List.length_pos_iff, length_windowIds]
    have := hr.limit
    omega
  obtain ⟨x, hx⟩ := List.exists_mem_of_ne_nil _ hne
  obtain ⟨pick, hpick⟩ := exists_notMem_picked pg rows q hlim x
  obtain ⟨ch', hch'⟩ := (h pick _).mpr ⟨ch, rfl⟩
  have hnil : picked pg pick rows q ≠ [] := by
    intro hnil
    rw [(picked_eq_nil_iff pg pick rows q).mp hnil] at hlim
    simp at hlim
  rw [loadPage_fast pg hr ht he hb, if_neg hnil,
    answer_filtered pg ch' (hasFilters_within q hnil) (safe_within pg ht hnil rows)
      ((order_within pg ht hnil).trans hs),
    answer_filtered pg ch (hasFilters_tried ht) (safe_tried pg hr ht he hb rows) hs,
    Except.ok.injEq, Prod.mk.injEq] at hch'
  have hids := congrArg (List.map Feature.id) hch'.1
  rw [map_id_pageFeatures _ _ _ (windowIds_visible pg _ rows _ s),
    map_id_pageFeatures _ _ _ (windowIds_visible pg _ rows _ s)] at hids
  rw [← hids] at hx
  have hmem := windowIds_subset pg ch'.page rows _ s x hx
  rw [matchingIds, List.mem_dedup, matching_within pg ht hnil] at hmem
  obtain ⟨r, hrow, rfl⟩ := List.mem_map.mp hmem
  have hall := (List.mem_filter.mp hrow).2
  simp only [Bool.and_eq_true, List.contains_iff_mem] at hall
  exact hpick hall.1.1

omit hu ht he hb in
/-- A page that starts before the last match is not empty. -/
theorem windowIds_ne_nil (choice : Choice N) {s : SortBy}
    (hend : q.offset < (matchingIds pg rows q).length) :
    windowIds pg choice rows q s ≠ [] := by
  have hlimit := hr.limit
  rw [← List.length_pos_iff, length_windowIds pg choice rows q s]
  omega

omit hu in
/-- What the route returns with the filters themselves, when the page holds a match. -/
theorem answer_general {s : SortBy} (hs : q.order pg = .ok s)
    (hend : q.offset < (matchingIds pg rows q).length) (ch : Choices N) :
    answer q (listFeaturesPaginated pg ch rows q) =
      .ok (pageFeatures rows q (windowIds pg ch.page rows q s),
        if q.skipCount then decide (q.offset + q.limit ≤ (matchingIds pg rows q).length)
        else decide (q.offset + q.limit < (matchingIds pg rows q).length)) := by
  have hlimit := hr.limit
  have hlen := length_windowIds pg ch.page rows q s
  have hne := windowIds_ne_nil pg hr ch.page (s := s) hend
  rw [answer_filtered pg ch (hasFilters_tried ht) (safe_tried pg hr ht he hb rows) hs]
  refine congrArg Except.ok (Prod.ext rfl ?_)
  cases hk : q.skipCount with
  | true =>
    rw [if_pos rfl, decide_eq_decide, lt_filteredTotal_skipped pg hk hne, hlen]
    omega
  | false =>
    rw [if_neg (by simp), decide_eq_decide, hlen]
    simp only [filteredTotal, hk]
    simp
    omega

/-- What it returns with the ids that the resolving statement found, when none is left out. -/
theorem answer_fast {s : SortBy} (hs : q.order pg = .ok s)
    (hend : q.offset < (matchingIds pg rows q).length)
    (hlim : (eqIds pg q.shadowJobs q.structuredFilters rows).length ≤ max q.limit 50)
    (pick : Choice N) (ch : Choices N) :
    answer q (loadPage pg pick ch rows q) =
      .ok (pageFeatures rows q (windowIds pg ch.page rows q s),
        decide (q.offset + q.limit ≤ (matchingIds pg rows q).length)) := by
  have hlimit := hr.limit
  have hpick : picked pg pick rows q ≠ [] := by
    intro hnil
    have hE := (picked_eq_nil_iff pg pick rows q).mp hnil
    obtain ⟨x, hx⟩ := List.exists_mem_of_ne_nil (matchingIds pg rows q)
      (List.ne_nil_of_length_pos (by omega))
    have := matchingIds_subset_eqIds pg hr ht he x hx
    simp [hE] at this
  have hwin : windowIds pg ch.page rows (q.within (picked pg pick rows q)) s =
      windowIds pg ch.page rows q s := by
    have hm := matching_within_eq pg hu hr ht he hpick (mem_picked_of_le pg pick rows q hlim)
    simp only [windowIds, matchingGroups, hm]
    rfl
  have hlen := length_windowIds pg ch.page rows q s
  have hne := windowIds_ne_nil pg hr ch.page (s := s) hend
  rw [loadPage_fast pg hr ht he hb, if_neg hpick,
    answer_filtered pg ch (hasFilters_within q hpick) (safe_within pg ht hpick rows)
      ((order_within pg ht hpick).trans hs), hwin]
  refine congrArg Except.ok (Prod.ext rfl ?_)
  rw [decide_eq_decide]
  refine (lt_filteredTotal_skipped pg (q := q.within (picked pg pick rows q)) rfl hne).trans ?_
  rw [hlen]
  change q.limit ≤ _ ↔ _
  omega

/-- Inside the limit the pages are the same; the link to a next page differs where a page that is
counted ends with the last match. -/
theorem agrees_within_limit_iff {s : SortBy} (hs : q.order pg = .ok s)
    (hend : q.offset < (matchingIds pg rows q).length)
    (hlim : (eqIds pg q.shadowJobs q.structuredFilters rows).length ≤ max q.limit 50) :
    FastPathAgrees pg rows q ↔
      q.skipCount = true ∨ (matchingIds pg rows q).length ≠ q.offset + q.limit := by
  have hfast := answer_fast pg hu hr ht he hb hs hend hlim
  have hgen := answer_general pg hr ht he hb hs hend
  constructor
  · intro h
    by_contra hboth
    rw [not_or, not_not] at hboth
    obtain ⟨ch, hch⟩ := (h (.hasty pg) _).mp ⟨⟨.hasty pg, .hasty pg⟩, rfl⟩
    rw [hfast, hgen, Except.ok.injEq, Prod.mk.injEq, if_neg hboth.1, decide_eq_decide] at hch
    omega
  · intro h pick a
    refine exists_congr fun ch => ?_
    rw [hfast, hgen]
    rcases h with hk | hne
    · rw [if_pos hk]
    · have hsame : decide (q.offset + q.limit ≤ (matchingIds pg rows q).length) =
          decide (q.offset + q.limit < (matchingIds pg rows q).length) := by
        rw [decide_eq_decide]
        omega
      rw [hsame, ite_self]

end Agreement

/-- The fast path agrees with the filters exactly when it is not taken, or: the page lies past the
last match, or no match is left out by the limit of the resolving statement and a counted page does
not end with the last match; and, where the sort key is refused, some id passes the filters. With
NUL in a value both fail, alike unless the sort key of a listing without a count is refused first. -/
theorem eq_fast_path_iff (rows : List Row) (q : Query N) (hr : FromRoute q) (hu : Uniform rows) :
    FastPathAgrees pg rows q ↔
      (q.tries = true ∧ allEq q.structuredFilters = true →
        if bindable q.clauses then
          match q.order pg with
          | .error _ => eqIds pg q.shadowJobs q.structuredFilters rows ≠ []
          | .ok _ => (matchingIds pg rows q).length ≤ q.offset ∨
              (eqIds pg q.shadowJobs q.structuredFilters rows).length ≤ max q.limit 50 ∧
                (q.skipCount = true ∨ (matchingIds pg rows q).length ≠ q.offset + q.limit)
        else q.skipCount = true → ∃ s, q.order pg = .ok s) := by
  by_cases hfast : q.tries = true ∧ allEq q.structuredFilters = true
  swap
  · refine iff_of_true (fun pick a => exists_congr fun ch => ?_) fun h => absurd h hfast
    rw [loadPage_general pg hfast]
  obtain ⟨ht, he⟩ := hfast
  simp only [ht, he, and_self, forall_const]
  cases hb : bindable q.clauses with
  | false =>
    rw [agrees_unbindable_iff pg hr ht he hb]
    simp
  | true =>
    rw [if_pos rfl]
    cases hs : q.order pg with
    | error e => exact agrees_unordered_iff pg hr ht he hb hs
    | ok s =>
      by_cases hend : (matchingIds pg rows q).length ≤ q.offset
      · exact iff_of_true (agrees_past_end pg hu hr ht he hb hs hend) (.inl hend)
      by_cases hlim : (eqIds pg q.shadowJobs q.structuredFilters rows).length ≤ max q.limit 50
      · rw [agrees_within_limit_iff pg hu hr ht he hb hs (by omega) hlim]
        simp [hend, hlim]
      · refine iff_of_false (not_agrees_past_limit pg hr ht he hb hs (by omega) (by omega)) ?_
        simp [hend, hlim]

/-! ## Fifty-one features of one height -/

/-- The feature number `i`, with the height `tall`. -/
def tallFeature (i : Nat) : Row :=
  { sampleRow 'a' 5 with id := List.replicate i 'a', properties := tallText }

def tallFilter : PropertyFilter := ⟨"height".toList, .eq, "tall".toList⟩

/-- `filter=height:eq:tall`. -/
def tallQuery (limit offset : Nat) : Query Nat where
  limit := limit
  offset := offset
  bbox := none
  datetimeStart := none
  datetimeEnd := none
  sortby := none
  sortdesc := false
  propertyFilters := []
  structuredFilters := [tallFilter]
  fulltextQ := none
  featureIds := []
  collectionFeatureCount := none
  includeGeometry := true
  skipCount := false
  excludeBulkJobIds := []

theorem tallQuery_allEq (limit offset : Nat) :
    allEq (tallQuery limit offset).structuredFilters = true := by
  change allEq [tallFilter] = true
  decide

theorem tallQuery_fromRoute {limit : Nat} (h : 0 < limit) (offset : Nat) :
    FromRoute (tallQuery limit offset) where
  limit := h
  ids := rfl
  keys := by
    change ∀ f ∈ [tallFilter], strip f.key = f.key
    decide

theorem tallFeatures_uniform (n : Nat) : Uniform ((List.range n).map tallFeature) := by
  intro r hr r' hr' _
  obtain ⟨i, -, rfl⟩ := List.mem_map.mp hr
  obtain ⟨j, -, rfl⟩ := List.mem_map.mp hr'
  rfl

theorem nodup_tallIds (n : Nat) : (((List.range n).map tallFeature).map Row.id).Nodup := by
  rw [List.map_map]
  refine List.Nodup.map ?_ List.nodup_range
  intro i j h
  simpa [tallFeature] using congrArg List.length h

theorem eqHolds_tall (i : Nat) :
    eqHolds samplePg tallFilter (tallFeature i) = true := by
  have h : eqHolds samplePg tallFilter (tallFeature 0) = true := by decide
  exact h

theorem length_tallEqIds (n limit offset : Nat) :
    (eqIds samplePg (tallQuery limit offset).shadowJobs (tallQuery limit offset).structuredFilters
      ((List.range n).map tallFeature)).length = n := by
  have hall : ((visibleRows (tallQuery limit offset).shadowJobs
      ((List.range n).map tallFeature)).filter fun r =>
        (tallQuery limit offset).structuredFilters.all fun f => eqHolds samplePg f r) =
      (List.range n).map tallFeature := by
    rw [List.filter_eq_self.mpr, visibleRows, List.filter_eq_self.mpr]
    · intro r hr
      obtain ⟨i, -, rfl⟩ := List.mem_map.mp hr
      rfl
    · intro r hr
      obtain ⟨i, -, rfl⟩ := List.mem_map.mp (List.mem_filter.mp hr).1
      simp only [tallQuery, List.all_cons, List.all_nil, Bool.and_true]
      exact eqHolds_tall i
  rw [eqIds, hall, (nodup_tallIds n).dedup, List.length_map, List.length_map, List.length_range]

theorem length_tallMatchingIds (n : Nat) {limit : Nat} (h : 0 < limit) (offset : Nat) :
    (matchingIds samplePg ((List.range n).map tallFeature) (tallQuery limit offset)).length = n := by
  have hall : matching samplePg (tallQuery limit offset).clauses ((List.range n).map tallFeature) =
      (List.range n).map tallFeature := by
    rw [matching_tried samplePg (tallQuery_fromRoute h offset) rfl (tallQuery_allEq _ _),
      List.filter_eq_self]
    intro r hr
    obtain ⟨i, -, rfl⟩ := List.mem_map.mp hr
    simp only [tallQuery, List.all_cons, List.all_nil, Bool.and_true, eqHolds_tall]
    rfl
  rw [matchingIds, hall, (nodup_tallIds n).dedup, List.length_map, List.length_map,
    List.length_range]

/-- The second page of fifty holds the fifty-first feature; the fast path resolves only fifty. -/
theorem fifty_first_feature_lost :
    ¬ FastPathAgrees samplePg ((List.range 51).map tallFeature) (tallQuery 50 50) :=
  not_agrees_past_limit samplePg (tallQuery_fromRoute (by decide) 50) rfl (tallQuery_allEq _ _) rfl
    (s := .id) rfl (by rw [length_tallMatchingIds 51 (by decide)]; decide)
    (by rw [length_tallEqIds]; decide)

theorem three_features_agree :
    FastPathAgrees samplePg ((List.range 3).map tallFeature) (tallQuery 2 0) := by
  refine (eq_fast_path_iff samplePg _ _ (tallQuery_fromRoute (by decide) 0)
    (tallFeatures_uniform 3)).mpr fun _ => ?_
  rw [if_pos (show bindable (tallQuery 2 0).clauses = true from rfl)]
  refine .inr ⟨?_, .inr ?_⟩
  · rw [length_tallEqIds]
    decide
  · rw [length_tallMatchingIds 3 (by decide)]
    decide

end Items
end Geofastmap
