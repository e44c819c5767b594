import Geofastmap.Items.Export
import Geofastmap.Upload.Complete

/-!
# Geofastmap.Items.Filters

The two kinds of property filters. `wildcard_filter_exact` : a legacy filter is the glob that it
looks like, since its pattern escapes what `LIKE` takes for special. `filters_never_fail_iff` : when
PostgreSQL takes the texts of the structured filters, and no row makes one raise.
-/

namespace Geofastmap
namespace Items

open Db Import

variable {κ N : Type} [LinearOrder κ] [LinearOrder N] (pg : Pg κ N)

/-! ## Wildcards -/

/-- The pattern of `property_value_to_like_pattern` for a value with a star. -/
def likePattern (value : Text) : Text :=
  (escapeLike value).map fun ch => if ch = '*' then '%' else ch

theorem propertyValueToLikePattern_star {value : Text} (h : '*' ∈ value) :
    propertyValueToLikePattern value = (likePattern value, true) :=
  if_pos (by simpa using h)

theorem propertyValueToLikePattern_plain {value : Text} (h : '*' ∉ value) :
    propertyValueToLikePattern value = (value, false) :=
  if_neg (by simpa using h)

theorem likePattern_star (value : Text) : likePattern ('*' :: value) = '%' :: likePattern value :=
  rfl

theorem likePattern_special {ch : Char} (h : ch = '\\' ∨ ch = '%' ∨ ch = '_') (value : Text) :
    likePattern (ch :: value) = '\\' :: ch :: likePattern value := by
  rcases h with rfl | rfl | rfl <;> rfl

theorem likePattern_char {ch : Char} (h : ¬ (ch = '\\' ∨ ch = '%' ∨ ch = '_')) (hstar : ch ≠ '*')
    (value : Text) : likePattern (ch :: value) = ch :: likePattern value := by
  simp [likePattern, escapeLike, h, hstar]

/-- No backslash of a pattern is left without the character it escapes. -/
theorem finished_likePattern (value : Text) : Sql.finished (likePattern value) = true := by
  induction value with
  | nil => rfl
  | cons ch value ih =>
    by_cases hspecial : ch = '\\' ∨ ch = '%' ∨ ch = '_'
    · rw [likePattern_special hspecial, Sql.finished]
      exact ih
    · by_cases hstar : ch = '*'
      · rw [hstar, likePattern_star, Sql.finished] <;> simp [ih]
      · rw [likePattern_char hspecial hstar, Sql.finished] <;> simp_all

theorem likePattern_matches (value s : Text) :
    Sql.LikeMatches (likePattern value) s ↔ Sql.GlobMatches value s := by
  induction value generalizing s with
  | nil => rw [Sql.globMatches_nil, ← Sql.likeMatches_nil]; rfl
  | cons ch value ih =>
    by_cases hstar : ch = '*'
    · rw [hstar, likePattern_star, Sql.likeMatches_percent, Sql.globMatches_star]
      simp only [ih]
    · rw [Sql.globMatches_char hstar]
      by_cases hspecial : ch = '\\' ∨ ch = '%' ∨ ch = '_'
      · rw [likePattern_special hspecial, Sql.likeMatches_escaped]
        simp only [ih]
      · rw [likePattern_char hspecial hstar]
        obtain ⟨hslash, hrest⟩ := not_or.mp hspecial
        obtain ⟨hpercent, hunderscore⟩ := not_or.mp hrest
        rw [Sql.likeMatches_char hpercent hunderscore hslash]
        simp only [ih]

omit [LinearOrder κ] [LinearOrder N] in
/-- For each filter value and each text of the property. -/
theorem wildcard_filter_exact
    (hlike : ∀ s p, Sql.finished p = true → pg.like s p = .ok (Sql.likeEscape p s))
    (key value : Text) {r : Row} {s : Text} (hs : pg.astext r.properties key = some s) :
    (propertyFilterClause pg key value r = .ok true ↔ Sql.GlobMatches value s) ∧
      (propertyFilterClause pg key value r = .ok false ↔ ¬ Sql.GlobMatches value s) := by
  have hclause : ∃ b, propertyFilterClause pg key value r = .ok b ∧
      (b = true ↔ Sql.GlobMatches value s) := by
    unfold propertyFilterClause
    rw [hs]
    by_cases hstar : '*' ∈ value
    · rw [propertyValueToLikePattern_star hstar]
      refine ⟨Sql.likeEscape (likePattern value) s, hlike s _ (finished_likePattern value), ?_⟩
      rw [Sql.likeEscape_iff, likePattern_matches]
    · rw [propertyValueToLikePattern_plain hstar]
      refine ⟨s == value, rfl, ?_⟩
      rw [beq_iff_eq, Sql.globMatches_plain hstar]
  obtain ⟨b, hclause, hb⟩ := hclause
  rw [hclause, ← hb]
  cases b <;> simp

theorem like_samplePg (s p : Text) (h : Sql.finished p = true) :
    samplePg.like s p = .ok (Sql.likeEscape p s) := by
  change likeRaising s p = _
  rw [likeRaising, Sql.reachesEscape_finished h, if_neg (by decide)]

/-- The height of a row is "tall". -/
theorem wildcard_filter_exact_tall :
    propertyFilterClause samplePg "height".toList "t*l".toList tallRow = .ok true ↔
      Sql.GlobMatches "t*l".toList "tall".toList :=
  (wildcard_filter_exact samplePg like_samplePg "height".toList "t*l".toList
    (r := tallRow) (s := "tall".toList) (by decide)).1

/-! ## Comparisons -/

def PropertyOp.ofParsed : Upload.PropertyOp → PropertyOp
  | .eq => .eq
  | .ne => .ne
  | .gt => .gt
  | .gte => .gte
  | .lt => .lt
  | .lte => .lte
  | .like => .like
  | .ilike => .ilike

/-- A filter of `parse_filter_param` as the queries have it. -/
def PropertyFilter.ofParsed (f : Upload.PropertyFilter) : PropertyFilter :=
  ⟨f.key, .ofParsed f.op, f.value⟩

/-- Neither text of the filter has NUL. -/
def Bindable (f : PropertyFilter) : Prop := '\x00' ∉ f.key ∧ '\x00' ∉ f.value

/-- The row has no text for the filter, or one that the filter can be evaluated on: for a comparison
with a number this has to be a number, and the match of a pattern must not come to a backslash that
escapes nothing. -/
def Evaluates (f : PropertyFilter) (r : Row) : Prop :=
  ∀ s ∈ pg.astext r.properties f.key,
    match f.op with
    | .eq | .ne => True
    | .like => Sql.reachesEscape false f.value s = false
    | .ilike => Sql.reachesEscape false (pg.lower f.value) (pg.lower s) = false
    | .gt | .gte | .lt | .lte => (pg.float f.value).isSome → (pg.cast s).isSome

omit [LinearOrder κ] [LinearOrder N] in
theorem compareClause_ok_iff (s value : Text) (number : N → N → Bool) (text : κ → κ → Bool) :
    (∃ b, compareClause pg s value number text = .ok b) ↔
      ((pg.float value).isSome → (pg.cast s).isSome) := by
  unfold compareClause
  cases pg.float value with
  | none => simp
  | some n =>
    cases pg.cast s with
    | none => simp
    | some x => simp

theorem structuredFilterClause_ok_iff (f : PropertyFilter) (r : Row) :
    (∃ b, structuredFilterClause pg f r = .ok b) ↔ Evaluates pg f r := by
  unfold structuredFilterClause Evaluates
  cases pg.astext r.properties f.key with
  | none => simp
  | some s =>
    simp only [Option.mem_def, Option.some.injEq, forall_eq']
    cases f.op with
    | eq => simp
    | ne => simp
    | like => exact pg.like_ok_iff s f.value
    | ilike => exact pg.ilike_ok_iff s f.value
    | gt => exact compareClause_ok_iff pg s f.value _ _
    | gte => exact compareClause_ok_iff pg s f.value _ _
    | lt => exact compareClause_ok_iff pg s f.value _ _
    | lte => exact compareClause_ok_iff pg s f.value _ _

theorem raises_eq_false_iff (f : PropertyFilter) (r : Row) :
    (Clause.structured f).raises pg r = false ↔ Evaluates pg f r := by
  rw [← structuredFilterClause_ok_iff]
  have heval : (Clause.structured f : Clause N).eval pg r = structuredFilterClause pg f r := rfl
  rw [Clause.raises, heval]
  cases structuredFilterClause pg f r with
  | ok b => simp
  | error e => simp

/-- No filter raises on a row, and no statement with the filters does: neither a listing nor a
count, an export or a filtered delete, whatever conjuncts they add. -/
def NeverFails (filters : List PropertyFilter) (rows : List Row) : Prop :=
  (∀ r ∈ rows, ∀ f ∈ filters, ∃ b, structuredFilterClause pg f r = .ok b) ∧
    ∀ others, Safe pg others rows → ∀ ch : Choice N,
      ∃ out, scan pg ch (others ++ filters.map .structured) rows = .ok out

omit [LinearOrder κ] [LinearOrder N] in
theorem bindable_structured_iff (filters : List PropertyFilter) :
    bindable (filters.map (Clause.structured (N := N))) = true ↔ ∀ f ∈ filters, Bindable f := by
  rw [bindable, List.all_map, List.all_eq_true]
  refine forall₂_congr fun f _ => ?_
  simp [Clause.texts, bindableText, Bindable]

theorem neverFails_iff (filters : List PropertyFilter) (rows : List Row) :
    NeverFails pg filters rows ↔
      (∀ f ∈ filters, Bindable f) ∧ ∀ r ∈ rows, ∀ f ∈ filters, Evaluates pg f r := by
  constructor
  · rintro ⟨hclause, hscan⟩
    refine ⟨?_, fun r hr f hf => (structuredFilterClause_ok_iff pg f r).mp (hclause r hr f hf)⟩
    rw [← bindable_structured_iff (N := N)]
    by_contra hbind
    obtain ⟨out, hout⟩ := hscan [] ⟨rfl, fun _ _ _ hc => by simp at hc⟩ (.hasty pg)
    rw [List.nil_append, scan_unbindable pg _ (by simpa using hbind)] at hout
    cases hout
  · rintro ⟨hbind, heval⟩
    refine ⟨fun r hr f hf => (structuredFilterClause_ok_iff pg f r).mpr (heval r hr f hf),
      fun others hothers ch => ?_⟩
    have hall : bindable (others ++ filters.map .structured) = true := by
      rw [bindable, List.all_append, Bool.and_eq_true]
      exact ⟨hothers.1, (bindable_structured_iff filters).mpr hbind⟩
    have hsafe : Safe pg (others ++ filters.map .structured) rows := by
      refine ⟨hall, fun r hr c hc => ?_⟩
      rcases List.mem_append.mp hc with hc | hc
      · exact hothers.2 r hr c hc
      · obtain ⟨f, hf, rfl⟩ := List.mem_map.mp hc
        exact (raises_eq_false_iff pg f r).mpr (heval r hr f hf)
    exact ⟨_, scan_ok pg ch hsafe⟩

/-- For each list of filter texts and all rows of a collection. -/
theorem filters_never_fail_iff (texts : List Text) (rows : List Row) :
    NeverFails pg ((Upload.parseFilterParam texts).map .ofParsed) rows ↔
      (∀ f ∈ (Upload.parseFilterParam texts).map .ofParsed, Bindable f) ∧
        ∀ r ∈ rows, ∀ f ∈ (Upload.parseFilterParam texts).map .ofParsed, Evaluates pg f r :=
  neverFails_iff pg _ rows

/-- `filter=height:gt:10` on a row with the height "tall". -/
theorem word_height_fails : ¬ ∀ (texts : List Text) (rows : List Row),
    NeverFails samplePg ((Upload.parseFilterParam texts).map .ofParsed) rows := by
  intro h
  have heval := ((filters_never_fail_iff samplePg _ _).mp (h ["height:gt:10".toList] [tallRow])).2
    tallRow List.mem_cons_self ⟨"height".toList, .gt, "10".toList⟩ (by decide)
  have hcast := heval "tall".toList (by decide) (by decide)
  exact absurd hcast (by decide)

end Items
end Geofastmap
