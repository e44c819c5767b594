import Geofastmap.Calendar.Date
import Geofastmap.Upload.Complete

/-!
# Geofastmap.Mosaic.Seasons

The STAC intervals of a date range and some seasons: `season_datetime_slices` and
`_calendar_month_datetime_slices`.

For a year and a season the loop takes the days of `Chosen`: of the winter of a year these are
December and, in the next year, January and the first 28 days of February. So the January and
February of the first year of a range are not taken, nor is a 29 February; and where no day is taken
the whole range is searched. `season_slices_exact_iff` says for which ranges the days taken are those
of the seasons.
-/

namespace Geofastmap
namespace Mosaic

open Calendar

/-- `_SEASON_MONTHS`. -/
def seasonMonths : List (Text × Nat × Nat) :=
  [("spring".toList, 3, 5), ("summer".toList, 6, 8), ("autumn".toList, 9, 11),
    ("winter".toList, 12, 2)]

/-- `last` in the loop. -/
def lastDay (year b : Nat) : Nat :=
  if b = 2 then (if isLeap year then 29 else 28)
  else if [1, 3, 5, 7, 8, 10, 12].contains b then 31
  else 30

/-- `if d2 >= ds and d1 <= de`. -/
def clipSlice (w : Span) (d1 d2 : Date) : Option Span :=
  if w.first ≤ d2 ∧ d1 ≤ w.last then w.clip d1 d2 else none

/-- One season of one year. Without a result a date does not exist, which raises. -/
def yearSlices (w : Span) (year : Nat) (sn : Text) : Option (List Span) :=
  match seasonMonths.lookup sn with
  | none => some []
  | some (a, b) =>
    if sn = "winter".toList then do
      let d1 ← Date.of year 12 1
      let d2 ← Date.of year 12 31
      let d3 ← Date.of (year + 1) 1 1
      let d4 ← Date.of (year + 1) 2 28
      return (clipSlice w d1 d2).toList ++ (clipSlice w d3 d4).toList
    else do
      let d1 ← Date.of year a 1
      let d2 ← Date.of year b (lastDay year b)
      return (clipSlice w d1 d2).toList

/-- The loop over years and seasons. -/
def loopSlices (w : Span) : List (Nat × Text) → Option (List Span)
  | [] => some []
  | (year, sn) :: rest => do
    let slices ← yearSlices w year sn
    let more ← loopSlices w rest
    return slices ++ more

/-- The years of the range, each with the seasons. -/
def yearSeasons (w : Span) (want : List Text) : List (Nat × Text) :=
  (List.range' w.first.year (w.last.year + 1 - w.first.year)).flatMap
    fun year => want.map fun sn => (year, sn)

/-- The slices of a range and seasons, in their order. -/
def seasonSpans (w : Span) (want : List Text) : Option (List Span) := do
  let slices ← loopSlices w (yearSeasons w want)
  return if slices.isEmpty then [w] else slices.mergeSort fun s t => s.first ≤ t.first

/-- The loop of `_calendar_month_datetime_slices`, for at most so many months. -/
def monthSpans (w : Span) : Nat → Nat → Nat → Option (List Span)
  | 0, _, _ => some []
  | n + 1, year, month => do
    let cur ← Date.of year month 1
    if cur ≤ w.last then
      let next := if month = 12 then (year + 1, 1) else (year, month + 1)
      let _ ← Date.of next.1 next.2 1
      let monthLast ← Date.of year month (daysInMonth year month)
      let rest ← monthSpans w n next.1 next.2
      return (w.clip cur monthLast).toList ++ rest
    else return []

/-- `_calendar_month_datetime_slices`. -/
def calendarMonthSpans (w : Span) : Option (List Span) :=
  monthSpans w (w.last.year * 12 + w.last.month + 1 - (w.first.year * 12 + w.first.month))
    w.first.year w.first.month

/-- `{s.lower().strip() for s in seasons if s}`, in the order in which the set is run through. -/
structure Wanted (seasons : List Text) where
  names : List Text
  nodup : names.Nodup
  mem : ∀ sn, sn ∈ names ↔ ∃ s ∈ seasons, s ≠ [] ∧ strip (Sql.lower s) = sn

/-- The range between two days, in whichever order they are given. -/
def window (ds de : Date) : Span :=
  if h : ds ≤ de then ⟨ds, de, h⟩ else ⟨de, ds, (le_total ds de).resolve_left h⟩

def noSeasonSplitMinDays : Nat := 31

/-- `season_datetime_slices` of two texts that `_parse_date` has read. -/
def seasonDatetimeSlices (ds de : Option Date) (seasons : List Text) (want : Wanted seasons) :
    Option (List Text) :=
  match ds.or de, de.or ds with
  | some ds, some de => do
    let w := window ds de
    let spans ← (if seasons.isEmpty then
        if noSeasonSplitMinDays < w.last.toordinal - w.first.toordinal then
          (calendarMonthSpans w).map fun chunks => if chunks.isEmpty then [w] else chunks
        else some [w]
      else seasonSpans w want.names)
    return spans.map Span.text
  | _, _ => some []

/-! ## The days of a season -/

/-- The month is one of the season. -/
def InSeason (sn : Text) (month : Nat) : Prop :=
  ∃ a b, seasonMonths.lookup sn = some (a, b) ∧
    if a ≤ b then a ≤ month ∧ month ≤ b else a ≤ month ∨ month ≤ b

/-- A day that the loop takes for a season of a year. -/
def Chosen (year : Nat) (sn : Text) (d : Date) : Prop :=
  if sn = "winter".toList then
    (d.year = year ∧ d.month = 12) ∨
      (d.year = year + 1 ∧ (d.month = 1 ∨ (d.month = 2 ∧ d.day ≤ 28)))
  else d.year = year ∧ InSeason sn d.month

/-- A day is in one of the spans. -/
def Selects (spans : List Span) (d : Date) : Prop := ∃ s ∈ spans, d ∈ s

theorem Selects.append {spans more : List Span} {d : Date} :
    Selects (spans ++ more) d ↔ Selects spans d ∨ Selects more d := by
  simp [Selects, or_and_right, exists_or]

theorem clipSlice_eq (w : Span) (d1 d2 : Date) : clipSlice w d1 d2 = w.clip d1 d2 := by
  unfold clipSlice
  split
  · rfl
  · rename_i hout
    unfold Span.clip
    rw [dif_neg]
    intro hroom
    exact hout ⟨(le_max_right d1 w.first).trans (hroom.trans (min_le_left d2 w.last)),
      (le_max_left d1 w.first).trans (hroom.trans (min_le_right d2 w.last))⟩

theorem selects_clip (w : Span) (d1 d2 d : Date) :
    Selects (w.clip d1 d2).toList d ↔ d ∈ w ∧ d1 ≤ d ∧ d ≤ d2 := by
  rw [← Span.clip_mem]
  simp [Selects]

theorem seasonMonths_cases {sn : Text} {a b : Nat} (h : seasonMonths.lookup sn = some (a, b)) :
    (sn = "spring".toList ∧ a = 3 ∧ b = 5) ∨ (sn = "summer".toList ∧ a = 6 ∧ b = 8) ∨
      (sn = "autumn".toList ∧ a = 9 ∧ b = 11) ∨ (sn = "winter".toList ∧ a = 12 ∧ b = 2) := by
  obtain ⟨l1, l2, heq, -⟩ := List.lookup_eq_some_iff.mp h
  have hmem : (sn, a, b) ∈ seasonMonths := by simp [heq]
  simpa [seasonMonths] using hmem

theorem InSeason.cases {sn : Text} {month : Nat} (h : InSeason sn month) :
    (sn = "spring".toList ∧ 3 ≤ month ∧ month ≤ 5) ∨
      (sn = "summer".toList ∧ 6 ≤ month ∧ month ≤ 8) ∨
      (sn = "autumn".toList ∧ 9 ≤ month ∧ month ≤ 11) ∨
      (sn = "winter".toList ∧ (12 ≤ month ∨ month ≤ 2)) := by
  obtain ⟨a, b, hlookup, hmonth⟩ := h
  rcases seasonMonths_cases hlookup with ⟨hsn, rfl, rfl⟩ | ⟨hsn, rfl, rfl⟩ | ⟨hsn, rfl, rfl⟩ |
    ⟨hsn, rfl, rfl⟩
  · exact Or.inl ⟨hsn, by simpa using hmonth⟩
  · exact Or.inr (Or.inl ⟨hsn, by simpa using hmonth⟩)
  · exact Or.inr (Or.inr (Or.inl ⟨hsn, by simpa using hmonth⟩))
  · exact Or.inr (Or.inr (Or.inr ⟨hsn, by simpa using hmonth⟩))

/-- A month has one season. -/
theorem inSeason_unique {sn sn' : Text} {month : Nat} (h : InSeason sn month)
    (h' : InSeason sn' month) : sn = sn' := by
  rcases h.cases with ⟨hsn, hm⟩ | ⟨hsn, hm⟩ | ⟨hsn, hm⟩ | ⟨hsn, hm⟩ <;>
    rcases h'.cases with ⟨hsn', hm'⟩ | ⟨hsn', hm'⟩ | ⟨hsn', hm'⟩ | ⟨hsn', hm'⟩ <;>
    first
      | omega
      | exact hsn.trans hsn'.symm

theorem inSeason_winter {month : Nat} : InSeason "winter".toList month ↔ 12 ≤ month ∨ month ≤ 2 := by
  constructor
  · rintro ⟨a, b, h, hmonth⟩
    have hmonths : (a, b) = (12, 2) := by
      have hwinter : seasonMonths.lookup "winter".toList = some (12, 2) := by decide
      exact Option.some.inj (h.symm.trans hwinter)
    cases hmonths
    simpa using hmonth
  · exact fun h => ⟨12, 2, by decide, by simpa using h⟩

theorem Chosen.inSeason {year : Nat} {sn : Text} {d : Date} (h : Chosen year sn d) :
    InSeason sn d.month := by
  unfold Chosen at h
  split at h
  · rename_i hsn
    subst hsn
    exact inSeason_winter.mpr (by omega)
  · exact h.2

theorem chosen_winter {year : Nat} {d : Date} : Chosen year "winter".toList d ↔
    (d.year = year ∧ d.month = 12) ∨
      (d.year = year + 1 ∧ (d.month = 1 ∨ (d.month = 2 ∧ d.day ≤ 28))) := by
  rw [Chosen, if_pos rfl]

theorem chosen_other {year : Nat} {sn : Text} {d : Date} (hsn : sn ≠ "winter".toList) :
    Chosen year sn d ↔ d.year = year ∧ InSeason sn d.month := by
  rw [Chosen, if_neg hsn]

theorem chosen_unique {year year' : Nat} {sn sn' : Text} {d : Date} (h : Chosen year sn d)
    (h' : Chosen year' sn' d) : (year, sn) = (year', sn') := by
  obtain rfl := inSeason_unique h.inSeason h'.inSeason
  unfold Chosen at h h'
  split at h
  · rename_i hsn
    rw [if_pos hsn] at h'
    rw [show year = year' by omega]
  · rename_i hsn
    rw [if_neg hsn] at h'
    rw [← h.1, ← h'.1]

/-! ## The loop -/

def Known (sn : Text) : Prop := (seasonMonths.lookup sn).isSome

instance (sn : Text) : Decidable (Known sn) := inferInstanceAs (Decidable (_ = true))

/-- From the first day of a month to `last` of another one. -/
theorem months_of {year a b : Nat} (hpos : 1 ≤ year) (hle : year ≤ 9999) (ha : 1 ≤ a) (hab : a ≤ b)
    (hb : b ≤ 12) (hlast : lastDay year b = daysInMonth year b) :
    ∃ d1 d2 : Date, Date.of year a 1 = some d1 ∧ Date.of year b (lastDay year b) = some d2 ∧
      ∀ d, d1 ≤ d ∧ d ≤ d2 ↔ d.year = year ∧ a ≤ d.month ∧ d.month ≤ b := by
  have hone : ∀ m, 1 ≤ daysInMonth year m := fun m => by
    unfold daysInMonth
    split_ifs <;> omega
  have h1 : IsDate year a 1 := ⟨hpos, hle, ha, by omega, by omega, hone a⟩
  have h2 : IsDate year b (lastDay year b) :=
    ⟨hpos, hle, by omega, hb, hlast ▸ hone b, hlast ▸ Nat.le_refl _⟩
  refine ⟨_, _, Date.of_eq_some h1, Date.of_eq_some h2, fun d => ?_⟩
  have hend : (⟨year, b, _, h2⟩ : Date).day = daysInMonth year b := hlast
  have hyear : (⟨year, a, 1, h1⟩ : Date).year = (⟨year, b, _, h2⟩ : Date).year := rfl
  exact Date.between_months hyear rfl hend d

theorem winterSlices_spec (w : Span) {year : Nat} (hpos : 1 ≤ year) (hlt : year < 9999) :
    ∃ spans, yearSlices w year "winter".toList = some spans ∧
      (∀ d, Selects spans d ↔ d ∈ w ∧ Chosen year "winter".toList d) ∧
      spans.Pairwise Span.Apart := by
  have hlookup : seasonMonths.lookup "winter".toList = some (12, 2) := by decide
  obtain ⟨d1, d2, h1, h2, hdec⟩ := months_of (a := 12) (b := 12) hpos (by omega) (by omega)
    (Nat.le_refl _) (Nat.le_refl _) rfl
  have h2 : Date.of year 12 31 = some d2 := h2
  have h3 : IsDate (year + 1) 1 1 := ⟨by omega, by omega, by omega, by omega, by omega, by
    show 1 ≤ 31
    omega⟩
  have h4 : IsDate (year + 1) 2 28 := ⟨by omega, by omega, by omega, by omega, by omega, by
    unfold daysInMonth
    split_ifs <;> omega⟩
  have hjan : ∀ d : Date, (⟨year + 1, 1, 1, h3⟩ : Date) ≤ d ∧ d ≤ ⟨year + 1, 2, 28, h4⟩ ↔
      d.year = year + 1 ∧ (d.month = 1 ∨ (d.month = 2 ∧ d.day ≤ 28)) := by
    intro d
    have hmonth := d.valid.month_pos
    have hday := d.valid.day_pos
    rw [Date.le_iff, Date.le_iff]
    dsimp only
    omega
  refine ⟨(clipSlice w d1 d2).toList ++ (clipSlice w ⟨_, _, _, h3⟩ ⟨_, _, _, h4⟩).toList, ?_, ?_, ?_⟩
  · rw [yearSlices, hlookup]
    simp only [if_pos, h1, h2, Date.of_eq_some h3, Date.of_eq_some h4]
    rfl
  · intro d
    rw [Selects.append, clipSlice_eq, clipSlice_eq, selects_clip, selects_clip, hdec, hjan,
      chosen_winter, ← and_or_left]
    exact and_congr_right fun _ => by omega
  · rw [clipSlice_eq, clipSlice_eq, List.pairwise_append]
    refine ⟨by cases w.clip d1 d2 <;> simp, by cases w.clip _ _ <;> simp, ?_⟩
    intro s hs t ht d hds hdt
    have hdays := ((Span.clip_some (Option.mem_toList.mp hs) d).mp hds).2
    have hdays' := ((Span.clip_some (Option.mem_toList.mp ht) d).mp hdt).2
    rw [hdec] at hdays
    rw [hjan] at hdays'
    omega

theorem yearSlices_spec (w : Span) {year : Nat} {sn : Text} (hpos : 1 ≤ year) (hle : year ≤ 9999)
    (hknown : Known sn) (hwinter : sn = "winter".toList → year < 9999) :
    ∃ spans, yearSlices w year sn = some spans ∧
      (∀ d, Selects spans d ↔ d ∈ w ∧ Chosen year sn d) ∧ spans.Pairwise Span.Apart := by
  by_cases hsn : sn = "winter".toList
  · rw [hsn]
    exact winterSlices_spec w hpos (hwinter hsn)
  · obtain ⟨⟨a, b⟩, hlookup⟩ := Option.isSome_iff_exists.mp hknown
    obtain ⟨hab, ha, hb, hlast⟩ : a ≤ b ∧ 1 ≤ a ∧ b ≤ 12 ∧ lastDay year b = daysInMonth year b := by
      rcases seasonMonths_cases hlookup with ⟨-, rfl, rfl⟩ | ⟨-, rfl, rfl⟩ | ⟨-, rfl, rfl⟩ | ⟨hw, -⟩
      · exact ⟨by omega, by omega, by omega, rfl⟩
      · exact ⟨by omega, by omega, by omega, rfl⟩
      · exact ⟨by omega, by omega, by omega, rfl⟩
      · exact absurd hw hsn
    obtain ⟨d1, d2, h1, h2, hdays⟩ := months_of hpos hle ha hab hb hlast
    refine ⟨(clipSlice w d1 d2).toList, ?_, ?_, ?_⟩
    · rw [yearSlices, hlookup]
      simp only [if_neg hsn, h1, h2]
      rfl
    · intro d
      rw [clipSlice_eq, selects_clip, hdays, chosen_other hsn]
      have hmonth : InSeason sn d.month ↔ a ≤ d.month ∧ d.month ≤ b := by
        constructor
        · rintro ⟨a', b', h, hm⟩
          cases hlookup.symm.trans h
          simpa [hab] using hm
        · exact fun h => ⟨a, b, hlookup, by simpa [hab] using h⟩
      rw [hmonth]
    · cases clipSlice w d1 d2 <;> simp

/-- The seasons of the loop that do not raise. -/
def Datable (k : Nat × Text) : Prop :=
  1 ≤ k.1 ∧ k.1 ≤ 9999 ∧ Known k.2 ∧ (k.2 = "winter".toList → k.1 < 9999)

theorem loopSlices_spec (w : Span) {keys : List (Nat × Text)} (hkeys : ∀ k ∈ keys, Datable k)
    (hnodup : keys.Nodup) :
    ∃ spans, loopSlices w keys = some spans ∧
      (∀ d, Selects spans d ↔ d ∈ w ∧ ∃ k ∈ keys, Chosen k.1 k.2 d) ∧
      spans.Pairwise Span.Apart := by
  induction keys with
  | nil => exact ⟨[], rfl, fun d => by simp [Selects], List.Pairwise.nil⟩
  | cons k keys ih =>
    obtain ⟨year, sn⟩ := k
    obtain ⟨hnew, hrest⟩ := List.nodup_cons.mp hnodup
    obtain ⟨hpos, hle, hknown, hwinter⟩ := hkeys _ List.mem_cons_self
    obtain ⟨slices, hslices, hsel, hapart⟩ := yearSlices_spec w hpos hle hknown hwinter
    obtain ⟨more, hmore, hsel', hapart'⟩ :=
      ih (fun k hk => hkeys k (List.mem_cons_of_mem _ hk)) hrest
    refine ⟨slices ++ more, ?_, ?_, ?_⟩
    · rw [loopSlices, hslices, hmore]
      rfl
    · intro d
      rw [Selects.append, hsel, hsel', List.exists_mem_cons_iff, and_or_left]
    · rw [List.pairwise_append]
      refine ⟨hapart, hapart', fun s hs t ht d hds hdt => ?_⟩
      have hchosen := ((hsel d).mp ⟨s, hs, hds⟩).2
      obtain ⟨-, k, hk, hchosen'⟩ := (hsel' d).mp ⟨t, ht, hdt⟩
      -- a day is chosen for one year and one season only
      exact hnew (chosen_unique hchosen hchosen' ▸ hk)

theorem loopSlices_none (w : Span) {keys : List (Nat × Text)}
    (h : (9999, "winter".toList) ∈ keys) : loopSlices w keys = none := by
  induction keys with
  | nil => cases h
  | cons k keys ih =>
    obtain ⟨year, sn⟩ := k
    rw [loopSlices]
    rcases List.mem_cons.mp h with heq | hmem
    · cases heq
      have hraise : yearSlices w 9999 "winter".toList = none := by
        have hlookup : seasonMonths.lookup "winter".toList = some (12, 2) := by decide
        have hlate : Date.of (9999 + 1) 1 1 = none := by decide
        rw [yearSlices, hlookup]
        simp only [if_pos, hlate]
        cases Date.of 9999 12 1 <;> cases Date.of 9999 12 31 <;> rfl
      rw [hraise]
      rfl
    · rw [ih hmem]
      cases yearSlices w year sn <;> rfl

theorem mem_yearSeasons {w : Span} {want : List Text} {k : Nat × Text} :
    k ∈ yearSeasons w want ↔ w.first.year ≤ k.1 ∧ k.1 ≤ w.last.year ∧ k.2 ∈ want := by
  obtain ⟨year, sn⟩ := k
  simp only [yearSeasons, List.mem_flatMap, List.mem_map, List.mem_range'_1, Prod.mk.injEq]
  constructor
  · rintro ⟨y, hy, s, hs, rfl, rfl⟩
    exact ⟨hy.1, by omega, hs⟩
  · rintro ⟨h1, h2, hs⟩
    exact ⟨year, ⟨h1, by omega⟩, sn, hs, rfl, rfl⟩

theorem nodup_yearSeasons (w : Span) {want : List Text} (h : want.Nodup) :
    (yearSeasons w want).Nodup := by
  have hproduct := (List.nodup_range' (s := w.first.year)
    (n := w.last.year + 1 - w.first.year)).product h
  exact hproduct

/-! ## The seasons of a range -/

/-- A day of a season that is asked for. -/
def Requested (want : List Text) (d : Date) : Prop := ∃ sn ∈ want, InSeason sn d.month

/-- The spans hold the days of the range that are requested, and no other day, and each once. -/
structure SlicesExact (w : Span) (want : List Text) (spans : List Span) : Prop where
  exact : ∀ d ∈ w, Selects spans d ↔ Requested want d
  inside : ∀ s ∈ spans, ∀ d ∈ s, d ∈ w
  apart : spans.Pairwise Span.Apart

/-- Some day of the range is requested; and where winter is, the range ends before the year 9999 and
is a part of the January and February of one year, or begins after February and has no
29 February. -/
def Selectable (w : Span) (want : List Text) : Prop :=
  (∃ d ∈ w, Requested want d) ∧
    ("winter".toList ∈ want → w.last.year < 9999 ∧
      ((w.first.year = w.last.year ∧ w.last.month ≤ 2) ∨
        (3 ≤ w.first.month ∧ ∀ d ∈ w, ¬ (d.month = 2 ∧ d.day = 29))))

section
variable {w : Span} {want : List Text}

/-- What the loop takes of a range that does not end too late. -/
structure Taken (w : Span) (want : List Text) (spans : List Span) : Prop where
  loop : loopSlices w (yearSeasons w want) = some spans
  days : ∀ d, Selects spans d ↔
    d ∈ w ∧ ∃ k ∈ yearSeasons w want, Chosen k.1 k.2 d
  apart : spans.Pairwise Span.Apart

theorem exists_taken (hknown : ∀ sn ∈ want, Known sn) (hnodup : want.Nodup)
    (hlate : "winter".toList ∈ want → w.last.year < 9999) : ∃ spans, Taken w want spans := by
  have hkeys : ∀ k ∈ yearSeasons w want, Datable k := by
    intro k hk
    obtain ⟨hfirst, hlast, hsn⟩ := mem_yearSeasons.mp hk
    have hpos := w.first.valid.year_pos
    have hle := w.last.valid.year_le
    refine ⟨by omega, by omega, hknown _ hsn, fun hwinter => ?_⟩
    rw [hwinter] at hsn
    have := hlate hsn
    omega
  obtain ⟨spans, hloop, hdays, hapart⟩ := loopSlices_spec w hkeys (nodup_yearSeasons w hnodup)
  exact ⟨spans, hloop, hdays, hapart⟩

/-- The years of a day of the range are years of the range. -/
theorem year_mem {d : Date} (h : d ∈ w) : w.first.year ≤ d.year ∧ d.year ≤ w.last.year := by
  obtain ⟨hfirst, hlast⟩ := Span.mem_def.mp h
  rw [Date.le_iff] at hfirst hlast
  omega

namespace Taken

variable {spans : List Span} (h : Taken w want spans)
include h

theorem requested {d : Date} (hd : Selects spans d) : d ∈ w ∧ Requested want d := by
  obtain ⟨hw, k, hk, hchosen⟩ := (h.days d).mp hd
  exact ⟨hw, k.2, (mem_yearSeasons.mp hk).2.2, hchosen.inSeason⟩

/-- From March to December a requested day is taken. -/
theorem selects_late {d : Date} (hd : d ∈ w) (hreq : Requested want d) (hmonth : 3 ≤ d.month) :
    Selects spans d := by
  obtain ⟨sn, hsn, hseason⟩ := hreq
  obtain ⟨hfirst, hlast⟩ := year_mem hd
  refine (h.days d).mpr ⟨hd, (d.year, sn), mem_yearSeasons.mpr ⟨hfirst, hlast, hsn⟩, ?_⟩
  have hle := d.valid.month_le
  by_cases hwinter : sn = "winter".toList
  · subst hwinter
    have := inSeason_winter.mp hseason
    exact chosen_winter.mpr (Or.inl ⟨rfl, by omega⟩)
  · exact (chosen_other hwinter).mpr ⟨rfl, hseason⟩

/-- A day of January or February is taken in a later year, up to the 28th. -/
theorem selects_early_iff {d : Date} (hd : d ∈ w) (hmonth : d.month ≤ 2) :
    Selects spans d ↔ "winter".toList ∈ want ∧ w.first.year < d.year ∧
      ¬ (d.month = 2 ∧ d.day = 29) := by
  obtain ⟨hfirst, hlast⟩ := year_mem hd
  have hpos := d.valid.month_pos
  rw [h.days]
  constructor
  · rintro ⟨-, ⟨year, sn⟩, hk, hchosen⟩
    obtain ⟨hyear, -, hsn⟩ := mem_yearSeasons.mp hk
    obtain rfl : sn = "winter".toList :=
      inSeason_unique hchosen.inSeason (inSeason_winter.mpr (Or.inr hmonth))
    have := chosen_winter.mp hchosen
    dsimp only at hyear
    exact ⟨hsn, by omega, by omega⟩
  · rintro ⟨hwinter, hyear, hleap⟩
    refine ⟨hd, (d.year - 1, "winter".toList), mem_yearSeasons.mpr ⟨by dsimp only; omega,
      by dsimp only; omega, hwinter⟩, chosen_winter.mpr (Or.inr ⟨by omega, ?_⟩)⟩
    by_cases hjan : d.month = 1
    · exact Or.inl hjan
    · have hfeb : d.month = 2 := by omega
      have hday := d.valid.day_le
      rw [hfeb, daysInMonth, if_pos rfl] at hday
      refine Or.inr ⟨hfeb, ?_⟩
      have : d.day ≠ 29 := fun h29 => hleap ⟨hfeb, h29⟩
      split at hday <;> omega

theorem spans_nil_iff : spans = [] ↔ ∀ d, ¬ Selects spans d := by
  constructor
  · rintro rfl d ⟨s, hs, -⟩
    cases hs
  · intro hnone
    cases hspans : spans with
    | nil => rfl
    | cons s rest =>
      refine absurd ⟨s, ?_, s.first_mem⟩ (hnone s.first)
      rw [hspans]
      exact List.mem_cons_self

/-- The slices that are returned: those of the loop, or the whole range if there are none. -/
theorem seasonSpans_eq : ∃ out, seasonSpans w want = some out ∧
    ((spans = [] ∧ out = [w]) ∨ (spans ≠ [] ∧ out.Perm spans)) := by
  unfold seasonSpans
  rw [h.loop]
  cases hspans : spans with
  | nil => exact ⟨[w], rfl, Or.inl ⟨rfl, rfl⟩⟩
  | cons s rest => exact ⟨_, rfl, Or.inr ⟨by simp, List.mergeSort_perm _ _⟩⟩

end Taken

theorem selects_perm {spans out : List Span} (h : out.Perm spans) (d : Date) :
    Selects out d ↔ Selects spans d := by
  simp only [Selects, h.mem_iff]

theorem requested_winter (hwinter : "winter".toList ∈ want) {d : Date}
    (hd : d.month = 12 ∨ d.month ≤ 2) : Requested want d :=
  ⟨_, hwinter, inSeason_winter.mpr (by omega)⟩

theorem slicesExact_whole (hall : ∀ d ∈ w, Requested want d) : SlicesExact w want [w] where
  exact d hd := ⟨fun _ => hall d hd, fun _ => ⟨w, by simp, hd⟩⟩
  inside := by simp
  apart := by simp

section
variable {spans out : List Span} (h : Taken w want spans)
  (hout : (spans = [] ∧ out = [w]) ∨ (spans ≠ [] ∧ out.Perm spans))
include h hout

theorem exists_requested (hexact : SlicesExact w want out) : ∃ d ∈ w, Requested want d := by
  rcases hout with ⟨-, rfl⟩ | ⟨hne, hperm⟩
  · exact ⟨w.first, w.first_mem, (hexact.exact _ w.first_mem).mp ⟨w, by simp, w.first_mem⟩⟩
  · obtain ⟨s, hs⟩ := List.exists_mem_of_ne_nil _ hne
    exact ⟨s.first, h.requested ⟨s, hs, s.first_mem⟩⟩

/-- Days of January and February are lost at the beginning of a range that does not end there. -/
theorem march_of_exact (hexact : SlicesExact w want out) (hwinter : "winter".toList ∈ want)
    (hlong : ¬ (w.first.year = w.last.year ∧ w.last.month ≤ 2)) : 3 ≤ w.first.month := by
  by_contra hearly
  have hsel := (hexact.exact _ w.first_mem).mpr (requested_winter hwinter (by omega))
  rcases hout with ⟨hnil, rfl⟩ | ⟨-, hperm⟩
  · -- the whole range is returned, and it has a day of March
    have hvalid : IsDate w.first.year 3 1 := ⟨w.first.valid.year_pos, w.first.valid.year_le,
      by omega, by omega, by omega, by
        show 1 ≤ 31
        omega⟩
    have hmar : (⟨w.first.year, 3, 1, hvalid⟩ : Date) ∈ w := by
      have hlast := w.last.valid.day_pos
      have hyears := Date.le_iff.mp w.le
      rw [Span.mem_def, Date.le_iff, Date.le_iff]
      dsimp only
      omega
    have hreq := (hexact.exact _ hmar).mp ⟨w, by simp, hmar⟩
    exact h.spans_nil_iff.mp hnil _ (h.selects_late hmar hreq (Nat.le_refl 3))
  · rw [selects_perm hperm, h.selects_early_iff w.first_mem (by omega)] at hsel
    omega

/-- A 29 February is lost in a range that begins in another year. -/
theorem no_leap_day_of_exact (hexact : SlicesExact w want out) (hwinter : "winter".toList ∈ want)
    (hmarch : 3 ≤ w.first.month) : ∀ d ∈ w, ¬ (d.month = 2 ∧ d.day = 29) := by
  intro d hd hleap
  have hdfirst := Date.le_iff.mp hd.1
  have hdlast := Date.le_iff.mp hd.2
  have hsel := (hexact.exact d hd).mpr (requested_winter hwinter (by omega))
  rcases hout with ⟨hnil, -⟩ | ⟨-, hperm⟩
  · -- the last day of the first year comes before
    have hvalid : IsDate w.first.year 12 31 := ⟨w.first.valid.year_pos, w.first.valid.year_le,
      by omega, by omega, by omega, Nat.le_refl 31⟩
    have hdec : (⟨w.first.year, 12, 31, hvalid⟩ : Date) ∈ w := by
      have hday := w.first.day_le
      have hmonth := w.first.valid.month_le
      rw [Span.mem_def, Date.le_iff, Date.le_iff]
      dsimp only
      omega
    have htaken := h.selects_late hdec (requested_winter hwinter (Or.inl rfl)) (by dsimp only; omega)
    exact h.spans_nil_iff.mp hnil _ htaken
  · rw [selects_perm hperm, h.selects_early_iff hd (by omega)] at hsel
    exact hsel.2.2 hleap

/-- In the January and February of one year nothing is taken, and the range is all winter. -/
theorem exact_of_short (hwinter : "winter".toList ∈ want)
    (hshort : w.first.year = w.last.year ∧ w.last.month ≤ 2) : SlicesExact w want out := by
  have hmonths : ∀ d ∈ w, d.month ≤ 2 ∧ d.year = w.first.year := by
    intro d hd
    have hyear := year_mem hd
    have hdlast := Date.le_iff.mp hd.2
    omega
  have hnil : spans = [] := by
    rw [h.spans_nil_iff]
    intro d hsel
    have hd := (h.requested hsel).1
    rw [h.selects_early_iff hd (hmonths d hd).1] at hsel
    have := (hmonths d hd).2
    omega
  rcases hout with ⟨-, rfl⟩ | ⟨hne, -⟩
  · exact slicesExact_whole fun d hd => requested_winter hwinter (Or.inr (hmonths d hd).1)
  · exact absurd hnil hne

theorem exact_of_taken (hsome : ∃ d ∈ w, Requested want d)
    (hall : ∀ d ∈ w, Requested want d → Selects spans d) : SlicesExact w want out := by
  obtain ⟨d₀, hd₀, hreq₀⟩ := hsome
  rcases hout with ⟨hnil, -⟩ | ⟨-, hperm⟩
  · exact absurd (hall d₀ hd₀ hreq₀) (h.spans_nil_iff.mp hnil d₀)
  · constructor
    · intro d hd
      rw [selects_perm hperm]
      exact ⟨fun hsel => (h.requested hsel).2, hall d hd⟩
    · intro s hs d hds
      exact (h.requested ⟨s, hperm.mem_iff.mp hs, hds⟩).1
    · exact hperm.symm.pairwise h.apart Span.Apart.symm

theorem slicesExact_iff (hlate : "winter".toList ∈ want → w.last.year < 9999) :
    SlicesExact w want out ↔ Selectable w want := by
  constructor
  · intro hexact
    refine ⟨exists_requested h hout hexact, fun hwinter => ⟨hlate hwinter, ?_⟩⟩
    by_cases hshort : w.first.year = w.last.year ∧ w.last.month ≤ 2
    · exact Or.inl hshort
    · have hmarch := march_of_exact h hout hexact hwinter hshort
      exact Or.inr ⟨hmarch, no_leap_day_of_exact h hout hexact hwinter hmarch⟩
  · rintro ⟨hsome, hwinter⟩
    by_cases hshort : "winter".toList ∈ want ∧ w.first.year = w.last.year ∧ w.last.month ≤ 2
    · exact exact_of_short h hout hshort.1 hshort.2
    · refine exact_of_taken h hout hsome fun d hd hreq => ?_
      by_cases hmonth : 3 ≤ d.month
      · exact h.selects_late hd hreq hmonth
      · obtain ⟨sn, hsn, hseason⟩ := hreq
        have hwint : sn = "winter".toList :=
          inSeason_unique hseason (inSeason_winter.mpr (by omega))
        rw [hwint] at hsn
        rcases (hwinter hsn).2 with hsame | ⟨hmarch, hleap⟩
        · exact absurd ⟨hsn, hsame⟩ hshort
        · rw [h.selects_early_iff hd (by omega)]
          have hdfirst := Date.le_iff.mp hd.1
          exact ⟨hsn, by omega, hleap d hd⟩

end

/-- A winter that ends after the last year there is raises. -/
theorem seasonSpans_none (hwinter : "winter".toList ∈ want) (hlate : ¬ w.last.year < 9999) :
    seasonSpans w want = none := by
  have hlast := w.last.valid.year_le
  have hyears := Date.le_iff.mp w.le
  have hkey : (9999, "winter".toList) ∈ yearSeasons w want :=
    mem_yearSeasons.mpr ⟨by dsimp only; omega, by dsimp only; omega, hwinter⟩
  unfold seasonSpans
  rw [loopSlices_none w hkey]
  rfl

theorem seasonSpans_exact_iff (hknown : ∀ sn ∈ want, Known sn) (hnodup : want.Nodup) :
    (∃ out, seasonSpans w want = some out ∧ SlicesExact w want out) ↔ Selectable w want := by
  by_cases hlate : "winter".toList ∈ want → w.last.year < 9999
  · obtain ⟨spans, h⟩ := exists_taken hknown hnodup hlate
    obtain ⟨out, hspans, hout⟩ := h.seasonSpans_eq
    rw [← slicesExact_iff h hout hlate, hspans]
    simp
  · obtain ⟨hwinter, hlate⟩ := Classical.not_imp.mp hlate
    rw [seasonSpans_none hwinter hlate]
    constructor
    · rintro ⟨out, h, -⟩
      cases h
    · exact fun h => absurd (h.2 hwinter).1 hlate

end

/-- The days of the intervals, as the texts have them. -/
def TextsExact (w : Span) (want : List Text) (texts : List Text) : Prop :=
  ∃ spans, texts = spans.map Span.text ∧ SlicesExact w want spans

theorem textsExact_map {w : Span} {want : List Text} {spans : List Span} :
    TextsExact w want (spans.map Span.text) ↔ SlicesExact w want spans := by
  constructor
  · rintro ⟨spans', htexts, hexact⟩
    exact List.map_injective_iff.mpr Span.text_injective htexts ▸ hexact
  · exact fun h => ⟨spans, rfl, h⟩

/-- For each range and each list of seasons. -/
theorem season_slices_exact_iff {ds de : Date} (h : ds ≤ de) {seasons : List Text}
    (hne : seasons ≠ []) (hknown : ∀ s ∈ seasons, Known (strip (Sql.lower s)))
    (want : Wanted seasons) :
    (∃ texts, seasonDatetimeSlices (some ds) (some de) seasons want = some texts ∧
      TextsExact ⟨ds, de, h⟩ want.names texts) ↔ Selectable ⟨ds, de, h⟩ want.names := by
  have hwindow : window ds de = ⟨ds, de, h⟩ := dif_pos h
  have hnames : ∀ sn ∈ want.names, Known sn := by
    intro sn hsn
    obtain ⟨s, hs, -, rfl⟩ := (want.mem sn).mp hsn
    exact hknown s hs
  have hslices : seasonDatetimeSlices (some ds) (some de) seasons want =
      (seasonSpans ⟨ds, de, h⟩ want.names).map (List.map Span.text) := by
    unfold seasonDatetimeSlices
    simp only [Option.or, hwindow]
    rw [if_neg (by simpa using hne)]
    cases seasonSpans ⟨ds, de, h⟩ want.names <;> rfl
  rw [hslices, ← seasonSpans_exact_iff hnames want.nodup]
  cases seasonSpans ⟨ds, de, h⟩ want.names with
  | none => simp
  | some out => simp [textsExact_map]

/-! ## Two ranges -/

/-- One season. -/
def only (s : Text) (hs : s ≠ [] ∧ strip (Sql.lower s) = s) : Wanted [s] where
  names := [s]
  nodup := List.nodup_singleton s
  mem sn := by
    simp [hs.1, hs.2, eq_comm]

def midMay : Date := ⟨2024, 5, 15, by decide⟩

def midJune : Date := ⟨2024, 6, 15, by decide⟩

def firstDecember : Date := ⟨2023, 12, 1, by decide⟩

def leapDay : Date := ⟨2024, 2, 29, by decide⟩

/-- The summer of a range that begins in May. -/
theorem season_slices_exact_border :
    ∃ texts, seasonDatetimeSlices (some midMay) (some midJune) ["summer".toList]
        (only "summer".toList (by decide)) = some texts ∧
      TextsExact ⟨midMay, midJune, by decide⟩ ["summer".toList] texts :=
  (season_slices_exact_iff (by decide : midMay ≤ midJune) (by simp) (by decide)
    (only "summer".toList (by decide))).mpr
    ⟨⟨midJune, ⟨by decide, le_refl _⟩, "summer".toList, by decide, 6, 8, by decide, by decide⟩,
      fun h => absurd h (by decide)⟩

/-- The winter of 2023 ends on 28 February 2024. -/
theorem leap_day_lost : ¬ ∀ (ds de : Date) (h : ds ≤ de) (seasons : List Text)
    (want : Wanted seasons), seasons ≠ [] →
      (∀ s ∈ seasons, Known (strip (Sql.lower s))) →
        ∃ texts, seasonDatetimeSlices (some ds) (some de) seasons want = some texts ∧
          TextsExact ⟨ds, de, h⟩ want.names texts := by
  intro h
  have hle : firstDecember ≤ leapDay := by decide
  have hexact := h firstDecember leapDay hle ["winter".toList] (only "winter".toList (by decide))
    (by simp) (by decide)
  rw [season_slices_exact_iff hle (by simp) (by decide)] at hexact
  rcases (hexact.2 (by decide)).2 with ⟨hyear, -⟩ | ⟨-, hleap⟩
  · have hyear : 2023 = 2024 := hyear
    omega
  · exact hleap leapDay ⟨hle, le_refl _⟩ ⟨rfl, rfl⟩

end Mosaic
end Geofastmap
