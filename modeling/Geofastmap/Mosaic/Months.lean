import Geofastmap.Mosaic.Seasons

/-!
# Geofastmap.Mosaic.Months

`_calendar_month_datetime_slices` cuts a range into its months. `monthSpans_spec` runs the loop from
any month, by induction on the months that are left; `calendar_slices_partition` is the whole range.
-/

namespace Geofastmap
namespace Mosaic

open Calendar

/-- The texts that `_calendar_month_datetime_slices` returns. -/
def calendarMonthDatetimeSlices (w : Span) : Option (List Text) :=
  (calendarMonthSpans w).map (List.map Span.text)

/-! ## Months -/

/-- A number for each month, one more for the next. -/
def monthNumber (d : Date) : Nat := d.year * 12 + d.month

theorem lt_of_monthNumber_lt {a b : Date} (h : monthNumber a < monthNumber b) : a < b := by
  have hpos := a.valid.month_pos
  have hle := b.valid.month_le
  rw [← not_le, Date.le_iff]
  unfold monthNumber at h
  omega

theorem monthNumber_inj {a b : Date} (h : monthNumber a = monthNumber b) :
    a.year = b.year ∧ a.month = b.month := by
  have ha := a.valid.month_le
  have hb := b.valid.month_le
  have hpos := a.valid.month_pos
  have hpos' := b.valid.month_pos
  unfold monthNumber at h
  omega

/-- The days of a month. -/
theorem month_of {year month : Nat} (hpos : 1 ≤ year) (hle : year ≤ 9999) (hmonth : 1 ≤ month)
    (hmonth' : month ≤ 12) :
    ∃ d1 d2 : Date, Date.of year month 1 = some d1 ∧
      Date.of year month (daysInMonth year month) = some d2 ∧
      (∀ d, d1 ≤ d ↔ year * 12 + month ≤ monthNumber d) ∧
      ∀ d, d1 ≤ d ∧ d ≤ d2 ↔ monthNumber d = year * 12 + month := by
  have hone : 1 ≤ daysInMonth year month := by
    unfold daysInMonth
    split_ifs <;> omega
  have h1 : IsDate year month 1 := ⟨hpos, hle, hmonth, hmonth', Nat.le_refl 1, hone⟩
  have h2 : IsDate year month (daysInMonth year month) :=
    ⟨hpos, hle, hmonth, hmonth', hone, Nat.le_refl _⟩
  refine ⟨_, _, Date.of_eq_some h1, Date.of_eq_some h2, fun d => ?_, fun d => ?_⟩
  · have hday := d.valid.day_pos
    have hpos' := d.valid.month_pos
    have hle' := d.valid.month_le
    rw [Date.le_iff, monthNumber]
    dsimp only
    omega
  · have hpos' := d.valid.month_pos
    have hle' := d.valid.month_le
    have hbetween := @Date.between_months ⟨year, month, 1, h1⟩ ⟨year, month, _, h2⟩ rfl rfl rfl d
    rw [hbetween, monthNumber]
    dsimp only
    omega

/-! ## The loop -/

/-- The spans hold the days of the range from a month on, each once and in their order, and no span
has days of two months. -/
structure MonthSlices (w : Span) (start : Nat) (spans : List Span) : Prop where
  increasing : spans.Pairwise fun s t => s.last < t.first
  oneMonth : ∀ s ∈ spans, monthNumber s.first = monthNumber s.last
  days : ∀ d, Selects spans d ↔ d ∈ w ∧ start ≤ monthNumber d

/-- A month before the others. -/
theorem MonthSlices.cons {w : Span} {start : Nat} {spans : List Span} {d1 d2 : Date}
    (h : MonthSlices w (start + 1) spans)
    (hmonth : ∀ d, d1 ≤ d ∧ d ≤ d2 ↔ monthNumber d = start) :
    MonthSlices w start ((w.clip d1 d2).toList ++ spans) := by
  have hclip : ∀ s ∈ (w.clip d1 d2).toList, ∀ d ∈ s, monthNumber d = start := fun s hs d hd =>
    (hmonth d).mp ((Span.clip_some (Option.mem_toList.mp hs) d).mp hd).2
  have hrest : ∀ s ∈ spans, start < monthNumber s.first := fun s hs =>
    ((h.days s.first).mp ⟨s, hs, s.first_mem⟩).2
  constructor
  · rw [List.pairwise_append]
    refine ⟨by cases w.clip d1 d2 <;> simp, h.increasing, fun s hs t ht => ?_⟩
    apply lt_of_monthNumber_lt
    rw [hclip s hs s.last s.last_mem]
    exact hrest t ht
  · intro s hs
    rcases List.mem_append.mp hs with hs | hs
    · rw [hclip s hs s.first s.first_mem, hclip s hs s.last s.last_mem]
    · exact h.oneMonth s hs
  · intro d
    rw [Selects.append, selects_clip, hmonth, h.days, ← and_or_left]
    exact and_congr_right fun _ => by omega

/-- The loop from a month on. More turns than there are months change nothing. -/
theorem monthSpans_spec (w : Span) (hlate : monthNumber w.last < 9999 * 12 + 12) (left : Nat)
    {year month : Nat} (hpos : 1 ≤ year) (hmonth : 1 ≤ month) (hmonth' : month ≤ 12)
    (hleft : year * 12 + month + left = monthNumber w.last + 1) :
    ∃ spans, (∀ turns, left ≤ turns → monthSpans w turns year month = some spans) ∧
      MonthSlices w (year * 12 + month) spans := by
  obtain ⟨d1, d2, h1, h2, hfirst, hdays⟩ := month_of hpos (by omega) hmonth hmonth'
  induction left generalizing year month d1 d2 with
  | zero =>
    -- the month begins after the range
    refine ⟨[], fun turns _ => ?_, List.Pairwise.nil, by simp, fun d => ?_⟩
    · cases turns with
      | zero => rfl
      | succ turns =>
        rw [monthSpans, h1, Option.bind_eq_bind, Option.bind_some, if_neg, Option.pure_def]
        rw [hfirst]
        omega
    · constructor
      · rintro ⟨s, hs, -⟩
        cases hs
      · rintro ⟨hw, hd⟩
        have hle : ¬ monthNumber w.last < monthNumber d := fun hlt =>
          absurd hw.2 (not_le.mpr (lt_of_monthNumber_lt hlt))
        omega
  | succ left ih =>
    obtain ⟨next, hnext⟩ : ∃ next : Nat × Nat,
        next = if month = 12 then (year + 1, 1) else (year, month + 1) := ⟨_, rfl⟩
    have hnumber : next.1 * 12 + next.2 = year * 12 + month + 1 := by
      rw [hnext]
      split <;> dsimp only <;> omega
    have hrange : 1 ≤ next.1 ∧ 1 ≤ next.2 ∧ next.2 ≤ 12 := by
      rw [hnext]
      split <;> dsimp only <;> omega
    obtain ⟨d3, d4, h3, h4, hfirst', hdays'⟩ :=
      month_of hrange.1 (by omega) hrange.2.1 hrange.2.2
    obtain ⟨spans, hrun, hslices⟩ :=
      ih hrange.1 hrange.2.1 hrange.2.2 (by omega) d3 d4 h3 h4 hfirst' hdays'
    rw [hnumber] at hslices
    refine ⟨(w.clip d1 d2).toList ++ spans, fun turns hturns => ?_, hslices.cons hdays⟩
    cases turns with
    | zero => omega
    | succ turns =>
      have hcur : d1 ≤ w.last := by
        rw [hfirst]
        omega
      rw [monthSpans, h1, Option.bind_eq_bind, Option.bind_some, if_pos hcur]
      dsimp only
      rw [← hnext, h3, h2, hrun turns (by omega)]
      rfl

/-- The months of the range. -/
def months (w : Span) : Nat := monthNumber w.last + 1 - monthNumber w.first

/-- For each range that ends before the last month there is, the loop ends after as many turns as
the range has months, and its intervals partition the range. -/
theorem calendar_slices_partition {ds de : Date} (h : ds ≤ de)
    (hlate : de.year < 9999 ∨ de.month < 12) :
    ∃ spans, calendarMonthDatetimeSlices ⟨ds, de, h⟩ = some (spans.map Span.text) ∧
      (∀ turns, months ⟨ds, de, h⟩ ≤ turns →
        monthSpans ⟨ds, de, h⟩ turns ds.year ds.month = some spans) ∧
      spans.Pairwise (fun s t => s.last < t.first) ∧ spans.Pairwise Span.Apart ∧
      (∀ s ∈ spans, s.first.year = s.last.year ∧ s.first.month = s.last.month) ∧
      ∀ d, Selects spans d ↔ ds ≤ d ∧ d ≤ de := by
  have hyear := de.valid.year_le
  have hmonth := de.valid.month_le
  have hle : monthNumber ds ≤ monthNumber de := by
    by_contra hlt
    exact absurd h (not_le.mpr (lt_of_monthNumber_lt (not_le.mp hlt)))
  obtain ⟨spans, hrun, hslices⟩ := monthSpans_spec ⟨ds, de, h⟩ (by
      unfold monthNumber
      dsimp only
      omega) (months ⟨ds, de, h⟩) ds.valid.year_pos ds.valid.month_pos ds.valid.month_le (by
      unfold months
      dsimp only
      unfold monthNumber at hle ⊢
      omega)
  refine ⟨spans, ?_, hrun, hslices.increasing, ?_,
    fun s hs => monthNumber_inj (hslices.oneMonth s hs), fun d => ?_⟩
  · unfold calendarMonthDatetimeSlices calendarMonthSpans
    have hall : monthSpans ⟨ds, de, h⟩ (de.year * 12 + de.month + 1 - (ds.year * 12 + ds.month))
        ds.year ds.month = some spans := hrun _ (Nat.le_refl _)
    rw [hall]
    rfl
  · refine hslices.increasing.imp fun {s t} hlt d hs ht => ?_
    exact absurd (hs.2.trans_lt hlt) (not_lt.mpr ht.1)
  · rw [hslices.days]
    refine ⟨fun hd => hd.1, fun hd => ⟨hd, ?_⟩⟩
    by_contra hlt
    exact absurd hd.1 (not_le.mpr (lt_of_monthNumber_lt (not_le.mp hlt)))

/-- A winter with its leap day. -/
theorem calendar_slices_partition_winter :
    ∃ spans, calendarMonthDatetimeSlices ⟨firstDecember, leapDay, by decide⟩ =
        some (spans.map Span.text) ∧
      ∀ d, Selects spans d ↔ firstDecember ≤ d ∧ d ≤ leapDay := by
  obtain ⟨spans, htexts, -, -, -, -, hdays⟩ :=
    @calendar_slices_partition firstDecember leapDay (by decide) (by decide)
  exact ⟨spans, htexts, hdays⟩

end Mosaic
end Geofastmap
