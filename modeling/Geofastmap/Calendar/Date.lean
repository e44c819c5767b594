import Mathlib.Order.MinMax
import Mathlib.Tactic.Tauto
import Geofastmap.Sql.Text

/-!
# Geofastmap.Calendar.Date

Days of the Gregorian calendar, as `datetime.date` has them, and spans of days.

A `Date` is a day that exists and a `Span` has at least one day, so no statement about them needs to
say so. Days are compared as (year, month, day): `Date.le_iff`.
-/

namespace Geofastmap
namespace Calendar

/-! ## Days -/

def isLeap (year : Nat) : Bool := year % 4 == 0 && (year % 100 != 0 || year % 400 == 0)

def daysInMonth (year month : Nat) : Nat :=
  if month = 2 then (if isLeap year then 29 else 28)
  else if month = 4 ∨ month = 6 ∨ month = 9 ∨ month = 11 then 30
  else 31

theorem daysInMonth_le (year month : Nat) : daysInMonth year month ≤ 31 := by
  unfold daysInMonth
  split_ifs <;> omega

/-- Whether `date(year, month, day)` does not raise. -/
structure IsDate (year month day : Nat) : Prop where
  year_pos : 1 ≤ year
  year_le : year ≤ 9999
  month_pos : 1 ≤ month
  month_le : month ≤ 12
  day_pos : 1 ≤ day
  day_le : day ≤ daysInMonth year month

instance (year month day : Nat) : Decidable (IsDate year month day) :=
  decidable_of_iff (1 ≤ year ∧ year ≤ 9999 ∧ 1 ≤ month ∧ month ≤ 12 ∧ 1 ≤ day ∧
      day ≤ daysInMonth year month)
    ⟨fun ⟨h1, h2, h3, h4, h5, h6⟩ => ⟨h1, h2, h3, h4, h5, h6⟩,
      fun ⟨h1, h2, h3, h4, h5, h6⟩ => ⟨h1, h2, h3, h4, h5, h6⟩⟩

@[ext]
structure Date where
  year : Nat
  month : Nat
  day : Nat
  valid : IsDate year month day

/-- `date(year, month, day)`. -/
def Date.of (year month day : Nat) : Option Date :=
  if h : IsDate year month day then some ⟨year, month, day, h⟩ else none

theorem Date.of_eq_some {year month day : Nat} (h : IsDate year month day) :
    Date.of year month day = some ⟨year, month, day, h⟩ := dif_pos h

namespace Date

/-- `d.toordinal()`. -/
def toordinal (d : Date) : Nat :=
  let y := d.year - 1
  y * 365 + y / 4 - y / 100 + y / 400 +
    ((List.range' 1 (d.month - 1)).map (daysInMonth d.year)).sum + d.day

theorem day_le (d : Date) : d.day ≤ 31 := Nat.le_trans d.valid.day_le (daysInMonth_le ..)

/-- The day before, unless there is none. -/
def prev (d : Date) : Option Date :=
  (Date.of d.year d.month (d.day - 1)).or
    (if 1 < d.month then Date.of d.year (d.month - 1) (daysInMonth d.year (d.month - 1))
    else Date.of (d.year - 1) 12 31)

/-- The day after. -/
def next (d : Date) : Option Date :=
  (Date.of d.year d.month (d.day + 1)).or
    (if d.month < 12 then Date.of d.year (d.month + 1) 1 else Date.of (d.year + 1) 1 1)

/-- `d - timedelta(days=n)`. -/
def minusDays (d : Date) : Nat → Option Date
  | 0 => some d
  | n + 1 => (minusDays d n).bind prev

/-- `d + timedelta(days=n)`. -/
def plusDays (d : Date) : Nat → Option Date
  | 0 => some d
  | n + 1 => (plusDays d n).bind next

/-- A number for each day, in their order. -/
def key (d : Date) : Nat := (d.year * 16 + d.month) * 32 + d.day

theorem key_injective : Function.Injective key := by
  intro a b h
  have ha := a.day_le
  have hb := b.day_le
  have ham := a.valid.month_le
  have hbm := b.valid.month_le
  unfold key at h
  have hday : a.day = b.day := by omega
  have hmonth : a.month = b.month := by omega
  have hyear : a.year = b.year := by omega
  exact Date.ext hyear hmonth hday

instance : LinearOrder Date := LinearOrder.lift' key key_injective

theorem le_def {a b : Date} : a ≤ b ↔ a.key ≤ b.key := Iff.rfl

theorem le_iff {a b : Date} : a ≤ b ↔ a.year < b.year ∨ (a.year = b.year ∧
    (a.month < b.month ∨ (a.month = b.month ∧ a.day ≤ b.day))) := by
  have ha := a.day_le
  have hb := b.day_le
  have ham := a.valid.month_le
  have hbm := b.valid.month_le
  rw [le_def, key, key]
  omega

/-- The days from the first day of a month to the last day of a month of the same year. -/
theorem between_months {d1 d2 : Date} (hyear : d1.year = d2.year) (hfirst : d1.day = 1)
    (hlast : d2.day = daysInMonth d2.year d2.month) (d : Date) :
    d1 ≤ d ∧ d ≤ d2 ↔ d.year = d1.year ∧ d1.month ≤ d.month ∧ d.month ≤ d2.month := by
  have hpos := d.valid.day_pos
  have hday := d.valid.day_le
  rw [le_iff, le_iff, hyear, hfirst, hlast]
  constructor
  · omega
  · rintro ⟨hy, h1, h2⟩
    refine ⟨by omega, Or.inr ⟨hy, ?_⟩⟩
    rcases Nat.lt_or_eq_of_le h2 with hlt | heq
    · exact Or.inl hlt
    · rw [hy, heq] at hday
      exact Or.inr ⟨heq, hday⟩

/-! ## `isoformat` -/

def digit (n : Nat) : Char := Nat.digitChar n

theorem digit_injective : ∀ m < 10, ∀ n < 10, digit m = digit n → m = n := by decide

/-- `d.isoformat()`. -/
def isoformat (d : Date) : Text :=
  [digit (d.year / 1000), digit (d.year / 100 % 10), digit (d.year / 10 % 10), digit (d.year % 10),
    '-', digit (d.month / 10), digit (d.month % 10), '-', digit (d.day / 10), digit (d.day % 10)]

theorem isoformat_injective : Function.Injective isoformat := by
  intro a b h
  have hay := a.valid.year_le
  have hby := b.valid.year_le
  have ham := a.valid.month_le
  have hbm := b.valid.month_le
  have had := a.day_le
  have hbd := b.day_le
  unfold isoformat at h
  simp only [List.cons.injEq, true_and, and_true] at h
  obtain ⟨h1, h2, h3, h4, h5, h6, h7, h8⟩ := h
  have e1 := digit_injective _ (by omega) _ (by omega) h1
  have e2 := digit_injective _ (by omega) _ (by omega) h2
  have e3 := digit_injective _ (by omega) _ (by omega) h3
  have e4 := digit_injective _ (by omega) _ (by omega) h4
  have e5 := digit_injective _ (by omega) _ (by omega) h5
  have e6 := digit_injective _ (by omega) _ (by omega) h6
  have e7 := digit_injective _ (by omega) _ (by omega) h7
  have e8 := digit_injective _ (by omega) _ (by omega) h8
  exact Date.ext (by omega) (by omega) (by omega)

end Date

/-! ## Spans -/

/-- The days from the first to the last one, both included. -/
structure Span where
  first : Date
  last : Date
  le : first ≤ last

namespace Span

instance : Membership Date Span := ⟨fun s d => s.first ≤ d ∧ d ≤ s.last⟩

theorem mem_def {s : Span} {d : Date} : d ∈ s ↔ s.first ≤ d ∧ d ≤ s.last := Iff.rfl

theorem first_mem (s : Span) : s.first ∈ s := ⟨le_refl _, s.le⟩

theorem last_mem (s : Span) : s.last ∈ s := ⟨s.le, le_refl _⟩

/-- The spans have no day in common. -/
def Apart (s t : Span) : Prop := ∀ d, d ∈ s → d ∉ t

theorem Apart.symm {s t : Span} (h : s.Apart t) : t.Apart s := fun d ht hs => h d hs ht

/-- The days of the span from `d1` to `d2`. -/
def clip (w : Span) (d1 d2 : Date) : Option Span :=
  if h : max d1 w.first ≤ min d2 w.last then some ⟨max d1 w.first, min d2 w.last, h⟩ else none

theorem clip_some {w s : Span} {d1 d2 : Date} (h : w.clip d1 d2 = some s) (d : Date) :
    d ∈ s ↔ d ∈ w ∧ d1 ≤ d ∧ d ≤ d2 := by
  unfold clip at h
  split at h
  · cases h
    simp only [mem_def, max_le_iff, le_min_iff]
    tauto
  · cases h

theorem clip_mem (w : Span) (d1 d2 d : Date) :
    (∃ s ∈ w.clip d1 d2, d ∈ s) ↔ d ∈ w ∧ d1 ≤ d ∧ d ≤ d2 := by
  constructor
  · rintro ⟨s, hs, hd⟩
    exact (clip_some hs d).mp hd
  · rintro ⟨hw, h1, h2⟩
    have hroom : max d1 w.first ≤ min d2 w.last :=
      le_min (max_le (h1.trans h2) (hw.1.trans h2)) (max_le (h1.trans hw.2) w.le)
    exact ⟨_, dif_pos hroom, max_le h1 hw.1, le_min h2 hw.2⟩

/-- The STAC interval of a span. -/
def text (s : Span) : Text :=
  s.first.isoformat ++ "T00:00:00Z/".toList ++ s.last.isoformat ++ "T23:59:59Z".toList

theorem text_injective : Function.Injective text := by
  intro s t h
  unfold text at h
  simp only [List.append_assoc] at h
  obtain ⟨hfirst, h⟩ := List.append_inj h rfl
  obtain ⟨-, h⟩ := List.append_inj h rfl
  obtain ⟨hlast, -⟩ := List.append_inj h rfl
  obtain ⟨sf, sl, sle⟩ := s
  obtain ⟨tf, tl, tle⟩ := t
  obtain rfl : sf = tf := Date.isoformat_injective hfirst
  obtain rfl : sl = tl := Date.isoformat_injective hlast
  rfl

end Span

end Calendar
end Geofastmap
