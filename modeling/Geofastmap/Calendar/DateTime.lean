import Geofastmap.Calendar.Date

/-!
# Geofastmap.Calendar.DateTime

Points in time as Python's `datetime` holds them, to the microsecond, and their texts.

`fromisoformat` reads the texts that `isoformat` writes, with or without the offset of UTC, and
`fromisoformat_isoformat` says that it reads them back.
-/

namespace Geofastmap
namespace Calendar

@[ext]
structure DateTime where
  date : Date
  hour : Nat
  minute : Nat
  second : Nat
  microsecond : Nat
  hour_lt : hour < 24
  minute_lt : minute < 60
  second_lt : second < 60
  microsecond_lt : microsecond < 1000000

namespace DateTime

/-- `datetime.combine(date, time(hour, minute, second, microsecond))`. -/
def of (date : Date) (hour minute second microsecond : Nat) : Option DateTime :=
  if h : hour < 24 ∧ minute < 60 ∧ second < 60 ∧ microsecond < 1000000 then
    some ⟨date, hour, minute, second, microsecond, h.1, h.2.1, h.2.2.1, h.2.2.2⟩
  else none

/-- Earlier points in time have smaller keys. -/
def key (t : DateTime) : Nat :=
  (((t.date.key * 24 + t.hour) * 60 + t.minute) * 60 + t.second) * 1000000 + t.microsecond

def digits2 (n : Nat) : Text := [Date.digit (n / 10), Date.digit (n % 10)]

def digits6 (n : Nat) : Text :=
  [Date.digit (n / 100000), Date.digit (n / 10000 % 10), Date.digit (n / 1000 % 10),
    Date.digit (n / 100 % 10), Date.digit (n / 10 % 10), Date.digit (n % 10)]

/-- `t.isoformat()` without an offset; a whole second has no fraction. -/
def isoformat (t : DateTime) : Text :=
  t.date.isoformat ++ 'T' :: digits2 t.hour ++ ':' :: digits2 t.minute ++ ':' :: digits2 t.second ++
    if t.microsecond = 0 then [] else '.' :: digits6 t.microsecond

/-! ## Reading -/

def digitValue (ch : Char) : Option Nat := if ch.isDigit then some (ch.toNat - 48) else none

def number (s : Text) : Option Nat :=
  s.foldlM (fun n ch => (digitValue ch).map fun d => 10 * n + d) 0

/-- A point in time, and whether it has the offset of UTC. -/
structure Stamp where
  time : DateTime
  aware : Bool

/-- The offset behind the time. -/
def offset : Text → Option Bool
  | [] => some false
  | ['+', '0', '0', ':', '0', '0'] => some true
  | _ => none

/-- The fraction of a second and the offset. -/
def fraction : Text → Option (Nat × Bool)
  | '.' :: a :: b :: c :: d :: e :: f :: rest => do
    let n ← number [a, b, c, d, e, f]
    let aware ← offset rest
    return (n, aware)
  | rest => (offset rest).map (0, ·)

def fromisoformat : Text → Option Stamp
  | y1 :: y2 :: y3 :: y4 :: '-' :: m1 :: m2 :: '-' :: d1 :: d2 :: _ :: h1 :: h2 :: ':' :: n1 :: n2 ::
      ':' :: s1 :: s2 :: rest => do
    let date ← Date.of (← number [y1, y2, y3, y4]) (← number [m1, m2]) (← number [d1, d2])
    let (microsecond, aware) ← fraction rest
    let time ← of date (← number [h1, h2]) (← number [n1, n2]) (← number [s1, s2]) microsecond
    return ⟨time, aware⟩
  | _ => none

/-- `t.isoformat()`. -/
def Stamp.isoformat (t : Stamp) : Text :=
  t.time.isoformat ++ if t.aware then "+00:00".toList else []

theorem digitValue_digit {n : Nat} (h : n < 10) : digitValue (Date.digit n) = some n := by
  revert n
  decide

theorem number_digits2 {n : Nat} (h : n < 100) : number (digits2 n) = some n := by
  have h1 : digitValue (Date.digit (n / 10)) = some (n / 10) := digitValue_digit (by omega)
  have h2 : digitValue (Date.digit (n % 10)) = some (n % 10) := digitValue_digit (by omega)
  simp only [number, digits2, List.foldlM_cons, List.foldlM_nil, h1, h2, Option.map_some,
    Option.bind_eq_bind, Option.bind_some, Option.pure_def, Option.some.injEq]
  omega

theorem number_year {n : Nat} (h : n ≤ 9999) :
    number [Date.digit (n / 1000), Date.digit (n / 100 % 10), Date.digit (n / 10 % 10),
      Date.digit (n % 10)] = some n := by
  have h1 : digitValue (Date.digit (n / 1000)) = some (n / 1000) := digitValue_digit (by omega)
  have h2 : digitValue (Date.digit (n / 100 % 10)) = some (n / 100 % 10) :=
    digitValue_digit (by omega)
  have h3 : digitValue (Date.digit (n / 10 % 10)) = some (n / 10 % 10) :=
    digitValue_digit (by omega)
  have h4 : digitValue (Date.digit (n % 10)) = some (n % 10) := digitValue_digit (by omega)
  simp only [number, List.foldlM_cons, List.foldlM_nil, h1, h2, h3, h4, Option.map_some,
    Option.bind_eq_bind, Option.bind_some, Option.pure_def, Option.some.injEq]
  omega

theorem number_digits6 {n : Nat} (h : n < 1000000) : number (digits6 n) = some n := by
  have h1 : digitValue (Date.digit (n / 100000)) = some (n / 100000) := digitValue_digit (by omega)
  have h2 : digitValue (Date.digit (n / 10000 % 10)) = some (n / 10000 % 10) :=
    digitValue_digit (by omega)
  have h3 : digitValue (Date.digit (n / 1000 % 10)) = some (n / 1000 % 10) :=
    digitValue_digit (by omega)
  have h4 : digitValue (Date.digit (n / 100 % 10)) = some (n / 100 % 10) :=
    digitValue_digit (by omega)
  have h5 : digitValue (Date.digit (n / 10 % 10)) = some (n / 10 % 10) :=
    digitValue_digit (by omega)
  have h6 : digitValue (Date.digit (n % 10)) = some (n % 10) := digitValue_digit (by omega)
  simp only [number, digits6, List.foldlM_cons, List.foldlM_nil, h1, h2, h3, h4, h5, h6,
    Option.map_some, Option.bind_eq_bind, Option.bind_some, Option.pure_def, Option.some.injEq]
  omega

theorem offset_text (aware : Bool) :
    offset (if aware then "+00:00".toList else []) = some aware := by
  cases aware <;> rfl

theorem fraction_text (t : DateTime) (aware : Bool) :
    fraction ((if t.microsecond = 0 then [] else '.' :: digits6 t.microsecond) ++
      if aware then "+00:00".toList else []) = some (t.microsecond, aware) := by
  split
  · rename_i hzero
    rw [hzero]
    cases aware <;> rfl
  · have hnumber := number_digits6 t.microsecond_lt
    simp only [digits6] at hnumber
    simp only [digits6, List.cons_append, List.nil_append, fraction, hnumber, offset_text]
    rfl

theorem fromisoformat_isoformat (t : Stamp) : fromisoformat t.isoformat = some t := by
  obtain ⟨t, aware⟩ := t
  have hdate := t.date.valid
  have hday := t.date.day_le
  have hyear := number_year hdate.year_le
  have hmonth := number_digits2 (n := t.date.month) (by have := hdate.month_le; omega)
  have hd := number_digits2 (n := t.date.day) (by omega)
  have hhour := number_digits2 (n := t.hour) (by have := t.hour_lt; omega)
  have hminute := number_digits2 (n := t.minute) (by have := t.minute_lt; omega)
  have hsecond := number_digits2 (n := t.second) (by have := t.second_lt; omega)
  have hfraction := fraction_text t aware
  have hof : of t.date t.hour t.minute t.second t.microsecond = some t :=
    dif_pos ⟨t.hour_lt, t.minute_lt, t.second_lt, t.microsecond_lt⟩
  simp only [digits2] at hmonth hd hhour hminute hsecond
  simp only [Stamp.isoformat, isoformat, Date.isoformat, digits2, List.cons_append,
    List.nil_append, fromisoformat, hyear, hmonth, hd, hhour, hminute, hsecond,
    hfraction, Option.bind_eq_bind, Option.bind_some, Date.of_eq_some hdate, hof]
  rfl

end DateTime
end Calendar
end Geofastmap
