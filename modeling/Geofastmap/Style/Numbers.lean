import Mathlib.Data.List.Lex
import Mathlib.Data.Nat.Digits.Defs
import Mathlib.Data.Rat.Init
import Geofastmap.Mosaic.Mgrs

/-!
# Geofastmap.Style.Numbers

Numbers and their texts in Python: `int(s)` and `str(n)` with the limit on digits, and floats.

* `Floats`        : the finite floats with their exact values, and what the code relies on of
  `float(s)` and `str(x)`.
* `intOf_intText` : an integer is read back from its text.
-/

namespace Geofastmap
namespace Style

open Mosaic (decimalZeros)

/-! ## Integers -/

/-- `unicodedata.decimal`. -/
def digitValue (ch : Char) : Option Nat :=
  (decimalZeros.find? fun z => z ≤ ch.toNat && ch.toNat < z + 10).map (ch.toNat - ·)

/-- `sys.get_int_max_str_digits()`. -/
def maxStrDigits : Nat := 4300

/-- The digits of `int(s)`; one underscore may stand between two of them. -/
def natOf (s : Text) : Option Nat :=
  if (s.splitOn '_').any List.isEmpty then none
  else do
    let ds ← (s.splitOn '_').flatten.mapM digitValue
    if maxStrDigits < ds.length then none else some (ds.foldl (fun n d => 10 * n + d) 0)

/-- `int(s)`; `none` is a `ValueError`. -/
def intOf (s : Text) : Option Int :=
  match strip s with
  | '-' :: body => (natOf body).map fun n : Nat => -(n : Int)
  | '+' :: body => (natOf body).map fun n : Nat => (n : Int)
  | body => (natOf body).map fun n : Nat => (n : Int)

/-- An integer that is not too long for `str`. -/
def Printable (n : Int) : Prop := (Sql.digits n.natAbs).length ≤ maxStrDigits

instance (n : Int) : Decidable (Printable n) := inferInstanceAs (Decidable (_ ≤ _))

/-- `str(n)`; `none` is a `ValueError`. -/
def strInt (n : Int) : Option Text := if Printable n then some (Sql.intText n) else none

theorem strInt_eq_some {n : Int} {s : Text} : strInt n = some s ↔ Printable n ∧ Sql.intText n = s := by
  unfold strInt
  split
  · rename_i h
    rw [Option.some.injEq, and_iff_right h]
  · rename_i h
    exact iff_of_false (by simp) fun hs => h hs.1

theorem digitValue_digit {ch : Char} (h : ch.isDigit = true) :
    digitValue ch = some (ch.toNat - '0'.toNat) := by
  have hrange : 48 ≤ ch.toNat ∧ ch.toNat ≤ 57 := by
    simp only [Char.isDigit, Bool.and_eq_true, decide_eq_true_eq, ge_iff_le,
      UInt32.le_iff_toNat_le] at h
    exact h
  have hfirst : decimalZeros.find? (fun z => z ≤ ch.toNat && ch.toNat < z + 10) = some 48 := by
    refine List.find?_cons_of_pos ?_
    simp only [Bool.and_eq_true, decide_eq_true_eq]
    omega
  rw [digitValue, hfirst]
  rfl

theorem isDigit_digits {n : Nat} {ch : Char} (h : ch ∈ Sql.digits n) : ch.isDigit = true :=
  Nat.isDigit_of_mem_toDigits (by decide) (by decide) h

theorem mapM_digitValue (s : Text) (h : ∀ ch ∈ s, ch.isDigit = true) :
    s.mapM digitValue = some (s.map fun ch => ch.toNat - '0'.toNat) := by
  induction s with
  | nil => rfl
  | cons ch s ih =>
    rw [List.mapM_cons, digitValue_digit (h ch List.mem_cons_self),
      ih fun c hc => h c (List.mem_cons_of_mem _ hc)]
    rfl

theorem splitOn_digits (n : Nat) : (Sql.digits n).splitOn '_' = [Sql.digits n] := by
  refine List.splitOnP_eq_singleton fun ch hch => ?_
  rw [beq_eq_false_iff_ne]
  rintro rfl
  exact Nat.underscore_not_in_toDigits hch

theorem natOf_digits {n : Nat} (h : (Sql.digits n).length ≤ maxStrDigits) :
    natOf (Sql.digits n) = some n := by
  have hne : Sql.digits n ≠ [] := Nat.toDigits_ne_nil
  unfold natOf
  rw [splitOn_digits, if_neg (by simp [hne]), List.flatten_singleton,
    mapM_digitValue _ fun ch hch => isDigit_digits hch]
  simp only [Option.bind_eq_bind, Option.bind_some, List.length_map]
  rw [if_neg (by omega), List.foldl_map]
  refine congrArg some ?_
  rw [← Nat.ofDigitChars_eq_foldl]
  exact Nat.ofDigitChars_ten_toDigits

theorem digits_ne_nil (n : Nat) : Sql.digits n ≠ [] := Nat.toDigits_ne_nil

theorem isSpace_digit {ch : Char} (h : ch.isDigit = true) : isSpace ch = false := by
  refine Mosaic.isDecimal_isSpace ?_
  have hvalue := digitValue_digit h
  rw [digitValue, Option.map_eq_some_iff] at hvalue
  obtain ⟨z, hz, -⟩ := hvalue
  have hin := List.find?_some hz
  exact List.any_eq_true.mpr ⟨z, List.mem_of_find?_eq_some hz, hin⟩

theorem strip_intText (n : Int) : strip (Sql.intText n) = Sql.intText n := by
  refine strip_of_all fun ch hch => ?_
  unfold Sql.intText at hch
  split at hch
  · rcases List.mem_cons.mp hch with rfl | hch
    · decide
    · exact isSpace_digit (isDigit_digits hch)
  · exact isSpace_digit (isDigit_digits hch)

theorem intText_ne_nil (n : Int) : Sql.intText n ≠ [] := by
  unfold Sql.intText
  split
  · exact List.cons_ne_nil _ _
  · exact digits_ne_nil _

theorem intOf_intText {n : Int} (h : Printable n) : intOf (Sql.intText n) = some n := by
  rw [intOf, strip_intText]
  by_cases hneg : n < 0
  · have htext : Sql.intText n = '-' :: Sql.digits n.natAbs := if_pos hneg
    rw [htext]
    change (natOf (Sql.digits n.natAbs)).map (fun k : Nat => -(k : Int)) = some n
    rw [natOf_digits h, Option.map_some]
    exact congrArg some (by omega)
  · have htext : Sql.intText n = Sql.digits n.natAbs := if_neg hneg
    have hsign : ∀ ch body, Sql.digits n.natAbs = ch :: body → ch.isDigit = true :=
      fun ch body heq => isDigit_digits (heq ▸ List.mem_cons_self)
    rw [htext]
    split
    · rename_i body heq
      exact absurd (hsign _ body heq) (by decide)
    · rename_i body heq
      exact absurd (hsign _ body heq) (by decide)
    · rw [natOf_digits h, Option.map_some]
      exact congrArg some (by omega)

theorem natOf_eq_none {s : Text} (hline : ∀ ch ∈ s, ch ≠ '_') (hpoint : '.' ∈ s) :
    natOf s = none := by
  have hsplit : s.splitOn '_' = [s] :=
    List.splitOnP_eq_singleton fun ch hch => beq_eq_false_iff_ne.mpr (hline ch hch)
  have hnone : ∀ t : Text, '.' ∈ t → t.mapM digitValue = none := by
    intro t ht
    induction t with
    | nil => exact absurd ht List.not_mem_nil
    | cons ch t ih =>
      rw [List.mapM_cons]
      rcases List.mem_cons.mp ht with rfl | ht
      · have hvalue : digitValue '.' = none := by decide
        rw [hvalue]
        rfl
      · rw [ih ht]
        cases digitValue ch <;> rfl
  unfold natOf
  rw [hsplit, List.flatten_singleton, hnone s hpoint]
  split <;> rfl

theorem intOf_eq_none {s : Text} (hstrip : strip s = s) (hline : ∀ ch ∈ s, ch ≠ '_')
    (hpoint : '.' ∈ s) : intOf s = none := by
  have hbody : ∀ {sign : Char} {body : Text}, s = sign :: body → sign ≠ '.' →
      natOf body = none := by
    rintro sign body rfl hsign
    refine natOf_eq_none (fun ch hch => hline ch (List.mem_cons_of_mem _ hch)) ?_
    exact (List.mem_cons.mp hpoint).resolve_left (Ne.symm hsign)
  rw [intOf, hstrip]
  split
  · rw [hbody rfl (by decide)]
    rfl
  · rw [hbody rfl (by decide)]
    rfl
  · rw [natOf_eq_none hline hpoint]
    rfl

/-! ## Floats -/

/-- A float, finite or not. -/
inductive FloatValue (F : Type) where
  | finite (x : F)
  | inf (negative : Bool)
  | nan

/-- The finite floats, with what is documented of their texts. -/
structure Floats where
  Finite : Type
  /-- The number that a float is, which is exact. -/
  value : Finite → ℚ
  /-- `str(x)`. -/
  str : Finite → Text
  /-- `float(s)`; `none` is a `ValueError`. -/
  parse : Text → Option (FloatValue Finite)
  /-- `float(n)`; `none` is an `OverflowError`. -/
  ofInt : Int → Option Finite
  str_ne_nil : ∀ x, str x ≠ []
  str_strip : ∀ x, strip (str x) = str x
  /-- A float that is no integer has one text, which is read back as that float and has a point or
  an exponent. -/
  str_eq : ∀ x y, (value x).den ≠ 1 → value x = value y → str x = str y
  parse_str : ∀ x, parse (str x) = some (.finite x)
  intOf_str : ∀ x, intOf (str x) = none
  /-- The texts of an integer within the range of floats are short enough for `int(s)`. -/
  printable : ∀ x, (value x).den = 1 → Printable (value x).num
  /-- A text for NaN has no point and no exponent. -/
  parse_nan : ∀ s, parse s = some .nan → '.' ∉ s ∧ 'e' ∉ Sql.lower s

variable (fl : Floats)

/-- The number of a text: an integer, or a finite float. -/
def numberOf (s : Text) : Option ℚ :=
  match intOf s with
  | some n => some n
  | none =>
    match fl.parse s with
    | some (.finite x) => some (fl.value x)
    | _ => none

theorem numberOf_intText {n : Int} (h : Printable n) : numberOf fl (Sql.intText n) = some (n : ℚ) := by
  rw [numberOf, intOf_intText h]

theorem numberOf_str (x : fl.Finite) : numberOf fl (fl.str x) = some (fl.value x) := by
  rw [numberOf, fl.intOf_str, fl.parse_str]

/-! ## Whole floats -/

/-- The text of a whole float below the range of exponents. -/
def wholeText (n : Int) : Text := Sql.intText n ++ ".0".toList

/-- `float(s)` of a text that ends with `.0`. -/
def parseWhole (s : Text) : Option (FloatValue { n : Int // n.natAbs < 2 ^ 53 }) :=
  match s.reverse with
  | '0' :: '.' :: body =>
    match intOf body.reverse with
    | some n => if h : n.natAbs < 2 ^ 53 then some (.finite ⟨n, h⟩) else none
    | none => none
  | _ => none

theorem printable_of_lt {n : Int} (h : n.natAbs < 2 ^ 53) : Printable n := by
  have hlength := Nat.toDigits_length 10 n.natAbs 16 (by decide) (by omega)
  exact le_trans hlength (by decide)

theorem wholeText_ne (n : Int) {ch : Char} (h : ch ∈ wholeText n) :
    isSpace ch = false ∧ ch ≠ '_' := by
  have hdigit : ∀ {ch : Char} {k : Nat}, ch ∈ Sql.digits k →
      isSpace ch = false ∧ ch ≠ '_' := by
    intro ch k hch
    refine ⟨isSpace_digit (isDigit_digits hch), ?_⟩
    rintro rfl
    exact absurd (isDigit_digits hch) (by decide)
  rcases List.mem_append.mp h with h | h
  · unfold Sql.intText at h
    split at h
    · rcases List.mem_cons.mp h with rfl | h
      · decide
      · exact hdigit h
    · exact hdigit h
  · have htwo : ch = '.' ∨ ch = '0' := by simpa using h
    rcases htwo with rfl | rfl
    · decide
    · decide

/-- Floats that are whole numbers below 2^53. -/
def wholeFloats : Floats where
  Finite := { n : Int // n.natAbs < 2 ^ 53 }
  value x := x.1
  str x := wholeText x.1
  parse := parseWhole
  ofInt n := if h : n.natAbs < 2 ^ 53 then some ⟨n, h⟩ else none
  str_ne_nil x := List.append_ne_nil_of_left_ne_nil (intText_ne_nil _) _
  str_strip x := strip_of_all fun ch hch => (wholeText_ne _ hch).1
  str_eq x y hden := absurd (Rat.den_intCast _) hden
  parse_str x := by
    have hrev : (wholeText x.1).reverse = '0' :: '.' :: (Sql.intText x.1).reverse := by
      rw [wholeText, List.reverse_append]
      rfl
    simp only [parseWhole, hrev, List.reverse_reverse, intOf_intText (printable_of_lt x.2)]
    exact dif_pos x.2
  intOf_str x := by
    have hpoint : '.' ∈ wholeText x.1 := List.mem_append_right _ (by decide)
    exact intOf_eq_none (strip_of_all fun ch hch => (wholeText_ne _ hch).1)
      (fun ch hch => (wholeText_ne _ hch).2) hpoint
  printable x _ := printable_of_lt x.2
  parse_nan s h := by
    unfold parseWhole at h
    split at h
    · split at h
      · split at h <;> cases h
      · cases h
    · cases h

end Style
end Geofastmap
