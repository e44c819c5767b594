import Mathlib.Data.Option.Basic
import Geofastmap.Import.Json

/-!
# Geofastmap.Queue.Fields

Payloads of a queue are written as JSON objects and read back. A member is written only when its
value is given; what is read for a missing member is `null`.

`lookup_written` finds a member among those that were written, and each reader undoes its writer.
-/

namespace Geofastmap
namespace Queue

open Import

abbrev Dict := List (Text × Json)

/-- `out[key] = value` for one field after the other; `none` writes nothing. -/
def written (fields : List (String × Option Json)) : Dict :=
  fields.filterMap fun f => f.2.map (f.1.toList, ·)

def lookup (d : Dict) (key : String) : Option Json := d.lookup key.toList

/-- `d.get(key)`. -/
def get (d : Dict) (key : String) : Json := (lookup d key).getD .null

/-- `d[key]`. -/
def item (d : Dict) (key : String) : Except Raised Json :=
  match lookup d key with
  | some value => .ok value
  | none => .error ("KeyError".toList, key.toList)

/-- The value that is written under a key. -/
def find (key : String) : List (String × Option Json) → Option Json
  | [] => none
  | (key', value) :: fields =>
    if key' = key then value.or (find key fields) else find key fields

@[simp] theorem lookup_written (fields : List (String × Option Json)) (key : String) :
    lookup (written fields) key = find key fields := by
  unfold lookup written
  induction fields with
  | nil => rfl
  | cons f fields ih =>
    obtain ⟨key', value⟩ := f
    rw [find, List.filterMap_cons]
    cases value with
    | none => simpa using ih
    | some value =>
      by_cases h : key' = key
      · subst h
        simp
      · have hne : (key.toList == key'.toList) = false := by
          simpa [String.toList_inj] using Ne.symm h
        simp only [Option.map_some, List.lookup_cons, hne, if_neg h]
        exact ih

/-- An optional value that is given: not `None`, and not empty. -/
def given {α : Type} : Option (List α) → Option (List α)
  | some (x :: xs) => some (x :: xs)
  | _ => none

@[simp] theorem given_given {α : Type} (xs : Option (List α)) : given (given xs) = given xs := by
  rcases xs with _ | _ | ⟨x, xs⟩ <;> rfl

/-! ## Values -/

/-- What has another type than its field. Python would keep it. -/
def otherType : Raised := ("TypeError".toList, [])

def readStr : Json → Except Raised Text
  | .str s => .ok s
  | _ => .error otherType

def readDict : Json → Except Raised Dict
  | .obj d => .ok d
  | _ => .error otherType

def readList {α : Type} (read : Json → Except Raised α) : Json → Except Raised (List α)
  | .arr items => items.mapM read
  | _ => .error otherType

/-- A value that may be `None`. -/
def readOption {α : Type} (read : Json → Except Raised α) : Json → Except Raised (Option α)
  | .null => .ok none
  | x => (read x).map some

/-- An integer as Python prints it. -/
def ofInt (n : Int) : Json :=
  .num (if n < 0 then '-' :: Sql.digits n.natAbs else Sql.digits n.natAbs)

/-- `int(x)` of an integer. -/
def readInt : Json → Except Raised Int
  | .num ('-' :: ds) => .ok (-(Nat.ofDigitChars 10 ds 0 : Int))
  | .num ds => .ok (Nat.ofDigitChars 10 ds 0 : Int)
  | .bool b => .ok (if b then 1 else 0)
  | _ => .error otherType

/-- The flag `queue_compute_tiles` of a bulk import. -/
def readFlag : Json → Bool
  | .bool b => b
  | .str s => !(["false", "0", "no", ""].any fun no => Sql.lower s == no.toList)
  | .num text => !(text == "0".toList)
  | _ => true

def ofStrs (xs : List Text) : Json := .arr (xs.map .str)

@[simp] theorem readStr_str (s : Text) : readStr (.str s) = .ok s := rfl

@[simp] theorem readDict_obj (d : Dict) : readDict (.obj d) = .ok d := rfl

@[simp] theorem readOption_null {α : Type} (read : Json → Except Raised α) :
    readOption read .null = .ok none := rfl

@[simp] theorem readOption_str (s : Text) : readOption readStr (.str s) = .ok (some s) := rfl

@[simp] theorem readOption_obj {α : Type} (read : Json → Except Raised α) (d : Dict) :
    readOption read (.obj d) = (read (.obj d)).map some := rfl

@[simp] theorem readList_strs (xs : List Text) : readList readStr (ofStrs xs) = .ok xs := by
  unfold readList ofStrs
  induction xs with
  | nil => rfl
  | cons x xs ih =>
    simp only at ih
    simp only [List.map_cons, List.mapM_cons, readStr_str, ih]
    rfl

@[simp] theorem readOption_strs (xs : List Text) :
    readOption (readList readStr) (ofStrs xs) = .ok (some xs) := by
  rw [ofStrs, readOption, ← ofStrs, readList_strs]
  · rfl
  · simp

theorem digits_ne_minus (n : Nat) (ds : Text) : Sql.digits n ≠ '-' :: ds := by
  intro h
  have hdigit := Nat.isDigit_of_mem_toDigits (b := 10) (by omega) (by omega)
    (show '-' ∈ Sql.digits n by rw [h]; simp)
  revert hdigit
  decide

@[simp] theorem readInt_ofInt (n : Int) : readInt (ofInt n) = .ok n := by
  unfold ofInt
  split
  · rw [readInt, Sql.digits, Nat.ofDigitChars_ten_toDigits]
    congr 1
    omega
  · rw [readInt]
    · rw [Sql.digits, Nat.ofDigitChars_ten_toDigits]
      congr 1
      omega
    · exact digits_ne_minus _

@[simp] theorem readOption_ofInt (n : Int) : readOption readInt (ofInt n) = .ok (some n) := by
  rw [readOption]
  · rw [readInt_ofInt]
    rfl
  · simp [ofInt]

/-- The text of an integer has no fraction, so of the texts of zero it is only `0`. -/
theorem ofInt_falsy {n : Int} (h : (ofInt n).truthy = false) : n = 0 := by
  have hread := readInt_ofInt n
  unfold ofInt at h hread
  generalize ht : (if n < 0 then '-' :: Sql.digits n.natAbs else Sql.digits n.natAbs) = text at h hread
  have hdot : '.' ∉ text := by
    have hdigits : '.' ∉ Sql.digits n.natAbs := by
      intro hmem
      have hdigit := Nat.isDigit_of_mem_toDigits (b := 10) (by omega) (by omega) hmem
      revert hdigit
      decide
    rw [← ht]
    split
    · rw [List.mem_cons]
      rintro (hminus | hmem)
      · revert hminus
        decide
      · exact hdigits hmem
    · exact hdigits
  simp only [Json.truthy, Bool.not_eq_false', List.any_cons, List.any_nil, Bool.or_false,
    Bool.or_eq_true, beq_iff_eq] at h
  rcases h with rfl | rfl | rfl
  · have hzero : readInt (.num "0".toList) = .ok 0 := by decide
    exact Except.ok.inj (hread.symm.trans hzero)
  · exact absurd (by decide) hdot
  · exact absurd (by decide) hdot

/-! ## Optional values -/

@[simp] theorem readOption_map_int (n : Option Int) :
    readOption readInt ((n.map ofInt).getD .null) = .ok n := by
  cases n <;> simp

@[simp] theorem readOption_map_str (s : Option Text) :
    readOption readStr ((s.map .str).getD .null) = .ok s := by
  cases s <;> simp

@[simp] theorem readOption_map_strs (xs : Option (List Text)) :
    readOption (readList readStr) ((xs.map ofStrs).getD .null) = .ok xs := by
  cases xs <;> simp

@[simp] theorem readOption_map_dict (d : Option Dict) :
    readOption readDict ((d.map .obj).getD .null) = .ok d := by
  cases d <;> rfl

end Queue
end Geofastmap
