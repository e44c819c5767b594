import Mathlib.Algebra.GroupWithZero.Nat
import Mathlib.Data.List.Basic
import Mathlib.Data.List.Infix

/-!
# Geofastmap.Sql.Text

Texts as lists of characters, with the string operations and the SQL notions that programs around
a database use: lower case, removal of blanks, `LIKE` patterns, and quoted literals in which each
quote is doubled.

`literal_append_inj` is the fact behind every comparison of rendered SQL: a literal followed by
something that does not begin with a quote can be read back, value and rest.
-/

namespace Geofastmap

abbrev Text := List Char

instance : LawfulBEq Text := inferInstance

/-! ## White space -/

/-- `str.isspace`. -/
def isSpace (ch : Char) : Bool :=
  let n := ch.toNat
  (9 ≤ n && n ≤ 13) || (28 ≤ n && n ≤ 32) || n == 0x85 || n == 0xA0 || n == 0x1680 ||
    (0x2000 ≤ n && n ≤ 0x200A) || n == 0x2028 || n == 0x2029 || n == 0x202F || n == 0x205F ||
    n == 0x3000

/-- `str.strip()`. -/
def strip (s : Text) : Text := ((s.dropWhile isSpace).reverse.dropWhile isSpace).reverse

/-- `bytes.isspace`. -/
def isByteSpace (ch : Char) : Bool := ch == ' ' || (9 ≤ ch.toNat && ch.toNat ≤ 13)

/-- `bytes.strip()`. -/
def stripBytes (s : Text) : Text :=
  ((s.dropWhile isByteSpace).reverse.dropWhile isByteSpace).reverse

/-- A text without white space at its ends. -/
theorem strip_of_ends {s : Text} (hhead : ∀ ch ∈ s.head?, isSpace ch = false)
    (hlast : ∀ ch ∈ s.getLast?, isSpace ch = false) : strip s = s := by
  have hdrop : ∀ t : Text, (∀ ch ∈ t.head?, isSpace ch = false) →
      t.dropWhile isSpace = t := by
    intro t ht
    cases t with
    | nil => rfl
    | cons ch t => exact List.dropWhile_cons_of_neg (by simp [ht ch rfl])
  rw [strip, hdrop s hhead, hdrop s.reverse (by simpa using hlast), List.reverse_reverse]

/-- A text with no white space at all. -/
theorem strip_of_all {s : Text} (h : ∀ ch ∈ s, isSpace ch = false) : strip s = s :=
  strip_of_ends (fun ch hch => h ch (List.mem_of_mem_head? hch))
    fun ch hch => h ch (List.mem_of_getLast? hch)

theorem strip_strip (s : Text) : strip (strip s) = strip s := by
  have hends : ∀ t : Text, ∀ ch ∈ (t.dropWhile isSpace).head?, isSpace ch = false := by
    intro t ch hch
    have hhead := List.head?_dropWhile_not isSpace t
    rw [hch] at hhead
    simpa using hhead
  refine strip_of_ends (fun ch hch => ?_) (fun ch hch => ?_)
  · -- what is cut off at the end leaves the first character
    have hprefix : strip s <+: s.dropWhile isSpace := by
      have hsuffix := List.dropWhile_suffix (l := (s.dropWhile isSpace).reverse) isSpace
      simpa [strip] using List.reverse_prefix.mpr hsuffix
    obtain ⟨rest, hrest⟩ := hprefix
    refine hends s ch ?_
    rw [← hrest, List.head?_append, hch]
    rfl
  · refine hends (s.dropWhile isSpace).reverse ch ?_
    rw [strip, List.getLast?_reverse] at hch
    exact hch

namespace Sql

/-- `s.lower()`, as far as a search for ASCII words can see it: the two letters outside ASCII
whose lower case has an ASCII letter are the Kelvin sign and the dotted capital I. -/
def lower (s : Text) : Text :=
  s.flatMap fun ch =>
    if ch = '\u212A' then ['k']
    else if ch = '\u0130' then ['i', '\u0307']
    else [ch.toLower]

/-- `needle in s`. -/
def contains (needle s : Text) : Bool := decide (needle <:+: s)

/-- `s.startswith(p)`. -/
def startsWith (p s : Text) : Bool := p.isPrefixOf s

/-- `s.strip(ch)` for one character. -/
def strip (ch : Char) (s : Text) : Text :=
  ((s.dropWhile (· == ch)).reverse.dropWhile (· == ch)).reverse

/-- `s.replace(" ", "")`. -/
def despace (s : Text) : Text := s.filter (· != ' ')

/-- `s.replace("'", "''")`. -/
def doubleQuotes (s : Text) : Text :=
  s.flatMap fun ch => if ch = '\'' then ['\'', '\''] else [ch]

/-- A quoted SQL literal. -/
def literal (s : Text) : Text := '\'' :: doubleQuotes s ++ ['\'']

/-- `s LIKE p`, without an escape character: `%` is any text, `_` any one character. -/
def like : Text → Text → Bool
  | [], s => s.isEmpty
  | '%' :: p, s => s.tails.any (like p)
  | '_' :: p, _ :: s => like p s
  | '_' :: _, [] => false
  | ch :: p, x :: s => ch == x && like p s
  | _ :: _, [] => false

/-- Decimal digits of a number. -/
def digits (n : Nat) : Text := Nat.toDigits 10 n

/-- `str(n)`. -/
def intText (n : Int) : Text := if n < 0 then '-' :: digits n.natAbs else digits n.natAbs

/-- `f"{n:,}"`: decimal digits with a comma between groups of three. -/
def commaDigits (n : Nat) : Text :=
  (group (digits n).reverse).reverse
where
  group : Text → Text
    | a :: b :: c :: d :: rest => a :: b :: c :: ',' :: group (d :: rest)
    | s => s

/-! ## Removing blanks -/

@[simp] theorem despace_nil : despace [] = [] := rfl

@[simp] theorem despace_append (s t : Text) : despace (s ++ t) = despace s ++ despace t :=
  List.filter_append ..

theorem despace_cons (ch : Char) (s : Text) :
    despace (ch :: s) = if ch = ' ' then despace s else ch :: despace s := by
  by_cases h : ch = ' ' <;> simp [despace, h]

theorem despace_doubleQuotes (s : Text) : despace (doubleQuotes s) = doubleQuotes (despace s) := by
  induction s with
  | nil => rfl
  | cons ch s ih =>
    have hd : doubleQuotes (ch :: s) =
        (if ch = '\'' then ['\'', '\''] else [ch]) ++ doubleQuotes s := rfl
    rw [hd, despace_append, ih, despace_cons]
    by_cases hq : ch = '\''
    · subst hq; rfl
    · by_cases hs : ch = ' '
      · subst hs; simp [despace_cons]
      · simp [hq, hs, despace_cons, doubleQuotes]

theorem despace_literal (s : Text) : despace (literal s) = literal (despace s) := by
  simp [literal, despace_cons, despace_doubleQuotes]

/-! ## Reading a literal back -/

@[simp] theorem doubleQuotes_nil : doubleQuotes [] = [] := rfl

theorem doubleQuotes_cons (ch : Char) (s : Text) :
    doubleQuotes (ch :: s) = if ch = '\'' then '\'' :: '\'' :: doubleQuotes s
      else ch :: doubleQuotes s := by
  by_cases h : ch = '\'' <;> simp [doubleQuotes, h]

/-- The closing quote of a literal is the first quote that is not doubled. -/
theorem doubleQuotes_append_inj {x y r r' : Text} (hr : r.head? ≠ some '\'')
    (hr' : r'.head? ≠ some '\'')
    (h : doubleQuotes x ++ '\'' :: r = doubleQuotes y ++ '\'' :: r') : x = y ∧ r = r' := by
  induction x generalizing y with
  | nil =>
    cases y with
    | nil => simpa using h
    | cons b y =>
      rw [doubleQuotes_cons] at h
      by_cases hb : b = '\''
      · simp only [hb, if_true, doubleQuotes_nil, List.nil_append, List.cons_append,
          List.cons.injEq, true_and] at h
        exact absurd (by rw [h]; rfl) hr
      · simp only [hb, if_false, doubleQuotes_nil, List.nil_append, List.cons_append,
          List.cons.injEq] at h
        exact absurd h.1.symm hb
  | cons a x ih =>
    cases y with
    | nil =>
      rw [doubleQuotes_cons] at h
      by_cases ha : a = '\''
      · simp only [ha, if_true, doubleQuotes_nil, List.nil_append, List.cons_append,
          List.cons.injEq, true_and] at h
        exact absurd (by rw [← h]; rfl) hr'
      · simp only [ha, if_false, doubleQuotes_nil, List.nil_append, List.cons_append,
          List.cons.injEq] at h
        exact h.1.elim
    | cons b y =>
      rw [doubleQuotes_cons, doubleQuotes_cons] at h
      by_cases ha : a = '\'' <;> by_cases hb : b = '\'' <;>
        simp only [ha, hb, if_true, if_false, List.cons_append, List.cons.injEq, true_and] at h
      · obtain ⟨rfl, rfl⟩ := ih h; simp [ha, hb]
      · exact absurd h.1.symm hb
      · exact h.1.elim
      · obtain ⟨rfl, h⟩ := h
        obtain ⟨rfl, rfl⟩ := ih h; exact ⟨rfl, rfl⟩

theorem literal_append_inj {x y r r' : Text} (hr : r.head? ≠ some '\'')
    (hr' : r'.head? ≠ some '\'') (h : literal x ++ r = literal y ++ r') : x = y ∧ r = r' := by
  simp only [literal, List.cons_append, List.append_assoc, List.cons.injEq, true_and,
    List.nil_append] at h
  exact doubleQuotes_append_inj hr hr' h

end Sql
end Geofastmap
