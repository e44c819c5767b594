import Geofastmap.Copy.Encode

/-!
# Geofastmap.Copy.Stream

Every client of `_RowCopyReader`: any calls of `read` and `readline`, in any order.

The reader is a text from whose front each call takes some characters (`step_text`), as a file with
the text of all rows would be. The invariant is that what is carried from one call to the next ends
where a row ends, so that a line never begins in the carry and ends in a row.
-/

namespace Geofastmap
namespace Copy

/-- A call of the client; `read()` is `read(-1)`. -/
inductive Call where
  | read (size : Int)
  | readline

/-- `read(size)` for a negative size. -/
def RowCopyReader.readAll (r : RowCopyReader) : Text × RowCopyReader := (r.text, ⟨[], []⟩)

/-- `readline()`. -/
def RowCopyReader.readline (r : RowCopyReader) : Text × RowCopyReader :=
  let nl := r.carry.idxOf '\n'
  if nl < r.carry.length then (r.carry.take (nl + 1), ⟨r.carry.drop (nl + 1), r.rows⟩)
  else
    match r.rows with
    | [] => (r.carry, ⟨[], []⟩)
    | row :: rows => (r.carry ++ encodeCopyRow row, ⟨[], rows⟩)

def RowCopyReader.step (r : RowCopyReader) : Call → Text × RowCopyReader
  | .read size => if size < 0 then r.readAll else r.read size.toNat
  | .readline => r.readline

/-- What the calls return. -/
def RowCopyReader.run (r : RowCopyReader) : List Call → List Text
  | [] => []
  | c :: calls => (r.step c).1 :: (r.step c).2.run calls

/-! ## A file -/

/-- How many characters a call takes from what is left of a file. -/
def Call.count : Call → Text → Nat
  | .read size, s => if size < 0 then s.length else size.toNat
  | .readline, s => s.idxOf '\n' + 1

/-- Nothing, or a text that ends where a line ends. -/
def Ends (s : Text) : Prop := ∀ ch ∈ s.getLast?, ch = '\n'

theorem Ends.drop {s : Text} (h : Ends s) (n : Nat) : Ends (s.drop n) := by
  intro ch hch
  rw [List.getLast?_drop] at hch
  split at hch
  · cases hch
  · exact h ch hch

theorem Ends.mem {s : Text} (h : Ends s) (hs : s ≠ []) : '\n' ∈ s := by
  have hlast := List.getLast?_eq_some_getLast hs
  rw [← h _ hlast]
  exact List.getLast_mem hs

theorem Ends.append_row (s : Text) (row : List Field) : Ends (s ++ encodeCopyRow row) := by
  intro ch hch
  rw [encodeCopyRow, ← List.append_assoc, List.getLast?_concat] at hch
  exact (Option.some.inj hch).symm

/-! ## Line ends of a row -/

theorem newline_notMem_encodeField (f : Field) : '\n' ∉ encodeField f := by
  cases f with
  | none => simp [encodeField]
  | some s =>
    rw [encodeField_some]
    intro h
    obtain ⟨ch, -, hch⟩ := List.mem_flatMap.mp h
    rcases escapeChar_cases ch with ⟨he, -, -, hn, -⟩ | ⟨d, he, hd⟩
    · rw [he, List.mem_singleton] at hch
      exact hn hch.symm
    · rw [he] at hch
      simp only [List.mem_cons, List.not_mem_nil, or_false] at hch hd
      rcases hch with hslash | rfl
      · exact absurd hslash (by decide)
      · simp at hd

theorem newline_notMem_encodeLine (row : List Field) : '\n' ∉ encodeLine row := by
  induction row with
  | nil => simp [encodeLine]
  | cons f row ih =>
    by_cases hrow : row = []
    · subst hrow
      simpa [encodeLine, List.intercalate] using newline_notMem_encodeField f
    · rw [encodeLine_cons f hrow]
      simp [newline_notMem_encodeField f, ih]

/-- The first line of the text of some rows is the first row. -/
theorem idxOf_encodeCopyRow (row : List Field) (rest : Text) :
    (encodeCopyRow row ++ rest).idxOf '\n' + 1 = (encodeCopyRow row).length := by
  rw [encodeCopyRow, List.append_assoc,
    List.idxOf_append_of_notMem (newline_notMem_encodeLine row)]
  simp

/-! ## One call -/

theorem fill_full (size : Nat) (buf : Text) (rows : List (List Field)) :
    size ≤ (fill size buf rows).1.length ∨ (fill size buf rows).2 = [] := by
  induction rows generalizing buf with
  | nil => exact Or.inr rfl
  | cons row rows ih =>
    unfold fill
    split
    · exact ih _
    · rename_i hfull
      exact Or.inl (Nat.le_of_not_lt hfull)

theorem fill_ends (size : Nat) {buf : Text} (rows : List (List Field)) (h : Ends buf) :
    Ends (fill size buf rows).1 := by
  induction rows generalizing buf with
  | nil => exact h
  | cons row rows ih =>
    unfold fill
    split
    · exact ih (Ends.append_row buf row)
    · exact h

theorem RowCopyReader.read_eq (size : Nat) (r : RowCopyReader) :
    (r.read size).1 = r.text.take size ∧ (r.read size).2.text = r.text.drop size := by
  have htext := fill_text size r.carry r.rows
  unfold read text
  rw [← htext]
  rcases fill_full size r.carry r.rows with hfull | hrows
  · constructor
    · rw [List.take_append_of_le_length hfull]
    · rw [List.drop_append_of_le_length hfull]
  · simp [hrows]

theorem RowCopyReader.readline_eq {r : RowCopyReader} (h : Ends r.carry) :
    r.readline.1 = r.text.take (r.text.idxOf '\n' + 1) ∧
      r.readline.2.text = r.text.drop (r.text.idxOf '\n' + 1) ∧ Ends r.readline.2.carry := by
  unfold readline text
  by_cases hcarry : r.carry = []
  · -- without a carry a row is read
    cases hrows : r.rows with
    | nil => simp [hcarry, Ends]
    | cons row rows =>
      have hidx := idxOf_encodeCopyRow row (rows.flatMap encodeCopyRow)
      simp [hcarry, hidx, Ends]
  · have hmem := h.mem hcarry
    have hlt := List.idxOf_lt_length_of_mem hmem
    simp only [if_pos hlt, List.idxOf_append_of_mem hmem]
    refine ⟨?_, ?_, h.drop _⟩
    · rw [List.take_append_of_le_length hlt]
    · rw [List.drop_append_of_le_length hlt]

theorem RowCopyReader.step_text {r : RowCopyReader} (h : Ends r.carry) (c : Call) :
    (r.step c).1 = r.text.take (c.count r.text) ∧
      (r.step c).2.text = r.text.drop (c.count r.text) ∧ Ends (r.step c).2.carry := by
  cases c with
  | read size =>
    simp only [step, Call.count]
    by_cases hneg : size < 0
    · simp [hneg, readAll, text, Ends]
    · simp only [if_neg hneg]
      obtain ⟨hout, hrest⟩ := r.read_eq size.toNat
      exact ⟨hout, hrest, (fill_ends _ r.rows h).drop _⟩
  | readline => exact readline_eq h

/-! ## All calls -/

/-- The reader at a call, and what has been returned before it. -/
theorem RowCopyReader.run_at {r : RowCopyReader} (h : Ends r.carry) {calls : List Call} {i : Nat}
    {c : Call} (hc : calls[i]? = some c) :
    ∃ s, ((r.run calls).take i).flatten ++ s = r.text ∧
      (r.run calls)[i]? = some (s.take (c.count s)) := by
  induction calls generalizing r i with
  | nil => simp at hc
  | cons d calls ih =>
    obtain ⟨hout, hrest, hends⟩ := step_text h d
    cases i with
    | zero =>
      cases hc
      exact ⟨r.text, rfl, congrArg some hout⟩
    | succ i =>
      obtain ⟨s, htext, hat⟩ := ih hends (i := i) hc
      refine ⟨s, ?_, hat⟩
      calc (((r.run (d :: calls)).take (i + 1)).flatten) ++ s
          = (r.step d).1 ++ ((((r.step d).2.run calls).take i).flatten ++ s) := by
            simp [run, List.append_assoc]
        _ = r.text := by rw [htext, hout, hrest, List.take_append_drop]

theorem RowCopyReader.run_prefix {r : RowCopyReader} (h : Ends r.carry) (calls : List Call) :
    (r.run calls).flatten <+: r.text := by
  induction calls generalizing r with
  | nil => exact List.nil_prefix
  | cons c calls ih =>
    obtain ⟨hout, hrest, hends⟩ := step_text h c
    have hfirst := ih hends
    rw [hrest] at hfirst
    calc (r.run (c :: calls)).flatten
        = r.text.take (c.count r.text) ++ ((r.step c).2.run calls).flatten := by
          simp [run, hout]
      _ <+: r.text.take (c.count r.text) ++ r.text.drop (c.count r.text) :=
          (List.prefix_append_right_inj _).mpr hfirst
      _ = r.text := List.take_append_drop ..

/-- What has been returned does not grow any more once it is the whole text. -/
theorem flatten_eq_of_take {outs : List Text} {s : Text} {n : Nat} (h : outs.flatten <+: s)
    (hn : (outs.take n).flatten = s) : outs.flatten = s := by
  have hsplit : outs.flatten = s ++ (outs.drop n).flatten := by
    rw [← hn, ← List.flatten_append, List.take_append_drop]
  refine h.eq_of_length_le ?_
  rw [hsplit, List.length_append]
  exact Nat.le_add_right _ _

theorem flatten_take_succ {outs : List Text} {i : Nat} {out : Text} (h : outs[i]? = some out) :
    (outs.take (i + 1)).flatten = (outs.take i).flatten ++ out := by
  rw [List.take_add_one, h]
  simp

/-- For each reader of some rows and each list of calls. -/
theorem reader_faithful (rows : List (List Field)) (calls : List Call) :
    let all := rows.flatMap encodeCopyRow
    let outs := RowCopyReader.run ⟨[], rows⟩ calls
    outs.flatten <+: all ∧
      (∀ i n, calls[i]? = some (.read n) → 0 < n → outs[i]? = some [] →
        (outs.take i).flatten = all ∧ outs.flatten = all) ∧
      (∀ i n out, calls[i]? = some (.read n) → 0 ≤ n → outs[i]? = some out →
        (out.length : Int) ≤ n ∧ (out.length < n → (outs.take (i + 1)).flatten = all)) ∧
      ∀ i read row unread, calls[i]? = some .readline → rows = read ++ row :: unread →
        (outs.take i).flatten = read.flatMap encodeCopyRow → outs[i]? = some (encodeCopyRow row) := by
  intro all outs
  have hends : Ends (RowCopyReader.mk [] rows).carry := by simp [Ends]
  have hfirst : outs.flatten <+: all := by
    simpa [RowCopyReader.text] using RowCopyReader.run_prefix hends calls
  have hat : ∀ {i c}, calls[i]? = some c → ∃ s, (outs.take i).flatten ++ s = all ∧
      outs[i]? = some (s.take (c.count s)) := by
    intro i c hc
    simpa [RowCopyReader.text] using RowCopyReader.run_at hends hc
  refine ⟨hfirst, ?_, ?_, ?_⟩
  · intro i n hc hn hempty
    obtain ⟨s, hs, hout⟩ := hat hc
    have htake := Option.some.inj (hout.symm.trans hempty)
    have hnil : s = [] := by
      rcases List.take_eq_nil_iff.mp htake with hzero | hnil
      · simp only [Call.count] at hzero
        split at hzero <;> omega
      · exact hnil
    rw [hnil, List.append_nil] at hs
    exact ⟨hs, flatten_eq_of_take hfirst hs⟩
  · intro i n out hc hn hget
    obtain ⟨s, hs, hout⟩ := hat hc
    have htake : s.take n.toNat = out := by
      have := Option.some.inj (hout.symm.trans hget)
      simpa [Call.count, Int.not_lt.mpr hn] using this
    have hlength : out.length = min n.toNat s.length := by rw [← htake, List.length_take]
    constructor
    · omega
    · intro hshort
      have hall : out = s := by
        rw [← htake]
        exact List.take_of_length_le (by omega)
      rw [flatten_take_succ hget, hall]
      exact hs
  · intro i read row unread hc hrows hpos
    obtain ⟨s, hs, hout⟩ := hat hc
    have hrest : s = encodeCopyRow row ++ unread.flatMap encodeCopyRow := by
      have hall : all = read.flatMap encodeCopyRow ++
          (encodeCopyRow row ++ unread.flatMap encodeCopyRow) := by simp [all, hrows]
      rw [hpos, hall] at hs
      exact List.append_cancel_left hs
    rw [hout, hrest, Call.count, idxOf_encodeCopyRow, List.take_left]

end Copy
end Geofastmap
