import Mathlib.Data.List.Forall2
import Geofastmap.Copy.Format

/-!
# Geofastmap.Copy.Encode

`_encode_copy_row` and `_RowCopyReader` of `bulk_copy_ingest.py`: rows as the text of a `COPY`.

`copy_lossless` says that the database reads the rows that were written. Two facts carry it: what
is written for a field passes the cut into lines and the cut into fields unchanged (`Inert`), and
it is `\N` only for `None`.
-/

namespace Geofastmap
namespace Copy

/-- `s.replace(ch, new)`. -/
def replaceChar (ch : Char) (new s : Text) : Text := s.flatMap fun c => if c = ch then new else [c]

/-- A value: `None`, or a text with its backslashes, tabs and line ends replaced. -/
def encodeField : Field → Text
  | none => "\\N".toList
  | some s =>
    replaceChar '\r' "\\r".toList
      (replaceChar '\n' "\\n".toList
        (replaceChar '\t' "\\t".toList (replaceChar '\\' "\\\\".toList s)))

def encodeLine (row : List Field) : Text := ['\t'].intercalate (row.map encodeField)

/-- `_encode_copy_row`. -/
def encodeCopyRow (row : List Field) : Text := encodeLine row ++ ['\n']

def NulFree (row : List Field) : Prop := ∀ s, some s ∈ row → '\x00' ∉ s

/-! ## One character -/

/-- The four replacements at once. -/
def escapeChar (ch : Char) : Text :=
  if ch = '\\' then "\\\\".toList
  else if ch = '\t' then "\\t".toList
  else if ch = '\n' then "\\n".toList
  else if ch = '\r' then "\\r".toList
  else [ch]

/-- The backslash comes first, so no replacement meets what another one has written. -/
theorem encodeField_some (s : Text) : encodeField (some s) = s.flatMap escapeChar := by
  induction s with
  | nil => rfl
  | cons ch s ih =>
    simp only [encodeField, replaceChar] at ih ⊢
    simp only [List.flatMap_cons, List.flatMap_append, ih]
    congr 1
    unfold escapeChar
    by_cases hb : ch = '\\'
    · subst hb; rfl
    by_cases ht : ch = '\t'
    · subst ht; rfl
    by_cases hn : ch = '\n'
    · subst hn; rfl
    by_cases hr : ch = '\r'
    · subst hr; rfl
    simp [hb, ht, hn, hr]

/-- What is written for a character is a plain character or a backslash and a letter. -/
theorem escapeChar_cases (ch : Char) :
    (escapeChar ch = [ch] ∧ ch ≠ '\\' ∧ ch ≠ '\t' ∧ ch ≠ '\n' ∧ ch ≠ '\r') ∨
      ∃ d, escapeChar ch = ['\\', d] ∧ d ∈ ['\\', 't', 'n', 'r'] := by
  unfold escapeChar
  by_cases hb : ch = '\\'
  · right; exact ⟨'\\', by simp [hb], by simp⟩
  by_cases ht : ch = '\t'
  · right; exact ⟨'t', by simp [ht], by simp⟩
  by_cases hn : ch = '\n'
  · right; exact ⟨'n', by simp [hn], by simp⟩
  by_cases hr : ch = '\r'
  · right; exact ⟨'r', by simp [hr], by simp⟩
  left
  simp [hb, ht, hn, hr]

/-! ## Lines and fields -/

/-- Neither a line nor a field ends in this text. -/
structure Inert (t : Text) : Prop where
  line : ∀ eol line rest, splitLines eol line (t ++ rest) = splitLines eol (line ++ t) rest
  field : ∀ field rest, rawFields field (t ++ rest) = rawFields (field ++ t) rest

theorem Inert.nil : Inert [] where
  line eol line rest := by simp
  field field rest := by simp

theorem Inert.append {t u : Text} (ht : Inert t) (hu : Inert u) : Inert (t ++ u) where
  line eol line rest := by rw [List.append_assoc, ht.line, hu.line, List.append_assoc]
  field field rest := by rw [List.append_assoc, ht.field, hu.field, List.append_assoc]

theorem inert_plain {ch : Char} (hnul : ch ≠ '\x00') (hb : ch ≠ '\\') (ht : ch ≠ '\t')
    (hn : ch ≠ '\n') (hr : ch ≠ '\r') : Inert [ch] where
  line eol line rest := by
    rw [List.singleton_append, splitLines] <;> simp_all
  field field rest := by
    rw [List.singleton_append, rawFields] <;> simp_all

theorem inert_sequence {d : Char} (hd : d ≠ '.') (hnul : d ≠ '\x00') : Inert ['\\', d] where
  line eol line rest := by
    rw [List.cons_append, List.singleton_append, splitLines] <;> simp_all
  field field rest := by
    rw [List.cons_append, List.singleton_append, rawFields]

theorem inert_escapeChar {ch : Char} (h : ch ≠ '\x00') : Inert (escapeChar ch) := by
  rcases escapeChar_cases ch with ⟨he, hb, ht, hn, hr⟩ | ⟨d, he, hd⟩
  · rw [he]
    exact inert_plain h hb ht hn hr
  · rw [he]
    refine inert_sequence ?_ ?_
    · intro hdot
      simp [hdot] at hd
    · intro hnul
      simp [hnul] at hd

theorem inert_encodeField {f : Field} (h : ∀ s, f = some s → '\x00' ∉ s) :
    Inert (encodeField f) := by
  cases f with
  | none => exact inert_sequence (by decide) (by decide)
  | some s =>
    rw [encodeField_some]
    have hs := h s rfl
    clear h
    induction s with
    | nil => exact Inert.nil
    | cons ch s ih =>
      rw [List.mem_cons, not_or] at hs
      rw [List.flatMap_cons]
      exact (inert_escapeChar (Ne.symm hs.1)).append (ih hs.2)

theorem encodeLine_cons (f : Field) {row : List Field} (h : row ≠ []) :
    encodeLine (f :: row) = encodeField f ++ '\t' :: encodeLine row := by
  cases row with
  | nil => exact absurd rfl h
  | cons g row => simp [encodeLine, List.intercalate]

theorem NulFree.of_cons {f : Field} {row : List Field} (h : NulFree (f :: row)) :
    (∀ s, f = some s → '\x00' ∉ s) ∧ NulFree row := by
  constructor
  · rintro s rfl
    exact h s (by simp)
  · intro s hs
    exact h s (List.mem_cons_of_mem _ hs)

/-- A row stays on its line. -/
theorem splitLines_encodeLine {row : List Field} (h : NulFree row) (eol : Eol) (line rest : Text) :
    splitLines eol line (encodeLine row ++ rest) = splitLines eol (line ++ encodeLine row) rest := by
  induction row generalizing line with
  | nil => simp [encodeLine]
  | cons f row ih =>
    obtain ⟨hf, hrow⟩ := h.of_cons
    by_cases hnil : row = []
    · subst hnil
      simpa [encodeLine, List.intercalate] using (inert_encodeField hf).line eol line rest
    · have htab : splitLines eol (line ++ encodeField f) ('\t' :: (encodeLine row ++ rest)) =
          splitLines eol (line ++ encodeField f ++ ['\t']) (encodeLine row ++ rest) := by
        rw [splitLines] <;> simp
      rw [encodeLine_cons f hnil, List.append_assoc, (inert_encodeField hf).line, List.cons_append,
        htab, ih hrow]
      simp

theorem rawFields_encodeLine {row : List Field} (h : NulFree row) (hrow : row ≠ []) :
    rawFields [] (encodeLine row) = row.map encodeField := by
  induction row with
  | nil => exact absurd rfl hrow
  | cons f row ih =>
    obtain ⟨hf, hfree⟩ := h.of_cons
    by_cases hnil : row = []
    · subst hnil
      have hlast := (inert_encodeField hf).field [] []
      simpa [encodeLine, List.intercalate, rawFields] using hlast
    · rw [encodeLine_cons f hnil, (inert_encodeField hf).field, List.nil_append, rawFields,
        ih hfree hnil, List.map_cons]

/-! ## Backslash sequences -/

theorem unescape_escapeChar (ch : Char) (rest : Text) :
    unescape (escapeChar ch ++ rest) = (unescape rest).map (ch :: ·) := by
  unfold escapeChar
  by_cases hb : ch = '\\'
  · subst hb
    rw [if_pos rfl]
    show unescape ('\\' :: '\\' :: rest) = _
    rw [unescape]
    rfl
  by_cases ht : ch = '\t'
  · subst ht
    rw [if_neg (by decide), if_pos rfl]
    show unescape ('\\' :: 't' :: rest) = _
    rw [unescape]
    rfl
  by_cases hn : ch = '\n'
  · subst hn
    rw [if_neg (by decide), if_neg (by decide), if_pos rfl]
    show unescape ('\\' :: 'n' :: rest) = _
    rw [unescape]
    rfl
  by_cases hr : ch = '\r'
  · subst hr
    rw [if_neg (by decide), if_neg (by decide), if_neg (by decide), if_pos rfl]
    show unescape ('\\' :: 'r' :: rest) = _
    rw [unescape]
    rfl
  rw [if_neg hb, if_neg ht, if_neg hn, if_neg hr, List.singleton_append, unescape]
  · simp [hb]
  · simp [hb]

theorem unescape_encodeField (s : Text) : unescape (encodeField (some s)) = .ok s := by
  rw [encodeField_some]
  induction s with
  | nil =>
    rw [List.flatMap_nil, unescape]
  | cons ch s ih =>
    rw [List.flatMap_cons, unescape_escapeChar, ih]
    rfl

/-- Only `None` is written as the `NULL` marker. -/
theorem encodeField_ne_null (s : Text) : encodeField (some s) ≠ "\\N".toList := by
  rw [encodeField_some]
  intro h
  cases s with
  | nil => simp at h
  | cons ch s =>
    rw [List.flatMap_cons] at h
    rcases escapeChar_cases ch with ⟨he, hb, -⟩ | ⟨d, he, hd⟩
    · rw [he] at h
      simp [hb] at h
    · rw [he] at h
      have hN : d = 'N' := by
        have := congrArg (fun t => t[1]?) h
        simpa using this
      simp [hN] at hd

theorem readField_encodeField (f : Field) : readField (encodeField f) = .ok f := by
  cases f with
  | none => rfl
  | some s =>
    unfold readField
    rw [if_neg (encodeField_ne_null s), unescape_encodeField]
    rfl

/-! ## Rows -/

theorem mapM_readField (row : List Field) : (row.map encodeField).mapM readField = .ok row := by
  induction row with
  | nil => rfl
  | cons f row ih =>
    rw [List.map_cons, List.mapM_cons, readField_encodeField, ih]
    rfl

theorem readRow_encodeLine {row : List Field} (h : NulFree row) :
    readRow row.length (encodeLine row) = .ok row := by
  unfold readRow
  by_cases hrow : row = []
  · subst hrow
    rfl
  · have hpos : row.length ≠ 0 := by simpa using hrow
    rw [if_neg hpos]
    simp only [rawFields_encodeLine h hrow, List.length_map, Nat.lt_irrefl, if_false]
    exact mapM_readField row

/-- The lines of a text are the rows that it was written from. -/
theorem splitLines_encodeCopyRow {rows : List (List Field)} (h : ∀ row ∈ rows, NulFree row)
    {eol : Eol} (heol : eol = .unknown ∨ eol = .nl) :
    splitLines eol [] (rows.flatMap encodeCopyRow) = .ok (rows.map encodeLine) := by
  induction rows generalizing eol with
  | nil => rfl
  | cons row rows ih =>
    have hend : splitLines eol (encodeLine row) ('\n' :: rows.flatMap encodeCopyRow) =
        (splitLines .nl [] (rows.flatMap encodeCopyRow)).map (encodeLine row :: ·) := by
      rw [splitLines]
      rcases heol with rfl | rfl <;> simp
    rw [List.flatMap_cons, encodeCopyRow, List.append_assoc, splitLines_encodeLine (h row (by simp)),
      List.nil_append, List.singleton_append, hend,
      ih (fun r hr => h r (List.mem_cons_of_mem _ hr)) (Or.inr rfl)]
    rfl

theorem mapM_readRow {columns : Nat} {rows : List (List Field)} (h : ∀ row ∈ rows, NulFree row)
    (hcols : ∀ row ∈ rows, row.length = columns) :
    (rows.map encodeLine).mapM (readRow columns) = .ok rows := by
  induction rows with
  | nil => rfl
  | cons row rows ih =>
    have hrow := readRow_encodeLine (h row (by simp))
    rw [hcols row (by simp)] at hrow
    rw [List.map_cons, List.mapM_cons, hrow, ih (fun r hr => h r (List.mem_cons_of_mem _ hr))
      (fun r hr => hcols r (List.mem_cons_of_mem _ hr))]
    rfl

theorem readCopy_encodeCopyRow {columns : Nat} {rows : List (List Field)}
    (h : ∀ row ∈ rows, NulFree row) (hcols : ∀ row ∈ rows, row.length = columns) :
    readCopy columns (rows.flatMap encodeCopyRow) = .ok rows := by
  unfold readCopy
  rw [splitLines_encodeCopyRow h (Or.inl rfl)]
  exact mapM_readRow h hcols

/-- For one row, for each line of several rows, and for a whole `COPY`. -/
theorem copy_lossless (rows : List (List Field)) (h : ∀ row ∈ rows, NulFree row) :
    (∀ row ∈ rows, readCopy row.length (encodeCopyRow row) = .ok [row]) ∧
      (∃ lines, splitLines .unknown [] (rows.flatMap encodeCopyRow) = .ok lines ∧
        List.Forall₂ (fun line row => readRow row.length line = .ok row) lines rows) ∧
      ∀ columns, (∀ row ∈ rows, row.length = columns) →
        readCopy columns (rows.flatMap encodeCopyRow) = .ok rows := by
  refine ⟨?_, ⟨rows.map encodeLine, splitLines_encodeCopyRow h (Or.inl rfl), ?_⟩, ?_⟩
  · intro row hrow
    have hone : readCopy row.length ([row].flatMap encodeCopyRow) = .ok [row] :=
      readCopy_encodeCopyRow (by simpa using h row hrow) (by simp)
    simpa using hone
  · rw [List.forall₂_map_left_iff]
    exact List.forall₂_same.mpr fun row hrow => readRow_encodeLine (h row hrow)
  · intro columns hcols
    exact readCopy_encodeCopyRow h hcols

/-- `None`, the text `\N`, the end marker, a backslash before a line end, and the empty text. -/
def markers : List Field :=
  [none, some "\\N".toList, some "\\.".toList, some "a\tb\\\n\r".toList, some []]

theorem copy_lossless_markers : readCopy 5 (encodeCopyRow markers) = .ok [markers] :=
  (copy_lossless [markers] (by simp [NulFree, markers])).1 markers (by simp)

/-! ## The stream -/

/-- `_RowCopyReader`: what is left of the text of the last row, and the rows to come. -/
structure RowCopyReader where
  carry : Text
  rows : List (List Field)

/-- What the stream still holds. -/
def RowCopyReader.text (r : RowCopyReader) : Text := r.carry ++ r.rows.flatMap encodeCopyRow

/-- `while have < size`. -/
def fill (size : Nat) : Text → List (List Field) → Text × List (List Field)
  | buf, [] => (buf, [])
  | buf, row :: rows =>
    if buf.length < size then fill size (buf ++ encodeCopyRow row) rows else (buf, row :: rows)

/-- `read(size)` for a size that is not negative. -/
def RowCopyReader.read (size : Nat) (r : RowCopyReader) : Text × RowCopyReader :=
  let (buf, rows) := fill size r.carry r.rows
  (buf.take size, ⟨buf.drop size, rows⟩)

theorem fill_text (size : Nat) (buf : Text) (rows : List (List Field)) :
    (fill size buf rows).1 ++ (fill size buf rows).2.flatMap encodeCopyRow =
      buf ++ rows.flatMap encodeCopyRow := by
  induction rows generalizing buf with
  | nil => rfl
  | cons row rows ih =>
    unfold fill
    split
    · rw [ih, List.flatMap_cons, List.append_assoc]
    · rfl

end Copy
end Geofastmap
