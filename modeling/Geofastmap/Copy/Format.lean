import Geofastmap.Sql.Text

/-!
# Geofastmap.Copy.Format

How PostgreSQL reads the text format of `COPY ... FROM STDIN`, with a tab as delimiter and `\N` as
`NULL`.

* The text is cut into lines first. A backslash protects the character after it, also a newline;
  `\.` alone on a line ends the data; all lines end in the same way.
* A line is cut at the tabs that no backslash protects.
* A field that is `\N` as it stands is `NULL`; only then are backslash sequences replaced.
-/

namespace Geofastmap
namespace Copy

/-- A value of a row, `none` for `NULL`. -/
abbrev Field := Option Text

inductive ReadError where
  | nulCharacter
  | endMarkerNotAlone
  | literalNewline
  | literalCarriageReturn
  | missingData
  | extraData
  | invalidEncoding
deriving DecidableEq

/-- How the lines read so far end. -/
inductive Eol where
  | unknown | nl | cr | crnl
deriving DecidableEq

/-! ## Lines -/

/-- The characters after `\.` end the line. -/
def endsLine : Text → Bool
  | [] => true
  | '\n' :: _ => true
  | '\r' :: _ => true
  | _ => false

/-- The lines of a text, of which `line` has been read. -/
def splitLines (eol : Eol) (line : Text) : Text → Except ReadError (List Text)
  | [] => .ok (if line.isEmpty then [] else [line])
  | '\x00' :: _ => .error .nulCharacter
  | '\\' :: '.' :: rest =>
    if line.isEmpty && endsLine rest then .ok [] else .error .endMarkerNotAlone
  | '\\' :: '\x00' :: _ => .error .nulCharacter
  | '\\' :: ch :: rest => splitLines eol (line ++ ['\\', ch]) rest
  | '\n' :: rest =>
    if eol = .cr ∨ eol = .crnl then .error .literalNewline
    else (splitLines .nl [] rest).map (line :: ·)
  | '\r' :: '\n' :: rest =>
    if eol = .cr ∨ eol = .nl then .error .literalCarriageReturn
    else (splitLines .crnl [] rest).map (line :: ·)
  | '\r' :: rest =>
    if eol = .nl ∨ eol = .crnl then .error .literalCarriageReturn
    else (splitLines .cr [] rest).map (line :: ·)
  | ch :: rest => splitLines eol (line ++ [ch]) rest

/-! ## Fields -/

/-- The fields of a line as they stand, of which `field` has been read. -/
def rawFields (field : Text) : Text → List Text
  | [] => [field]
  | '\t' :: rest => field :: rawFields [] rest
  | '\\' :: ch :: rest => rawFields (field ++ ['\\', ch]) rest
  | ch :: rest => rawFields (field ++ [ch]) rest

def octalDigit? (ch : Char) : Option Nat :=
  if '0' ≤ ch ∧ ch ≤ '7' then some (ch.toNat - '0'.toNat) else none

def hexDigit? (ch : Char) : Option Nat :=
  if '0' ≤ ch ∧ ch ≤ '9' then some (ch.toNat - '0'.toNat)
  else if 'a' ≤ ch ∧ ch ≤ 'f' then some (ch.toNat - 'a'.toNat + 10)
  else if 'A' ≤ ch ∧ ch ≤ 'F' then some (ch.toNat - 'A'.toNat + 10)
  else none

/-- At most `count` digits at the beginning of a text. -/
def leadingDigits (digit? : Char → Option Nat) (count : Nat) (s : Text) : List Nat :=
  ((s.take count).takeWhile fun ch => (digit? ch).isSome).filterMap digit?

def ofDigits (base : Nat) (ds : List Nat) : Nat := ds.foldl (fun value d => value * base + d) 0

/-- The letter of a backslash sequence. -/
def control? (ch : Char) : Option Char :=
  if ch = 'b' then some '\x08'
  else if ch = 'f' then some '\x0c'
  else if ch = 'n' then some '\n'
  else if ch = 'r' then some '\r'
  else if ch = 't' then some '\t'
  else if ch = 'v' then some '\x0b'
  else none

/-- A byte that a number stands for. Above 127 it is a part of a character, or of none. -/
def byte (value : Nat) : Except ReadError Char :=
  if value = 0 then .error .nulCharacter
  else if value < 128 then .ok (Char.ofNat value)
  else .error .invalidEncoding

/-- Replaces the backslash sequences. A backslash at the end stands for nothing. -/
def unescape : Text → Except ReadError Text
  | [] => .ok []
  | ['\\'] => .ok []
  | '\\' :: ch :: rest =>
    match control? ch with
    | some c => (unescape rest).map (c :: ·)
    | none =>
      let octal := leadingDigits octalDigit? 3 (ch :: rest)
      let hex := leadingDigits hexDigit? 2 rest
      if 0 < octal.length then do
        let c ← byte (ofDigits 8 octal % 256)
        let s ← unescape (rest.drop (octal.length - 1))
        return c :: s
      else if ch = 'x' ∧ 0 < hex.length then do
        let c ← byte (ofDigits 16 hex)
        let s ← unescape (rest.drop hex.length)
        return c :: s
      else (unescape rest).map (ch :: ·)
  | ch :: rest => (unescape rest).map (ch :: ·)
termination_by s => s.length
decreasing_by all_goals (simp only [List.length_cons, List.length_drop]; omega)

/-- The `NULL` marker is compared with the field as it stands. -/
def readField (raw : Text) : Except ReadError Field :=
  if raw = "\\N".toList then .ok none else (unescape raw).map some

/-- A line for a table with this many columns. -/
def readRow (columns : Nat) (line : Text) : Except ReadError (List Field) :=
  if columns = 0 then if line.isEmpty then .ok [] else .error .extraData
  else
    let raw := rawFields [] line
    if raw.length < columns then .error .missingData
    else if columns < raw.length then .error .extraData
    else raw.mapM readField

/-- The rows that `COPY` inserts. -/
def readCopy (columns : Nat) (text : Text) : Except ReadError (List (List Field)) := do
  let lines ← splitLines .unknown [] text
  lines.mapM (readRow columns)

end Copy
end Geofastmap
