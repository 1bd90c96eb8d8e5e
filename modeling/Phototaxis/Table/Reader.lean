import Phototaxis.Text.Blank
import Phototaxis.Text.Utf8

/-!
# Reading tables

A table is a sequence of records of fields between commas. A field may stand between
double quotes, and then holds commas, line ends and – written twice – quotes. Line
feeds, carriage returns and pairs of them end a record; empty lines are no records.
A quote that does not open a field is an ordinary character, and so is everything
between a closing quote and the next comma. The end of the input ends whatever is
open. A byte order mark at the very start is skipped.

The reader works on bytes, one at a time, so that it can tell where each record
begins.
-/

namespace Phototaxis.Table

/-- Where a record begins: its number, its line and its offset in bytes. The line counts the line
feeds before the offset, which lies right behind the byte that ended the record before. -/
structure Position where
  record : Nat
  line : Nat
  byte : Nat
deriving DecidableEq, Repr

/-- A record as it stands in the table. -/
structure RawRecord where
  start : Position
  fields : List (List UInt8)
deriving DecidableEq, Repr

/-- Where the reader stands. -/
inductive Phase where
  /-- Before the first byte of a record. -/
  | between
  /-- Before the first byte of a field. -/
  | opening
  /-- In a field without quotes, or behind a closing quote. -/
  | plain
  /-- Between quotes. -/
  | quoted
  /-- Behind a quote that closes the field unless another one follows. -/
  | closing
deriving DecidableEq, Repr

/-- The state of the reader. -/
structure Scan where
  phase : Phase
  /-- The bytes of the current field. -/
  field : List UInt8
  /-- The fields of the current record before it. -/
  fields : List (List UInt8)
  /-- Where the current record begins. -/
  start : Position
  /-- The line feeds so far, and one. -/
  line : Nat
  /-- The bytes so far. -/
  byte : Nat

namespace Scan

/-- Before the first record, behind so many bytes. -/
def initial (byte : Nat) : Scan := ⟨.between, [], [], ⟨0, 1, 0⟩, 1, byte⟩

/-- The current record, with the current field as its last. -/
def record (s : Scan) : RawRecord := ⟨s.start, s.fields ++ [s.field]⟩

/-- One more byte of the current field. -/
def push (s : Scan) (byte : UInt8) (phase : Phase) : Scan :=
  { s with phase := phase, field := s.field ++ [byte] }

/-- What a byte does where a field may end: a comma ends the field, a line end the record, any other
byte goes on. -/
def endOr (s : Scan) (byte : UInt8) (other : Scan) : Scan × Option RawRecord :=
  if byte == 0x2C then
    ({ s with phase := .opening, field := [], fields := s.fields ++ [s.field] }, none)
  else if byte == 0x0A || byte == 0x0D then
    ({ s with
        phase := .between, field := [], fields := []
        start := ⟨s.start.record + 1, s.line, s.byte⟩ }, some s.record)
  else (other, none)

/-- What a byte does at the start of a field. -/
def openOr (s : Scan) (byte : UInt8) : Scan × Option RawRecord :=
  s.endOr byte (if byte == 0x22 then { s with phase := .quoted } else s.push byte .plain)

/-- Counts a byte. -/
def count (s : Scan) (byte : UInt8) : Scan :=
  { s with byte := s.byte + 1, line := if byte == 0x0A then s.line + 1 else s.line }

/-- The state behind one more byte, and the record that it ends, if it ends one. -/
def step (s : Scan) (byte : UInt8) : Scan × Option RawRecord :=
  let s := s.count byte
  match s.phase with
  | .between => if byte == 0x0A || byte == 0x0D then (s, none) else s.openOr byte
  | .opening => s.openOr byte
  | .plain => s.endOr byte (s.push byte .plain)
  | .quoted => (if byte == 0x22 then { s with phase := .closing } else s.push byte .quoted, none)
  | .closing =>
    s.endOr byte (if byte == 0x22 then s.push byte .quoted else s.push byte .plain)

end Scan

/-- The records of the rest of a table. -/
def recordsFrom (s : Scan) : List UInt8 → List RawRecord
  | [] => if s.phase == .between then [] else [s.record]
  | byte :: rest =>
    match s.step byte with
    | (s, none) => recordsFrom s rest
    | (s, some record) => record :: recordsFrom s rest

/-- The records of a table, the header first. -/
def records : List UInt8 → List RawRecord
  | 0xEF :: 0xBB :: 0xBF :: rest => recordsFrom (.initial 3) rest
  | bytes => recordsFrom (.initial 0) bytes

/-! ## The text of a field -/

/-- Whether a byte is a blank of ASCII. -/
def isBlankByte (byte : UInt8) : Bool :=
  byte == 0x20 || byte == 0x09 || byte == 0x0A || byte == 0x0C || byte == 0x0D

/-- The field without blank bytes at either end. -/
def trimBytes (field : List UInt8) : List UInt8 :=
  ((field.dropWhile isBlankByte).reverse.dropWhile isBlankByte).reverse

/-- The text of a field without the blanks at either end, or else the number of its well-formed
bytes. -/
def fieldText (field : List UInt8) : Except Nat String :=
  (Text.decodeUtf8 (trimBytes field)).map Text.trim

/-- The texts of the fields from number `index` on, or else the number of the first that is no text
and of its well-formed bytes. -/
def fieldTexts (index : Nat) : List (List UInt8) → Except (Nat × Nat) (List String)
  | [] => .ok []
  | field :: rest =>
    match fieldText field with
    | .error valid => .error (index, valid)
    | .ok text => (fieldTexts (index + 1) rest).map (text :: ·)

end Phototaxis.Table
