import Phototaxis.Toml.Text

/-!
# Documents of TOML

The part of TOML that a scenario is written in: lines of one key and one value, with
comments and empty lines between. Values are strings, integers and arrays of
strings. Everything else of the language – tables, dotted keys, other types – can
only name what no scenario holds, and is refused like a text that is not well
formed.

Integers are decimal with an optional sign and no leading zero, or hexadecimal,
octal or binary behind a prefix; underscores may stand between digits; the value
fits a signed word of 64 bits.
-/

namespace Phototaxis.Toml

/-- The value of a key. -/
inductive Value where
  | text (text : String)
  | integer (value : Int)
  | texts (texts : List String)
deriving DecidableEq, Repr

/-! ## Lines and blanks -/

/-- The characters with every pair of carriage return and line feed replaced by a line feed; none if
a carriage return stands alone. -/
def joinLineEnds : List Char → Option (List Char)
  | [] => some []
  | '\r' :: '\n' :: rest => (joinLineEnds rest).map ('\n' :: ·)
  | c :: rest => if c == '\r' then none else (joinLineEnds rest).map (c :: ·)

/-- What follows the blanks. -/
def skipBlanks (chars : List Char) : List Char := chars.dropWhile fun c => c == ' ' || c == '\t'

/-- What follows a comment, from its line feed on; none if it holds a control character. -/
def skipComment : List Char → Option (List Char)
  | [] => some []
  | '\n' :: rest => some ('\n' :: rest)
  | c :: rest => if isPlain c then skipComment rest else none

/-- What follows blanks, comments and line feeds; `comment` says that a comment is open. -/
def skipVoid (comment : Bool) : List Char → Option (List Char)
  | [] => some []
  | c :: rest =>
    if c == '\n' then skipVoid false rest
    else if comment then if isPlain c then skipVoid true rest else none
    else if c == ' ' || c == '\t' then skipVoid false rest
    else if c == '#' then skipVoid true rest
    else some (c :: rest)

/-- What follows the line, of which nothing but blanks and a comment may be left. -/
def endOfLine (chars : List Char) : Option (List Char) := do
  let rest ← match skipBlanks chars with
    | '#' :: rest => skipComment rest
    | rest => some rest
  match rest with
  | [] => some []
  | '\n' :: rest => some rest
  | _ => none

/-! ## Integers -/

/-- The value of the digits of an integer in a base, at most one underscore between any two of them.
`after` says that a digit came right before. -/
def digitsFrom (base value : Nat) (after : Bool) : List Char → Option Nat
  | [] => if after then some value else none
  | c :: rest =>
    if c == '_' then if after then digitsFrom base value false rest else none
    else
      match hexValue? c with
      | some d => if d < base then digitsFrom base (value * base + d) true rest else none
      | none => none

/-- The value of an unsigned decimal integer. -/
def decimal? : List Char → Option Nat
  | ['0'] => some 0
  | '0' :: _ => none
  | digits => digitsFrom 10 0 false digits

/-- The value of a whole word, if it is an integer. -/
def integerOf? : List Char → Option Int
  | '0' :: 'x' :: digits => (digitsFrom 16 0 false digits).map Int.ofNat
  | '0' :: 'o' :: digits => (digitsFrom 8 0 false digits).map Int.ofNat
  | '0' :: 'b' :: digits => (digitsFrom 2 0 false digits).map Int.ofNat
  | '-' :: digits => (decimal? digits).map fun n => -(n : Int)
  | '+' :: digits => (decimal? digits).map Int.ofNat
  | digits => (decimal? digits).map Int.ofNat

/-- Whether a character may belong to an integer or a bare key. -/
def isWordChar (c : Char) : Bool := c.isAlphanum || c == '_' || c == '-'

/-- The integer at the start of a text, and what follows it. -/
def integer? (chars : List Char) : Option (Int × List Char) := do
  let inWord (c : Char) : Bool := isWordChar c || c == '+' || c == '.' || c == ':'
  let value ← integerOf? (chars.takeWhile inWord)
  if Int64.minValue.toInt ≤ value && value ≤ Int64.maxValue.toInt then
    some (value, chars.dropWhile inWord)
  else none

/-! ## Values, keys and lines -/

/-- The strings of an array behind its opening bracket, and what follows the closing one. An array
has at most as many strings as there are characters. -/
def items? : Nat → List Char → Option (List String × List Char)
  | 0, _ => none
  | bound + 1, chars => do
    match ← skipVoid false chars with
    | ']' :: rest => some ([], rest)
    | chars =>
      let (first, rest) ← string? chars
      match ← skipVoid false rest with
      | ']' :: rest => some ([first], rest)
      | ',' :: rest =>
        let (others, rest) ← items? bound rest
        some (first :: others, rest)
      | _ => none

/-- The value at the start of a text, and what follows it. -/
def value? : List Char → Option (Value × List Char)
  | '[' :: rest => (items? (rest.length + 1) rest).map fun (texts, rest) => (.texts texts, rest)
  | chars =>
    match string? chars with
    | some (text, rest) => some (.text text, rest)
    | none => (integer? chars).map fun (value, rest) => (.integer value, rest)

/-- The key at the start of a text, and what follows it. -/
def key? (chars : List Char) : Option (String × List Char) :=
  match shortString? chars with
  | some key => some key
  | none =>
    let word := chars.takeWhile isWordChar
    if word.isEmpty then none else some (String.ofList word, chars.dropWhile isWordChar)

/-- The key and the value at the start of a text, and what follows their line. -/
def entry? (chars : List Char) : Option ((String × Value) × List Char) := do
  let (key, rest) ← key? chars
  match skipBlanks rest with
  | '=' :: rest =>
    let (value, rest) ← value? (skipBlanks rest)
    let rest ← endOfLine rest
    some ((key, value), rest)
  | _ => none

/-- The keys and values of the rest of a document, of which there are at most as many as there are
characters. -/
def entries? : Nat → List Char → Option (List (String × Value))
  | 0, _ => none
  | bound + 1, chars => do
    match ← skipVoid false chars with
    | [] => some []
    | chars =>
      let (first, rest) ← entry? chars
      let others ← entries? bound rest
      some (first :: others)

/-- The text without a byte order mark at its start. -/
def withoutMark : List Char → List Char
  | '\ufeff' :: rest => rest
  | chars => chars

/-- The keys and values of a document, in their order; none if the text is not well formed or a key
comes twice. -/
def document? (text : String) : Option (List (String × Value)) := do
  let chars ← joinLineEnds (withoutMark text.toList)
  let entries ← entries? (chars.length + 1) chars
  if (entries.map (·.1)).Pairwise (· ≠ ·) then some entries else none

end Phototaxis.Toml
