/-!
# Quoted strings of TOML

A string stands between single or double quotes; three of either open a string that
may hold line feeds. Between single quotes every character stands for itself.
Between double quotes a backslash starts an escape: a letter, four or eight
hexadecimal digits behind `u` or `U`, or – in a string of several lines – the end of
a line, which is then skipped with all blanks and lines behind it.

A string of several lines may end in up to two quotes of its own. A line feed right
behind its opening quotes does not belong to it.

Line ends are line feeds here: `Toml.Document` replaces the pairs beforehand.
Scanning goes one character at a time; a `StringPhase` says what came before.
-/

namespace Phototaxis.Toml

/-- Whether a character may stand for itself in text: a tab, or no control character. -/
def isPlain (c : Char) : Bool := c == '\t' || (0x20 ≤ c.toNat && c.toNat ≠ 0x7F)

/-- The value of a hexadecimal digit. -/
def hexValue? (c : Char) : Option Nat :=
  if '0' ≤ c && c ≤ '9' then some (c.toNat - 48)
  else if 'a' ≤ c && c ≤ 'f' then some (c.toNat - 87)
  else if 'A' ≤ c && c ≤ 'F' then some (c.toNat - 55)
  else none

/-- The character with a number, unless the number is a surrogate or too great. -/
def scalar? (n : Nat) : Option Char :=
  if n < 0xD800 || (0xE000 ≤ n && n < 0x110000) then some (Char.ofNat n) else none

/-- The character that a letter behind a backslash stands for. -/
def escape? (c : Char) : Option Char :=
  if c == 'b' then some '\x08'
  else if c == 't' then some '\t'
  else if c == 'n' then some '\n'
  else if c == 'f' then some '\x0c'
  else if c == 'r' then some '\r'
  else if c == '"' then some '"'
  else if c == '\\' then some '\\'
  else none

/-- What came before the next character of a string. -/
inductive StringPhase where
  /-- Nothing of note. -/
  | plain
  /-- A backslash. -/
  | escaped
  /-- An escape that still wants so many digits, with the value of those before. -/
  | digits (left value : Nat)
  /-- A backslash and blanks, with or without a line feed among them. -/
  | lineEnd (seen : Bool)
  /-- So many quotes in a row. -/
  | quotes (count : Nat)

/-- How a string is written. -/
structure StringStyle where
  quote : Char
  /-- Whether it stands between three quotes on either side. -/
  long : Bool

/-- A step of the scanner: the string is over, or it goes on with a phase and its characters so
far, or it is no string. -/
inductive StringStep where
  | done (chars : List Char)
  | more (phase : StringPhase) (chars : List Char)
  | refused

namespace StringStyle

/-- Whether backslashes start an escape. -/
def escapes (style : StringStyle) : Bool := style.quote == '"'

/-- The step at a character with nothing of note before it. -/
def plainStep (style : StringStyle) (chars : List Char) (c : Char) : StringStep :=
  if c == style.quote then
    if style.long then .more (.quotes 1) chars else .done chars
  else if c == '\\' && style.escapes then .more .escaped chars
  else if isPlain c || (c == '\n' && style.long) then .more .plain (chars ++ [c])
  else .refused

/-- The step at the last digit of an escape. -/
def scalarStep (chars : List Char) (value : Nat) : StringStep :=
  match scalar? value with
  | some c => .more .plain (chars ++ [c])
  | none => .refused

/-- The step at a character. -/
def step (style : StringStyle) (phase : StringPhase) (chars : List Char) (c : Char) : StringStep :=
  match phase with
  | .plain => style.plainStep chars c
  | .escaped =>
    if c == 'u' then .more (.digits 4 0) chars
    else if c == 'U' then .more (.digits 8 0) chars
    else
      match escape? c with
      | some e => .more .plain (chars ++ [e])
      | none =>
        if style.long && (c == ' ' || c == '\t') then .more (.lineEnd false) chars
        else if style.long && c == '\n' then .more (.lineEnd true) chars
        else .refused
  | .digits left value =>
    match hexValue? c with
    | none => .refused
    | some d =>
      if left ≤ 1 then scalarStep chars (value * 16 + d)
      else .more (.digits (left - 1) (value * 16 + d)) chars
  | .lineEnd seen =>
    if c == ' ' || c == '\t' then .more (.lineEnd seen) chars
    else if c == '\n' then .more (.lineEnd true) chars
    else if seen then style.plainStep chars c
    else .refused
  | .quotes count =>
    if c == style.quote then
      if count < 5 then .more (.quotes (count + 1)) chars else .refused
    else if count < 3 then style.plainStep (chars ++ List.replicate count style.quote) c
    else .done (chars ++ List.replicate (count - 3) style.quote)

/-- The string and what follows it. A long string is over at the first character behind its closing
quotes, which follows it, or at the end of the text. -/
def scan (style : StringStyle) (phase : StringPhase) (chars : List Char) :
    List Char → Option (String × List Char)
  | [] =>
    match phase with
    | .quotes count =>
      if count < 3 then none
      else some (String.ofList (chars ++ List.replicate (count - 3) style.quote), [])
    | _ => none
  | c :: rest =>
    match style.step phase chars c with
    | .done chars => some (String.ofList chars, if style.long then c :: rest else rest)
    | .more phase chars => style.scan phase chars rest
    | .refused => none

end StringStyle

/-- The string of one line at the start of a text, and what follows it. -/
def shortString? : List Char → Option (String × List Char)
  | '"' :: rest => StringStyle.scan ⟨'"', false⟩ .plain [] rest
  | '\x27' :: rest => StringStyle.scan ⟨'\x27', false⟩ .plain [] rest
  | _ => none

/-- The string at the start of a text, and what follows it. -/
def string? : List Char → Option (String × List Char)
  | '"' :: '"' :: '"' :: '\n' :: rest => StringStyle.scan ⟨'"', true⟩ .plain [] rest
  | '"' :: '"' :: '"' :: rest => StringStyle.scan ⟨'"', true⟩ .plain [] rest
  | '\x27' :: '\x27' :: '\x27' :: '\n' :: rest => StringStyle.scan ⟨'\x27', true⟩ .plain [] rest
  | '\x27' :: '\x27' :: '\x27' :: rest => StringStyle.scan ⟨'\x27', true⟩ .plain [] rest
  | text => shortString? text

end Phototaxis.Toml
