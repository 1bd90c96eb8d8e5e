import Phototaxis.Number.Dyadic

/-!
# Number literals

A literal is an optional sign followed by `inf`, `infinity` or `nan` in any case, or
by decimal digits with an optional point – a digit on at least one side of it – and
an optional exponent of at least one digit. Only ASCII counts: no blanks, no
separators, no other digits.

`Literal.ofChars?` recognises exactly this grammar, and `Literal.toFloat` gives the
nearest float, ties to even. An exponent may have any length: a value above the
range is an infinity, one below it a zero.
-/

namespace Phototaxis

/-- What a number literal says. -/
inductive Literal where
  | nan
  | infinity (negative : Bool)
  /-- The number `± digits · 10 ^ exponent`. -/
  | decimal (negative : Bool) (digits : Nat) (exponent : Int)
deriving DecidableEq, Repr

namespace Literal

/-- The natural number that a list of decimal digits spells. -/
def digitsValue (digits : List Char) : Nat :=
  digits.foldl (fun value c => 10 * value + (c.toNat - '0'.toNat)) 0

/-- Splits off an optional sign; `true` stands for minus. -/
def splitSign : List Char → Bool × List Char
  | '-' :: rest => (true, rest)
  | '+' :: rest => (false, rest)
  | chars => (false, chars)

/-- Splits off the leading decimal digits. -/
def splitDigits (chars : List Char) : List Char × List Char :=
  (chars.takeWhile Char.isDigit, chars.dropWhile Char.isDigit)

/-- Reads what follows the mantissa: nothing, or a whole exponent. -/
def exponent? : List Char → Option Int
  | [] => some 0
  | mark :: rest =>
    if mark == 'e' || mark == 'E' then
      let (negative, digits) := splitSign rest
      if digits.isEmpty || !digits.all Char.isDigit then none
      else some (if negative then -(digitsValue digits : Int) else digitsValue digits)
    else none

/-- Splits off the fraction, if a point follows. -/
def splitFraction : List Char → List Char × List Char
  | '.' :: rest => splitDigits rest
  | chars => ([], chars)

/-- Reads an unsigned decimal. -/
def decimal? (negative : Bool) (chars : List Char) : Option Literal :=
  let (whole, rest) := splitDigits chars
  let (fraction, rest) := splitFraction rest
  if whole.isEmpty && fraction.isEmpty then none
  else (exponent? rest).map fun e =>
    .decimal negative (digitsValue (whole ++ fraction)) (e - fraction.length)

/-- Reads a whole literal. -/
def ofChars? (chars : List Char) : Option Literal :=
  let (negative, body) := splitSign chars
  let lower := body.map Char.toLower
  if lower == "inf".toList || lower == "infinity".toList then some (.infinity negative)
  else if lower == "nan".toList then some .nan
  else decimal? negative body

/-- The nearest non-negative float to `digits · 10 ^ exponent`. Far outside the range the answer is
known from the number of digits, and no power is computed. -/
def nearest (digits : Nat) (exponent : Int) : Float :=
  let leading := (toString digits).length + exponent
  if digits == 0 || leading < -400 then 0.0
  else if leading > 400 then 1.0 / 0.0
  else Float.ofScientific digits (exponent < 0) exponent.natAbs

/-- The float nearest to what the literal says. -/
def toFloat : Literal → Float
  | .nan => 0.0 / 0.0
  | .infinity negative => if negative then -(1.0 / 0.0) else 1.0 / 0.0
  | .decimal negative digits exponent =>
    if negative then -(nearest digits exponent) else nearest digits exponent

end Literal

namespace Number

/-- The float that a text spells, if it is a literal. -/
def ofText? (text : String) : Option Float := (Literal.ofChars? text.toList).map Literal.toFloat

/-- The natural number that a text spells: an optional plus sign and decimal digits. -/
def natural? (text : String) : Option Nat :=
  let digits := match text.toList with
    | '+' :: rest => rest
    | chars => chars
  if digits.isEmpty || !digits.all Char.isDigit then none else some (Literal.digitsValue digits)

end Number

end Phototaxis
