import Phototaxis.Number.Shortest

/-!
# The text of a number

Three forms are written. *Positional* text (`-0.00025`, `1000`) uses the fewest
digits that identify the number and never an exponent; *scientific* text
(`-2.5e-4`, `1e3`) lays the same digits out with one digit before the point; and
text with a fixed number of places, or of significant digits, rounds the exact
binary value, ties to even.

All of them write `NaN`, `inf` and `-inf` for what is no finite number, and keep
the sign of zero.
-/

namespace Phototaxis

/-- A run of zeros. -/
def zeros (count : Nat) : String := String.ofList (List.replicate count '0')

/-- The text filled up with blanks on the left to `width` characters. -/
def padLeft (width : Nat) (text : String) : String :=
  String.ofList (List.replicate (width - text.length) ' ') ++ text

/-- The text filled up with blanks on the right to `width` characters. -/
def padRight (width : Nat) (text : String) : String :=
  text ++ String.ofList (List.replicate (width - text.length) ' ')

/-- Digits with a point behind the first `whole` of them. -/
def withPoint (digits : String) (whole : Nat) : String :=
  let cs := digits.toList
  if whole < cs.length then
    String.ofList (cs.take whole) ++ "." ++ String.ofList (cs.drop whole)
  else digits

namespace Decimal

/-- Plain digits, with a point only where there is a fraction. -/
def positional (d : Decimal) : String :=
  let digits := toString d.digits
  let whole := digits.length + d.exponent
  if d.exponent ≥ 0 then
    if d.digits == 0 then "0" else digits ++ zeros d.exponent.toNat
  else if whole ≤ 0 then "0." ++ zeros (-whole).toNat ++ digits
  else withPoint digits whole.toNat

/-- One digit before the point, and the exponent behind an `e`. -/
def scientific (d : Decimal) : String :=
  let digits := toString d.digits
  let exponent : Int := if d.digits == 0 then 0 else digits.length + d.exponent - 1
  withPoint digits 1 ++ "e" ++ toString exponent

end Decimal

namespace Dyadic

/-- The value rounded to `places` decimal places, ties to even. -/
def fixed (places : Nat) (x : Dyadic) : String :=
  let digits := toString (x.roundScaled places)
  let padded := zeros (places + 1 - digits.length) ++ digits
  withPoint padded (padded.length - places)

/-- The value rounded to `count` significant digits, ties to even, with an exponent. Rounding up to
the next power of ten moves the exponent. -/
def significant (count : Nat) (x : Dyadic) : String :=
  if x.mantissa == 0 then withPoint (zeros count) 1 ++ "e0"
  else
    let scale := x.decimalScale
    let rounded := x.roundScaled (count - scale)
    if rounded == Nat.pow 10 count then
      withPoint (toString (Nat.pow 10 (count - 1))) 1 ++ "e" ++ toString scale
    else withPoint (toString rounded) 1 ++ "e" ++ toString (scale - 1)

end Dyadic

namespace Number

/-- The text of a float, given how a finite magnitude is laid out. -/
def textWith (layout : Dyadic → String) (x : Float) : String :=
  match Magnitude.of x with
  | .nan => "NaN"
  | .infinite negative => if negative then "-inf" else "inf"
  | .finite negative value => (if negative then "-" else "") ++ layout value

/-- The fewest digits that identify the number, never with an exponent. -/
def text (x : Float) : String := textWith (·.shortest.positional) x

/-- The fewest digits that identify the number, with an exponent. -/
def scientific (x : Float) : String := textWith (·.shortest.scientific) x

/-- Exactly `places` digits behind the point. -/
def fixed (places : Nat) (x : Float) : String := textWith (Dyadic.fixed places) x

/-- Exactly `count` significant digits, with an exponent. -/
def significant (count : Nat) (x : Float) : String := textWith (Dyadic.significant count) x

end Number

end Phototaxis
