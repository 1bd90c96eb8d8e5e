/-!
# Finite floating-point numbers as dyadic fractions

A finite `Float` is `± m · 2 ^ q` for a natural `m` and an integer `q`. Everything
that has to be exact – the text of a number, the remainder of a division, the
conversion of seconds to nanoseconds – is computed on that pair, in natural
arithmetic, and not on the float.

`Magnitude.of` reads a float as one of the three things it can be, and
`Dyadic.toFloat` goes back. `Dyadic.ratio` writes `m · 2 ^ q · 10 ^ p` as a
quotient of naturals, and `roundQuotient` rounds such a quotient to the nearest
natural, ties to even.
-/

namespace Phototaxis

/-- The non-negative number `mantissa · 2 ^ exponent`. -/
structure Dyadic where
  mantissa : Nat
  exponent : Int
deriving DecidableEq, Repr

/-- The least mantissa of a float with all 53 bits, `2 ^ 52`. -/
def Dyadic.leastNormal : Nat := 0x10000000000000

/-- What a float stands for: no number, an infinity, or a signed dyadic fraction. -/
inductive Magnitude where
  | nan
  | infinite (negative : Bool)
  | finite (negative : Bool) (value : Dyadic)
deriving DecidableEq, Repr

namespace Magnitude

/-- The meaning of 64 bits: a sign, eleven bits of exponent, 52 of fraction. -/
def ofBits (bits : UInt64) : Magnitude :=
  let negative := bits >>> 63 == 1
  let exponent := ((bits >>> 52) &&& 0x7FF).toNat
  let fraction := (bits &&& 0xFFFFFFFFFFFFF).toNat
  if exponent == 0x7FF then
    if fraction == 0 then .infinite negative else .nan
  else if exponent == 0 then .finite negative ⟨fraction, -1074⟩
  else .finite negative ⟨Dyadic.leastNormal + fraction, exponent - 1075⟩

/-- The meaning of a float. -/
def of (x : Float) : Magnitude := ofBits x.toBits

end Magnitude

/-- A quotient of naturals rounded to the nearest natural; a half goes to the even neighbor. -/
def roundQuotient (num den : Nat) : Nat :=
  let quotient := num / den
  match compare (2 * (num % den)) den with
  | .lt => quotient
  | .gt => quotient + 1
  | .eq => if quotient % 2 == 0 then quotient else quotient + 1

namespace Dyadic

/-- Numerator and denominator of `mantissa · 2 ^ exponent · 10 ^ power`. -/
def ratio (x : Dyadic) (power : Int) : Nat × Nat :=
  (x.mantissa * Nat.pow 2 x.exponent.toNat * Nat.pow 10 power.toNat,
   Nat.pow 2 (-x.exponent).toNat * Nat.pow 10 (-power).toNat)

/-- The value times `10 ^ power`, rounded to the nearest natural, ties to even. -/
def roundScaled (x : Dyadic) (power : Int) : Nat :=
  roundQuotient (x.ratio power).1 (x.ratio power).2

/-- Whether the value is below `10 ^ power`. -/
def belowPower (x : Dyadic) (power : Int) : Bool :=
  (x.ratio (-power)).1 < (x.ratio (-power)).2

/-- The least `k` with the value below `10 ^ k`, for a value that is not zero. The binary
logarithm gives a first guess that is at most two too small. -/
def decimalScale (x : Dyadic) : Int :=
  let guess := (x.mantissa.log2 + x.exponent) * 30103 / 100000
  if x.belowPower guess then guess
  else if x.belowPower (guess + 1) then guess + 1
  else guess + 2

/-- The float with this magnitude and sign. A magnitude with more than 53 significant bits, or with
bits below `2 ^ -1074`, loses its lowest ones; one above the range gives an infinity. -/
def toFloat (x : Dyadic) (negative : Bool) : Float :=
  let sign : Nat := if negative then 1 <<< 63 else 0
  let exponent := max (-1074) (x.exponent + x.mantissa.log2 - 52)
  let shift := exponent - x.exponent
  let mantissa := (x.mantissa <<< (-shift).toNat) >>> shift.toNat
  let bits :=
    if mantissa < leastNormal then mantissa
    else if exponent > 971 then 0x7FF * leastNormal
    else (exponent + 1075).toNat * leastNormal + (mantissa - leastNormal)
  Float.ofBits (UInt64.ofNat (sign + bits))

end Dyadic

end Phototaxis
