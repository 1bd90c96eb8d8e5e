import Phototaxis.Number.Dyadic

/-!
# Remainder and maximum

Two operations on floats with a rule of their own. The remainder of a division is
exact – no rounding takes place – because the dyadic remainder always fits the
float format; `euclideanRemainder` then adds the modulus once, rounded, to a
negative remainder. `maxNumber` prefers a number to what is not one.
-/

namespace Phototaxis.Number

/-- The remainder of the division of `x` by `y` with the quotient cut off towards zero. It has the
sign of `x`, also when it is zero. -/
def remainder (x y : Float) : Float :=
  match Magnitude.of x, Magnitude.of y with
  | .finite negative a, .finite _ b =>
    if b.mantissa == 0 then 0.0 / 0.0
    else
      let exponent := min a.exponent b.exponent
      let dividend := a.mantissa <<< (a.exponent - exponent).toNat
      let divisor := b.mantissa <<< (b.exponent - exponent).toNat
      Dyadic.toFloat ⟨dividend % divisor, exponent⟩ negative
  | .finite _ _, .infinite _ => x
  | _, _ => 0.0 / 0.0

/-- The remainder, with the modulus added where it is below zero. -/
def euclideanRemainder (x modulus : Float) : Float :=
  let r := remainder x modulus
  if r < 0.0 then r + modulus else r

/-- The greater of two floats; of two equal ones the second, and a NaN gives way to the other. -/
def maxNumber (x y : Float) : Float := if y < x || y.isNaN then x else y

end Phototaxis.Number
