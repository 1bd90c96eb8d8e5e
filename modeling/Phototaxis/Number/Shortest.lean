import Phototaxis.Number.Dyadic

/-!
# The fewest decimal digits that identify a float

The real numbers that round to a given float form an interval around it: from
halfway to the float below to halfway to the float above, with its ends exactly
when the mantissa is even. Among the decimals inside that interval, those with the
fewest digits identify the float most briefly, and of those the nearest one is
written. If two are equally near, the greater is written.

The search looks at the grids of one, two, … seventeen digits in turn. On each grid
only the two neighbors of the value can be the nearest decimal, so a grid is
settled by testing two slotsAround in natural arithmetic.
-/

namespace Phototaxis

/-- The number `digits · 10 ^ exponent`. -/
structure Decimal where
  digits : Nat
  exponent : Int
deriving DecidableEq, Repr

namespace Dyadic

/-- Whether the float below is only half as far away as the float above. This is so at the powers
of two, save the least normal one. -/
def narrowBelow (x : Dyadic) : Bool := x.mantissa == Dyadic.leastNormal && x.exponent > -1074

/-- Whether `candidate · 10 ^ grid` lies among the reals that round to `x`. -/
def readsBack (x : Dyadic) (candidate : Nat) (grid : Int) : Bool :=
  let unit : Nat × Nat := Dyadic.ratio ⟨1, x.exponent⟩ (-grid)
  let low := (4 * x.mantissa - if x.narrowBelow then 1 else 2) * unit.1
  let high := (4 * x.mantissa + 2) * unit.1
  let point := 4 * candidate * unit.2
  if x.mantissa % 2 == 0 then low ≤ point && point ≤ high else low < point && point < high

/-- The nearer of the value's two neighbors on the grid `10 ^ grid` that read back, if one does. -/
def neighbor? (x : Dyadic) (grid : Int) : Option Nat :=
  let (num, den) := x.ratio (-grid)
  let below := num / den
  match x.readsBack below grid, x.readsBack (below + 1) grid with
  | true, true => if 2 * num < (2 * below + 1) * den then some below else some (below + 1)
  | true, false => some below
  | false, true => some (below + 1)
  | false, false => none

/-- The value itself as a decimal. -/
def exactDecimal (x : Dyadic) : Decimal :=
  if x.exponent ≥ 0 then ⟨x.mantissa <<< x.exponent.toNat, 0⟩
  else ⟨x.mantissa * Nat.pow 5 (-x.exponent).toNat, x.exponent⟩

/-- The decimal of the first grid with a hit, trying `count`, `count + 1`, … digits; `tries` is the
number of grids still to be looked at. A hit at `10 ^ count` is the single digit 1. -/
def firstHit (x : Dyadic) (scale : Int) : (count tries : Nat) → Decimal
  | _, 0 => x.exactDecimal
  | count, tries + 1 =>
    match x.neighbor? (scale - count) with
    | some digits => if digits == Nat.pow 10 count then ⟨1, scale⟩ else ⟨digits, scale - count⟩
    | none => firstHit x scale (count + 1) tries

/-- The nearest of the decimals with the fewest digits that read back as `x`. Seventeen digits
always suffice. -/
def shortest (x : Dyadic) : Decimal :=
  if x.mantissa == 0 then ⟨0, 0⟩ else x.firstHit x.decimalScale 1 17

end Dyadic

end Phototaxis
