import Phototaxis.Random.Generator
import Phototaxis.Random.NormalTables

/-!
# Normal numbers

A standard normal number is found by choosing one of the layers under the bell curve
and a point in it. A point left of the next edge is under the curve for certain;
another one is tested against the curve itself, and rejected ones are drawn anew.
The base layer has a tail, which is drawn by its own rejection rule.

A deviation that is negative or not finite draws nothing and gives the mean.
-/

namespace Phototaxis.Draw

/-- A multiple of `2 ^ -53` from zero up to, and without, one. -/
def fraction : Draw Float := do
  return ((← word) >>> 11).toFloat * (1.0 / 9007199254740992.0)

/-- A number between zero and one, without both. -/
def openUnit : Draw Float := do
  return Float.ofBits (((← word) >>> 12) ||| 0x3FF0000000000000) - (1.0 - 1.0 / 9007199254740992.0)

/-- The logarithm of a number of `openUnit`, which lies between `-64` and zero; zero stands for what
cannot be one. -/
def logarithm (a : Float) : Float :=
  let l := a.log
  if -64.0 ≤ l && l ≤ 0.0 then l else 0.0

/-- Draws a distance into the tail until one is accepted, at most so many times. -/
def tailDistance (x y : Float) : Nat → Draw Float
  | 0 => pure x
  | tries + 1 => do
    if !(-2.0 * y < x * x) then return x
    let a ← openUnit
    let b ← openUnit
    tailDistance (logarithm a / Random.tailStart) (logarithm b) tries

/-- A number of the tail, on the side of `u`. -/
def tail (u : Float) : Draw Float := do
  let x ← tailDistance 1.0 0.0 attempts
  return if u < 0.0 then x - Random.tailStart else Random.tailStart - x

/-- Draws a point under the bell curve, at most so many times. -/
def underCurve : Nat → Draw Float
  | 0 => pure 0.0
  | tries + 1 => do
    let bits ← word
    let layer := (bits &&& 0xFF).toNat
    let u := Float.ofBits ((bits >>> 12) ||| 0x4000000000000000) - 3.0
    let x := u * Random.layerEdge.getD layer 0.0
    if x.abs < Random.layerEdge.getD (layer + 1) 0.0 then return x
    if layer = 0 then tail u
    else
      let above := Random.layerHeight.getD (layer + 1) 1.0
      let below := Random.layerHeight.getD layer 0.0
      let height := above + (below - above) * (← fraction)
      if height < (-x * x / 2.0).exp then return x
      underCurve tries

/-- A standard normal number. -/
def standardNormal : Draw Float := underCurve attempts

/-- A normal number of mean zero and the given deviation. -/
def normal (deviation : Float) : Draw Float :=
  if deviation.isFinite && 0.0 ≤ deviation then
    return 0.0 + deviation * (← standardNormal)
  else pure 0.0

end Phototaxis.Draw
