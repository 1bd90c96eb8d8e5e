import Phototaxis.Fault
import Phototaxis.Random.Generator

/-!
# Uniform numbers

A draw from a range scales a number between zero and one to the width of the range.
Rounding may carry the result on to the upper end. A half-open range then draws
again; a closed range shrinks its scale beforehand, one float at a time, until its
greatest result stays inside.

Drawing from a range is total. `fault?` says whether the range is one to draw from,
and `checkedDraw` asks it first.
-/

namespace Phototaxis

/-- The floats from `low` up to, and without, `high`. -/
structure HalfOpenRange where
  low : Float
  high : Float

/-- The floats from `low` up to `high`. -/
structure ClosedRange where
  low : Float
  high : Float

namespace HalfOpenRange

/-- What keeps the range from being drawn from. -/
def fault? (r : HalfOpenRange) : Option Fault :=
  if !(r.low < r.high) then some .emptyRange
  else if !r.low.isFinite then some (.lowEnd .halfOpen)
  else if !r.high.isFinite then some (.highEnd .halfOpen)
  else if !(r.high - r.low).isFinite then some (.wideRange .halfOpen)
  else none

/-- Draws until the result is below the upper end, at most so many times. -/
def drawBelow (r : HalfOpenRange) : Nat → Draw Float
  | 0 => pure r.low
  | tries + 1 => do
    let result := (← Draw.unit) * (r.high - r.low) + r.low
    if result < r.high then return result
    drawBelow r tries

/-- A number of the range. -/
def draw (r : HalfOpenRange) : Draw Float := r.drawBelow Draw.attempts

/-- A number of the range, if the range is one to draw from. -/
def checkedDraw (r : HalfOpenRange) : Except Fault (Draw Float) :=
  match r.fault? with
  | some fault => .error fault
  | none => .ok r.draw

end HalfOpenRange

namespace ClosedRange

/-- The greatest number that `Draw.unit` yields. -/
def greatestUnit : Float := 1.0 - 1.0 / 4503599627370496.0

/-- The width of the range, widened so that the greatest unit reaches its upper end. -/
def width (r : ClosedRange) : Float := (r.high - r.low) / greatestUnit

/-- What keeps the range from being drawn from. -/
def fault? (r : ClosedRange) : Option Fault :=
  if !(r.low ≤ r.high) then some .emptyRange
  else if !r.low.isFinite then some (.lowEnd .closed)
  else if !r.high.isFinite then some (.highEnd .closed)
  else if !r.width.isFinite then some (.wideRange .closed)
  else none

/-- The greatest scale, among the floats whose bits are at most a given number, that keeps every
result inside the range. -/
def scaleFrom (r : ClosedRange) : Nat → Float
  | 0 => 0.0
  | bits + 1 =>
    let scale := Float.ofBits (.ofNat (bits + 1))
    if scale * greatestUnit + r.low > r.high then scaleFrom r bits else scale

/-- The factor of the unit. -/
def scale (r : ClosedRange) : Float := r.scaleFrom r.width.toBits.toNat

/-- A number of the range. -/
def draw (r : ClosedRange) : Draw Float := do return (← Draw.unit) * r.scale + r.low

/-- A number of the range, if the range is one to draw from. -/
def checkedDraw (r : ClosedRange) : Except Fault (Draw Float) :=
  match r.fault? with
  | some fault => .error fault
  | none => .ok r.draw

end ClosedRange

end Phototaxis
