import Phototaxis.Geometry.Angle

/-!
# Vectors of the plane

World coordinates are floats without a unit. Every operation is written out by
component, in the order in which it is rounded, so that two computations of one
quantity agree bit for bit when they are the same expression.

Sines, cosines and angles come from the platform, whose functions cannot be looked
into. What is relied on is put down beside them: the sine and the cosine of a finite
angle are at most one in magnitude, and the angle of a vector of numbers is at most half
a turn. No platform gives anything else, so the values that stand for it are never taken.
-/

namespace Phototaxis

/-- A vector of the plane. -/
structure Vector2 where
  x : Float
  y : Float
deriving Inhabited

namespace Vector2

/-- The origin. -/
def zero : Vector2 := ⟨0.0, 0.0⟩

instance : Add Vector2 := ⟨fun v w => ⟨v.x + w.x, v.y + w.y⟩⟩

instance : Sub Vector2 := ⟨fun v w => ⟨v.x - w.x, v.y - w.y⟩⟩

instance : Neg Vector2 := ⟨fun v => ⟨-v.x, -v.y⟩⟩

instance : HMul Vector2 Float Vector2 := ⟨fun v s => ⟨v.x * s, v.y * s⟩⟩

instance : HMul Float Vector2 Vector2 := ⟨fun s v => ⟨s * v.x, s * v.y⟩⟩

instance : HDiv Vector2 Float Vector2 := ⟨fun v s => ⟨v.x / s, v.y / s⟩⟩

/-- The square of the length. -/
def lengthSquared (v : Vector2) : Float := v.x * v.x + v.y * v.y

/-- The length. -/
def length (v : Vector2) : Float := v.lengthSquared.sqrt

/-- The length, but at least `floor`. Every quotient by a distance divides by this, so that
coincident points divide by no zero. -/
def lengthAtLeast (v : Vector2) (floor : Float) : Float := Number.maxNumber v.length floor

/-- Whether both coordinates are numbers. -/
def isDefined (v : Vector2) : Bool := !v.x.isNaN && !v.y.isNaN

/-- Whether both coordinates are finite. -/
def isFinite (v : Vector2) : Bool := v.x.isFinite && v.y.isFinite

/-- A sine or a cosine of an angle; zero stands for what cannot be one. -/
def unitCoordinate (angle value : Float) : Float :=
  if angle.isFinite && !(-1.0 ≤ value && value ≤ 1.0) then 0.0 else value

/-- The unit vector that points along an angle, counter-clockwise from the x axis. -/
def ofAngle (angle : Float) : Vector2 :=
  ⟨unitCoordinate angle angle.cos, unitCoordinate angle angle.sin⟩

/-- The angle of the vector, from `-π` to `π`; zero stands for what cannot be one. -/
def angle (v : Vector2) : Float :=
  let angle := Float.atan2 v.y v.x
  if v.isDefined && !(-Angle.half ≤ angle && angle ≤ Angle.half) then 0.0 else angle

/-- The vector `w` turned by the angle of the unit vector `r`. -/
def turn (r w : Vector2) : Vector2 := ⟨r.x * w.x - r.y * w.y, r.y * w.x + r.x * w.y⟩

end Vector2

end Phototaxis
