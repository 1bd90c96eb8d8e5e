import Phototaxis.Geometry.Vector

/-!
# Bounds of places

Bounds are an upright rectangle around some places, given by its lower and its upper
corner. Places are taken in one after the other. A coordinate that is no number is
less and greater than nothing: it takes the place of what was there before, and the
next coordinate takes its place in turn.

The distance of a point from the bounds is that of the nearest point of them.
-/

namespace Phototaxis

/-- An upright rectangle. -/
structure Bounds where
  lower : Vector2
  upper : Vector2
deriving Inhabited

namespace Bounds

/-- The greatest finite float. -/
def greatest : Float := 1.7976931348623157e308

/-- The bounds of no place, which any place widens. -/
def empty : Bounds := ⟨⟨greatest, greatest⟩, ⟨-greatest, -greatest⟩⟩

/-- The first coordinate if it is less, and else the second. -/
def lesser (x y : Float) : Float := if x < y then x else y

/-- The first coordinate if it is greater, and else the second. -/
def greater (x y : Float) : Float := if x > y then x else y

/-- The bounds with one more place. -/
def widen (b : Bounds) (place : Vector2) : Bounds :=
  ⟨⟨lesser b.lower.x place.x, lesser b.lower.y place.y⟩,
   ⟨greater b.upper.x place.x, greater b.upper.y place.y⟩⟩

/-- The bounds of some places. -/
def ofPlaces (places : List Vector2) : Bounds := places.foldl widen empty

/-- Whether a point lies within the bounds or on their edge. -/
def contains (b : Bounds) (point : Vector2) : Bool :=
  b.lower.x ≤ point.x && b.lower.y ≤ point.y && b.upper.x ≥ point.x && b.upper.y ≥ point.y

/-- The point of the bounds that is nearest to a point. -/
def nearest (b : Bounds) (point : Vector2) : Vector2 :=
  ⟨lesser b.upper.x (greater b.lower.x point.x), lesser b.upper.y (greater b.lower.y point.y)⟩

/-- The square of the distance of a point from the bounds. -/
def distanceSquared (b : Bounds) (point : Vector2) : Float :=
  if b.contains point then 0.0 else (b.nearest point - point).lengthSquared

end Bounds

end Phototaxis
