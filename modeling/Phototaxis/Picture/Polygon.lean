import Phototaxis.Geometry.Angle
import Phototaxis.Picture.Light

/-!
# Outlines of halos

A halo is drawn as a polygon. The corners of the polygon around the origin with
radius one are computed once; scaled and moved they outline any halo.
-/

namespace Phototaxis.Picture

/-- The corners of a regular polygon around the origin with radius one. -/
structure Polygon where
  corners : List Vector2
deriving Inhabited

namespace Polygon

/-- The number of corners, unless it is chosen otherwise. -/
def standardCorners : Nat := 60

/-- The polygon of so many corners. -/
def ofCorners (count : Nat) : Polygon :=
  ⟨(List.range count).map fun i => .ofAngle (Angle.whole * Float.ofNat i / Float.ofNat count)⟩

/-- The number of corners. -/
def size (polygon : Polygon) : Nat := polygon.corners.length

/-- The closed outline of a halo around a center: the first corner comes again at the end. -/
def outline (polygon : Polygon) (center : Vector2) (halo : Halo) : List Vector2 :=
  let corners := polygon.corners.map fun corner => center + corner * halo.radius
  corners ++ corners.take 1

end Polygon

end Phototaxis.Picture
