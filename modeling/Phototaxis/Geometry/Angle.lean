import Phototaxis.Number.Remainder

/-!
# Angles

Angles are radians, counter-clockwise from the x axis. The dynamics never
normalises them; only what is displayed is wrapped into one turn. The wrap adds a
whole turn to a negative remainder with one rounding, so an angle that lies just
below zero is shown as the full turn.
-/

namespace Phototaxis.Angle

/-- Half a turn. -/
def half : Float := 3.14159265358979323846264338327950288

/-- A whole turn. -/
def whole : Float := 6.28318530717958647692528676655900577

/-- The angle reduced by whole turns to one that is not negative. -/
def wrap (angle : Float) : Float := Number.euclideanRemainder angle whole

/-- The angle in degrees. -/
def degrees (angle : Float) : Float := angle * (180.0 / half)

end Phototaxis.Angle
