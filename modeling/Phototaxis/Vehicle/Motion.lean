import Phototaxis.Light
import Phototaxis.Vehicle.Surroundings

/-!
# Motion

One tick of one vehicle. It looks at its neighbors, chooses a velocity by its
behavior, and moves:

* a follower adds to its damped velocity the mean pull towards its neighbors, a
  share of their mean velocity, the steering vector of the light field, and the
  push away from those that are too close;
* a clockwise leader keeps its velocity;
* a counter-clockwise leader turns its velocity at a constant rate.

The heading follows the velocity only above a least speed.
-/

namespace Phototaxis

namespace Motion

/-- The share of its velocity that a follower keeps. -/
def damping : Float := 0.8

/-- The divisor of the pull towards the neighbors. -/
def cohesionDivisor : Float := 2.0

/-- The divisor of the neighbors' mean velocity. -/
def alignmentDivisor : Float := 10.0

/-- The angle per second by which a counter-clockwise leader turns. -/
def turnRate : Float := 0.5

/-- The speed that must be exceeded for the heading to follow the velocity. -/
def headingSpeed : Float := 0.2

end Motion

namespace Vehicle

/-- The velocity that the vehicle chooses. -/
def nextVelocity (v : Vehicle) (dt : Float) (field : LightField) (seen : Surroundings) : Vector2 :=
  match v.behavior with
  | .follower =>
    v.velocity * Motion.damping + seen.cohesion / Motion.cohesionDivisor
      + seen.alignment / Motion.alignmentDivisor + field.steeringAt v.position + seen.repulsion
  | .leaderClockwise => v.velocity
  | .leaderCounterClockwise => (Vector2.ofAngle (Motion.turnRate * dt)).turn v.velocity

/-- The vehicle after moving with a velocity for `dt` seconds. -/
def move (v : Vehicle) (dt : Float) (velocity : Vector2) : Vehicle :=
  let speed := velocity.length
  { position := v.position + dt * velocity
    heading := if speed > Motion.headingSpeed then velocity.angle else v.heading
    speed := speed
    behavior := v.behavior }

/-- The vehicle `dt` seconds later, among the peers of the same moment. -/
def step (v : Vehicle) (dt : Float) (field : LightField) (peers : List Vehicle) : Vehicle :=
  v.move dt (v.nextVelocity dt field (.around v peers))

end Vehicle

end Phototaxis
