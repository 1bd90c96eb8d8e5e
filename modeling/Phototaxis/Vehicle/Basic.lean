import Phototaxis.Geometry.Vector
import Phototaxis.Vehicle.Behavior
import Phototaxis.Fault

/-!
# Vehicles

A vehicle has a position, a heading, a speed and a behavior. The speed is the length of the last
velocity; the heading is kept as it was computed and never wrapped.
-/

namespace Phototaxis

/-- One reactive vehicle. -/
structure Vehicle where
  position : Vector2
  heading : Float
  speed : Float
  behavior : Behavior
deriving Inhabited

namespace Vehicle

/-- A vehicle, provided that its speed is not negative. -/
def create (position : Vector2) (heading speed : Float) (behavior : Behavior) :
    Except Fault Vehicle :=
  if 0.0 ≤ speed then .ok ⟨position, heading, speed, behavior⟩ else .error (.speed speed)

/-- A follower that stands still and faces along the x axis. -/
def followerAt (position : Vector2) : Vehicle := ⟨position, 0.0, 0.0, .follower⟩

/-- The velocity. -/
def velocity (v : Vehicle) : Vector2 := Vector2.ofAngle v.heading * v.speed

/-- The vehicle with another speed; a negative one counts as zero, and so does one that is no
number. -/
def withSpeed (v : Vehicle) (speed : Float) : Vehicle :=
  { v with speed := Number.maxNumber speed 0.0 }

end Vehicle

end Phototaxis
