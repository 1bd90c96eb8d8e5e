import Phototaxis.Flock.Basic
import Phototaxis.Time.Simulated

/-!
# Rows of a trajectory

A recorded frame is written as one row for every vehicle, in slot order, and one
summary row.
-/

namespace Phototaxis

/-- One vehicle in one recorded frame. -/
structure VehicleRow where
  frame : UInt64
  tick : Tick
  vehicle : VehicleId
  x : Float
  y : Float
  heading : Float
  speed : Float
  /-- The name of the behavior. -/
  behavior : String

/-- All of one recorded frame. -/
structure FrameSummary where
  frame : UInt64
  tick : Tick
  /-- The simulated seconds since the last frame that was handed over. -/
  elapsed : Float
  /-- The simulated seconds since the start. -/
  total : Float
  vehicleCount : UInt64
  /-- The mean speed; zero for an empty flock. -/
  meanSpeed : Float

/-- The row of the vehicle in a slot. -/
def VehicleRow.ofVehicle (frame : UInt64) (tick : Tick) (id : VehicleId) (vehicle : Vehicle) :
    VehicleRow :=
  ⟨frame, tick, id, vehicle.position.x, vehicle.position.y, vehicle.heading, vehicle.speed,
    vehicle.behavior.name⟩

namespace Flock

/-- The rows of all vehicles. -/
def rows (flock : Flock) (frame : UInt64) (tick : Tick) : List VehicleRow :=
  flock.numbered.map fun (id, vehicle) => .ofVehicle frame tick id vehicle

/-- The mean speed. The sum starts at negative zero. -/
def meanSpeed (flock : Flock) : Float :=
  if flock.isEmpty then 0.0
  else
    flock.vehicles.foldl (fun sum vehicle => sum + vehicle.speed) (-0.0) / Float.ofNat flock.size

end Flock

end Phototaxis
