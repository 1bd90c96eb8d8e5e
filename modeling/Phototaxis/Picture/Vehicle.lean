import Phototaxis.Geometry.Angle
import Phototaxis.Slot
import Phototaxis.Vehicle.Basic

/-!
# Pictures of vehicles

A vehicle is drawn at its place, turned by its heading. The heading is kept as the
dynamics has it; only what is shown is reduced to one turn.
-/

namespace Phototaxis

/-- The picture of a vehicle. -/
structure VehiclePicture where
  id : VehicleId
  position : Vector2
  /-- The heading as the dynamics has it. -/
  heading : Float
deriving Inhabited

namespace VehiclePicture

/-- The picture of the vehicle in a slot. -/
def ofVehicle (id : VehicleId) (vehicle : Vehicle) : VehiclePicture :=
  ⟨id, vehicle.position, vehicle.heading⟩

/-- The picture after the vehicle moved. -/
def update (picture : VehiclePicture) (vehicle : Vehicle) : VehiclePicture :=
  { picture with position := vehicle.position, heading := vehicle.heading }

/-- The heading to show. -/
def shownHeading (picture : VehiclePicture) : Float := Angle.wrap picture.heading

/-- The heading to show, in degrees. -/
def shownDegrees (picture : VehiclePicture) : Float := Angle.degrees picture.shownHeading

end VehiclePicture

end Phototaxis
