import Phototaxis.Picture.Polygon
import Phototaxis.Picture.Vehicle
import Phototaxis.Schedule.Event

/-!
# Scenes

A scene is what a renderer needs to draw a flock. At every frame it copies the
lights and the poses and moves the pulses forward; the phases of the pulses are all
that it keeps from one frame to the next. They start afresh when the number of
lights changes.
-/

namespace Phototaxis

/-- The pictures of a flock. -/
structure Scene where
  lights : List LightPicture := []
  vehicles : List VehiclePicture := []
  /-- The tick of the last frame. -/
  tick : Tick := .zero
  /-- The number of frames. -/
  frames : UInt64 := 0
  /-- The simulated seconds shown so far. -/
  shownSeconds : Float := 0.0
  /-- The polygon that outlines the halos. -/
  polygon : Picture.Polygon := .ofCorners Picture.Polygon.standardCorners
deriving Inhabited

namespace Scene

/-- The pictures of the lights, brought up to date. -/
def updateLights (pictures : List LightPicture) (lights : List Light) : List LightPicture :=
  if pictures.length = lights.length then List.zipWith LightPicture.update pictures lights
  else lights.map LightPicture.ofLight

/-- The pictures of the vehicles, brought up to date. -/
def updateVehicles (pictures : List VehiclePicture) (flock : Flock) : List VehiclePicture :=
  if pictures.length = flock.size then
    List.zipWith VehiclePicture.update pictures flock.vehicles.toList
  else flock.numbered.map fun (id, vehicle) => .ofVehicle id vehicle

/-- The scene brought up to date. -/
def update (scene : Scene) (flock : Flock) : Scene :=
  { scene with
    lights := updateLights scene.lights flock.lights.lights.toList
    vehicles := updateVehicles scene.vehicles flock }

/-- The first scene of a flock. -/
def ofFlock (flock : Flock) : Scene := update {} flock

/-- The scene after so many more simulated seconds. -/
def advance (scene : Scene) (elapsed : Float) (flock : Flock) : Scene :=
  let updated := scene.update flock
  { updated with
    lights := updated.lights.map (·.advance elapsed)
    shownSeconds := updated.shownSeconds + elapsed }

/-- The scene after one more frame. -/
def onFrame (scene : Scene) (tick : Tick) (elapsed : Float) (flock : Flock) : Scene :=
  { scene.advance elapsed flock with tick := tick, frames := scene.frames + 1 }

/-- The picture of the vehicle in a slot. -/
def vehicle? (scene : Scene) (id : VehicleId) : Option VehiclePicture :=
  scene.vehicles[id.index]?

/-- The observer that keeps a scene. -/
def observer : Observer Scene
  | .frame tick elapsed flock, scene => scene.onFrame tick elapsed flock
  | _, scene => scene

end Scene

end Phototaxis
