import Phototaxis.Flock.PeerSearch
import Phototaxis.Flock.Population
import Phototaxis.Scenario.Plan
import Phototaxis.Vehicle.Motion

/-!
# The flock

A flock is a field of lights and a population that moves through it. A step computes
every vehicle of the next generation from the current one and the lights, and then
makes it the current one. Between two steps lights and vehicles may be edited. If the
search for peers fails, nothing is written.
-/

namespace Phototaxis

/-- Lights and vehicles, and how the vehicles find their peers. -/
structure Flock where
  lights : LightField
  population : Population
  search : PeerSearch
deriving Inhabited

namespace Flock

/-- The flock of some lights and vehicles. -/
def ofArray (lights : LightField) (vehicles : Array Vehicle) : Flock :=
  ⟨lights, .ofArray vehicles, default⟩

/-- The flock of an initial world. -/
def ofScenario (scenario : Scenario) : Flock :=
  ofArray (.ofList scenario.lights) scenario.vehicles.toArray

/-- The flock with another search. -/
def withSearch (flock : Flock) (search : PeerSearch) : Flock := { flock with search := search }

/-- The current generation, in slot order. -/
def vehicles (flock : Flock) : Array Vehicle := flock.population.current

/-- The number of vehicles. -/
def size (flock : Flock) : Nat := flock.population.size

/-- Whether there is no vehicle. -/
def isEmpty (flock : Flock) : Bool := flock.population.isEmpty

/-- The vehicle in a slot. -/
def vehicle? (flock : Flock) (id : VehicleId) : Option Vehicle := flock.vehicles[id.index]?

/-- The vehicles with their slot numbers. -/
def numbered (flock : Flock) : List (VehicleId × Vehicle) :=
  flock.vehicles.toList.zipIdx.map fun (vehicle, i) => (.numbering i, vehicle)

/-- The flock with the vehicle in a slot changed. -/
def modifyVehicle (flock : Flock) (id : VehicleId) (change : Vehicle → Vehicle) : Flock :=
  { flock with population := flock.population.modify id.index change }

/-- The flock with the light in a slot changed. -/
def modifyLight (flock : Flock) (id : LightId) (change : Light → Light) : Flock :=
  { flock with lights := flock.lights.modify id change }

/-- The flock `dt` seconds later, unless its vehicles cannot be searched. -/
def step (flock : Flock) (dt : Float) : Except Fault Flock := do
  let peers ← flock.search.peers flock.vehicles
  return { flock with
    population := flock.population.step fun me => me.step dt flock.lights (peers me) }

end Flock

end Phototaxis
