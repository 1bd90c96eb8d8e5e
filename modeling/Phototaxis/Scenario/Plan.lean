import Phototaxis.Scenario.File
import Phototaxis.Scenario.Generation
import Phototaxis.Scenario.Tables

/-!
# Plans of a world

A `Plan` collects what a world is made of: items at hand, records yet to be read,
paths of tables, and numbers of items to generate. `Plan.scenario` is the world. In
each population the items at hand come first, then the records, then the rows of
the table, then the generated items. All lights are read before all vehicles, and
the first failure leaves no world at all.

One generator makes both populations, lights before vehicles. It is seeded by the
plan alone, so what is read has no part in what is generated.
-/

namespace Phototaxis

/-- A complete initial world, every population in slot order. -/
structure Scenario where
  lights : List Light
  vehicles : List Vehicle
deriving Inhabited

/-- What a world is to be made of. -/
structure Plan where
  /-- The seed of the generator. -/
  seed : UInt64 := Generator.standardSeed
  lights : List Light := []
  vehicles : List Vehicle := []
  lightRecords : List String := []
  vehicleRecords : List String := []
  /-- The path of a table of lights. -/
  lightsTable : Option String := none
  /-- The path of a table of vehicles. -/
  vehiclesTable : Option String := none
  /-- The number of lights to generate. -/
  randomLights : Nat := 0
  /-- The number of vehicles to generate. -/
  randomVehicles : Nat := 0
deriving Inhabited

namespace Plan

/-- The plan that a scenario file describes. -/
def ofFile (file : ScenarioFile) : Plan :=
  { seed := file.seed
    lightRecords := file.addLight
    vehicleRecords := file.addVehicle
    lightsTable := file.lightsTable
    vehiclesTable := file.vehiclesTable
    randomLights := file.randomLights
    randomVehicles := file.randomVehicles }

/-- The plan with one more light behind those at hand. -/
def addLight (plan : Plan) (light : Light) : Plan :=
  { plan with lights := plan.lights ++ [light] }

/-- The plan with more lights behind those at hand. -/
def addLights (plan : Plan) (lights : List Light) : Plan :=
  { plan with lights := plan.lights ++ lights }

/-- The plan with one more vehicle behind those at hand. -/
def addVehicle (plan : Plan) (vehicle : Vehicle) : Plan :=
  { plan with vehicles := plan.vehicles ++ [vehicle] }

/-- The plan with more vehicles behind those at hand. -/
def addVehicles (plan : Plan) (vehicles : List Vehicle) : Plan :=
  { plan with vehicles := plan.vehicles ++ vehicles }

/-- The plan with one more record of a light. -/
def addLightRecord (plan : Plan) (record : String) : Plan :=
  { plan with lightRecords := plan.lightRecords ++ [record] }

/-- The plan with one more record of a vehicle. -/
def addVehicleRecord (plan : Plan) (record : String) : Plan :=
  { plan with vehicleRecords := plan.vehicleRecords ++ [record] }

/-- The items of a table, if there is one. -/
def tableItems {α : Type} (read : Files.Reader)
    (items : List UInt8 → Except ScenarioError (List α)) :
    Option String → Except ScenarioError (List α)
  | none => .ok []
  | some path => Table.load read items path

/-- The lights that are not generated. -/
def givenLights (plan : Plan) (read : Files.Reader) : Except ScenarioError (List Light) := do
  let records ← plan.lightRecords.mapM Light.ofRecord
  let rows ← tableItems read Table.lights plan.lightsTable
  return plan.lights ++ records ++ rows

/-- The vehicles that are not generated. -/
def givenVehicles (plan : Plan) (read : Files.Reader) : Except ScenarioError (List Vehicle) := do
  let records ← plan.vehicleRecords.mapM Vehicle.ofRecord
  let rows ← tableItems read Table.vehicles plan.vehiclesTable
  return plan.vehicles ++ records ++ rows

/-- The populations that are generated, unless a vehicle is refused. -/
def generated (plan : Plan) : Except Fault Scenario :=
  let draw : Draw (Except Fault Scenario) := do
    let lights ← Light.generate plan.randomLights
    let vehicles ← Vehicle.generate plan.randomVehicles
    return vehicles.map (⟨lights, ·⟩)
  (draw.run (.ofSeed plan.seed)).1

/-- The world of the plan. -/
def scenario (plan : Plan) (read : Files.Reader) : Except ScenarioError Scenario := do
  let lights ← plan.givenLights read
  let vehicles ← plan.givenVehicles read
  let generated ← plan.generated.mapError .misuse
  return ⟨lights ++ generated.lights, vehicles ++ generated.vehicles⟩

end Plan

end Phototaxis
