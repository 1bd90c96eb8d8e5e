import Mathlib
import Phototaxis.CommandLine.Options
import Phototaxis.Proofs.Scenario.Populations
import Phototaxis.Scenario.Plan

/-!
# How a world is assembled

A world is put together from many sources: records and tables, of lights and of vehicles,
some of them named by the options and some by a scenario file. `Plan.sources` lists them
in the order in which they are looked at. Each is at fault, or not, by itself.

So the assembly fails with the fault of the first source that has one
(`Plan.error?_scenario`). The list of sources does not know the seed and the numbers of
items to generate, and generation never fails (`Plan.exists_generated`); hence they have no
part in whether the assembly fails, and with what.
If no source is at fault there is a world, and its populations hold what comes from the
sources in their order, and then what is generated (`Plan.scenario_eq_ok_iff`).

The options and the file meet in the plan already. What each of them contributes is told
apart again in `Options.world_assembled`.
-/

namespace Phototaxis

/-! ## Sources -/

/-- What a world takes its lights and vehicles from, apart from generated ones. -/
inductive Source where
  | lightRecord (record : String)
  | lightsTable (path : String)
  | vehicleRecord (record : String)
  | vehiclesTable (path : String)
deriving DecidableEq

/-- What is wrong with a source, taken by itself. -/
def Source.fault? (read : Files.Reader) : Source → Option ScenarioError
  | lightRecord record => error? (Light.ofRecord record)
  | lightsTable path => error? (Table.load read Table.lights path)
  | vehicleRecord record => error? (Vehicle.ofRecord record)
  | vehiclesTable path => error? (Table.load read Table.vehicles path)

namespace Plan

variable {plan : Plan} {read : Files.Reader} {world generated : Scenario}

/-- **What is generated**: the lights of the seed, and the vehicles that are drawn where the lights
have left the generator. -/
theorem generated_eq_ok_iff : plan.generated = .ok generated ↔
    generated.lights = ((Light.generate plan.randomLights).run (.ofSeed plan.seed)).1 ∧
      ((Vehicle.generate plan.randomVehicles).run
        ((Light.generate plan.randomLights).run (.ofSeed plan.seed)).2).1
          = .ok generated.vehicles := by
  show Except.map _ ((Vehicle.generate plan.randomVehicles).run _).1 = _ ↔ _
  rw [map_eq_ok_iff]
  constructor
  · rintro ⟨vehicles, hvehicles, rfl⟩
    exact ⟨rfl, hvehicles⟩
  · rintro ⟨hlights, hvehicles⟩
    exact ⟨generated.vehicles, hvehicles, congrArg (Scenario.mk · _) hlights.symm⟩

/-- **Generation never fails.** -/
theorem exists_generated (plan : Plan) : ∃ generated, plan.generated = .ok generated := by
  obtain ⟨vehicles, hvehicles, -⟩ := Vehicle.generate_eq_ok plan.randomVehicles
    ((Light.generate plan.randomLights).run (.ofSeed plan.seed)).2
  exact ⟨⟨_, vehicles⟩, generated_eq_ok_iff.mpr ⟨rfl, hvehicles⟩⟩

/-- The sources in the order in which they are looked at. -/
def sources (plan : Plan) : List Source :=
  plan.lightRecords.map .lightRecord ++ plan.lightsTable.toList.map .lightsTable ++
    plan.vehicleRecords.map .vehicleRecord ++ plan.vehiclesTable.toList.map .vehiclesTable

/-- A table that is not there is not at fault. -/
theorem error?_tableItems {α : Type} (items : List UInt8 → Except ScenarioError (List α))
    (path : Option String) : error? (tableItems read items path)
      = path.toList.findSome? fun path => error? (Table.load read items path) := by
  cases path with
  | none => rfl
  | some path =>
    rw [Option.toList_some, List.findSome?_singleton]
    rfl

theorem error?_givenLights (plan : Plan) (read : Files.Reader) :
    error? (plan.givenLights read) = (plan.lightRecords.map Source.lightRecord ++
      plan.lightsTable.toList.map Source.lightsTable).findSome? (Source.fault? read) := by
  rw [List.findSome?_append, List.findSome?_map, List.findSome?_map, givenLights,
    error?_bind (o := error? (tableItems read Table.lights plan.lightsTable)), error?_mapM,
    error?_tableItems]
  · rfl
  · intro records
    cases tableItems read Table.lights plan.lightsTable <;> rfl

theorem error?_givenVehicles (plan : Plan) (read : Files.Reader) :
    error? (plan.givenVehicles read) = (plan.vehicleRecords.map Source.vehicleRecord ++
      plan.vehiclesTable.toList.map Source.vehiclesTable).findSome? (Source.fault? read) := by
  rw [List.findSome?_append, List.findSome?_map, List.findSome?_map, givenVehicles,
    error?_bind (o := error? (tableItems read Table.vehicles plan.vehiclesTable)), error?_mapM,
    error?_tableItems]
  · rfl
  · intro records
    cases tableItems read Table.vehicles plan.vehiclesTable <;> rfl

/-- **The assembly fails with the fault of the first source that has one.** -/
theorem error?_scenario (plan : Plan) (read : Files.Reader) :
    error? (plan.scenario read) = plan.sources.findSome? (Source.fault? read) := by
  rw [sources, List.append_assoc, List.findSome?_append, ← error?_givenLights,
    ← error?_givenVehicles, scenario, error?_bind]
  intro lights
  obtain ⟨generated, hgenerated⟩ := plan.exists_generated
  rw [hgenerated]
  cases plan.givenVehicles read <;> rfl

/-- **What a world consists of**: what comes from the sources, and behind it what is generated. -/
theorem scenario_eq_ok_iff : plan.scenario read = .ok world ↔
    ∃ lights vehicles generated, plan.givenLights read = .ok lights ∧
      plan.givenVehicles read = .ok vehicles ∧ plan.generated = .ok generated ∧
      world = ⟨lights ++ generated.lights, vehicles ++ generated.vehicles⟩ := by
  obtain ⟨generated, hgenerated⟩ := plan.exists_generated
  rw [scenario, hgenerated, bind_eq_ok_iff]
  constructor
  · rintro ⟨lights, hlights, h⟩
    obtain ⟨vehicles, hvehicles, h⟩ := bind_eq_ok_iff.mp h
    exact ⟨lights, vehicles, generated, hlights, hvehicles, rfl, (Except.ok.inj h).symm⟩
  · rintro ⟨lights, vehicles, _, hlights, hvehicles, h, rfl⟩
    cases h
    exact ⟨lights, hlights, bind_eq_ok_iff.mpr ⟨vehicles, hvehicles, rfl⟩⟩

end Plan

/-! ## Options and a scenario file -/

namespace Options

/-- The sources of a world that options and a scenario file describe, in the order in which they are
looked at. -/
def sources (options : Options) (file : ScenarioFile) : List Source :=
  options.addLight.map .lightRecord ++ file.addLight.map .lightRecord ++
    file.lightsTable.toList.map .lightsTable ++ options.addVehicle.map .vehicleRecord ++
    file.addVehicle.map .vehicleRecord ++ file.vehiclesTable.toList.map .vehiclesTable

theorem sources_ofFile (options : Options) (file : ScenarioFile) :
    (Plan.ofFile (options.applyTo file)).sources = options.sources file := by
  show List.map Source.lightRecord (options.addLight ++ file.addLight) ++ _ ++
    List.map Source.vehicleRecord (options.addVehicle ++ file.addVehicle) ++ _ = _
  rw [List.map_append, List.map_append, ← List.append_assoc, sources]
  rfl

/-- **How a world is assembled from options and a scenario file.** There is a world exactly if no
source is at fault, and else the first fault among the sources is the error. In each population the
items of the options' records come first, then those of the file's records, then the rows of the
table, then the generated items. One generator makes both populations. Its seed and their numbers
are those of the options, where given, and else those of the file; they do not matter to the
error. -/
theorem world_assembled (options : Options) (file : ScenarioFile) (read : Files.Reader) :
    ((∃ world, (Plan.ofFile (options.applyTo file)).scenario read = .ok world) ↔
      ∀ source ∈ options.sources file, source.fault? read = none) ∧
    (∀ e, (Plan.ofFile (options.applyTo file)).scenario read = .error e ↔
      (options.sources file).findSome? (Source.fault? read) = some e) ∧
    ∀ world, (Plan.ofFile (options.applyTo file)).scenario read = .ok world →
      let lights := (Light.generate (options.randomLights.getD file.randomLights)).run
        (.ofSeed (options.seed.getD file.seed))
      let vehicles := (Vehicle.generate (options.randomVehicles.getD file.randomVehicles)).run
        lights.2
      ∃ lights₁ lights₂ lights₃ vehicles₁ vehicles₂ vehicles₃ generated,
        List.Forall₂ (fun record light => Light.ofRecord record = .ok light)
          options.addLight lights₁ ∧
        List.Forall₂ (fun record light => Light.ofRecord record = .ok light)
          file.addLight lights₂ ∧
        Plan.tableItems read Table.lights file.lightsTable = .ok lights₃ ∧
        List.Forall₂ (fun record vehicle => Vehicle.ofRecord record = .ok vehicle)
          options.addVehicle vehicles₁ ∧
        List.Forall₂ (fun record vehicle => Vehicle.ofRecord record = .ok vehicle)
          file.addVehicle vehicles₂ ∧
        Plan.tableItems read Table.vehicles file.vehiclesTable = .ok vehicles₃ ∧
        vehicles.1 = .ok generated ∧
        world = ⟨lights₁ ++ lights₂ ++ lights₃ ++ lights.1,
          vehicles₁ ++ vehicles₂ ++ vehicles₃ ++ generated⟩ := by
  have herror := Plan.error?_scenario (Plan.ofFile (options.applyTo file)) read
  rw [sources_ofFile] at herror
  refine ⟨?_, fun e => ?_, fun world h => ?_⟩
  · rw [← error?_eq_none_iff, herror, List.findSome?_eq_none_iff]
  · rw [← error?_eq_some_iff, herror]
  · obtain ⟨lights, vehicles, ⟨lights', vehicles'⟩, hlights, hvehicles, hgenerated, rfl⟩ :=
      Plan.scenario_eq_ok_iff.mp h
    obtain ⟨rfl, hgenerated⟩ := Plan.generated_eq_ok_iff.mp hgenerated
    obtain ⟨records, hrecords, hlights⟩ := bind_eq_ok_iff.mp hlights
    obtain ⟨rows, hrows, hlights⟩ := bind_eq_ok_iff.mp hlights
    obtain ⟨records', hrecords', hvehicles⟩ := bind_eq_ok_iff.mp hvehicles
    obtain ⟨rows', hrows', hvehicles⟩ := bind_eq_ok_iff.mp hvehicles
    obtain ⟨own, fromFile, hown, hfromFile, rfl⟩ := mapM_append_eq_ok_iff.mp hrecords
    obtain ⟨own', fromFile', hown', hfromFile', rfl⟩ := mapM_append_eq_ok_iff.mp hrecords'
    cases hlights
    cases hvehicles
    exact ⟨own, fromFile, rows, own', fromFile', rows', vehicles', mapM_eq_ok_iff.mp hown,
      mapM_eq_ok_iff.mp hfromFile, hrows, mapM_eq_ok_iff.mp hown', mapM_eq_ok_iff.mp hfromFile',
      hrows', hgenerated, rfl⟩

end Options

end Phototaxis
