import Mathlib.Data.List.DropRight
import Phototaxis.Proofs.Scenario.Assembly

/-!
# What is generated stands alone

One generator makes both populations of a world, and its numbers depend on how many were
drawn before. If anything else were drawn from it, or drawn in another order, every item
behind would be another one. But it is seeded by the plan, draws the lights and then the
vehicles, and nothing else draws from it.

So two worlds with the same seed and the same number of generated lights end with the same
lights, whatever else is in their plans and on their disks; and with the same number of
generated vehicles too they end with the same vehicles (`Plan.generation_isolated`). The
number of generated vehicles has no part in the lights, since these are drawn first.
-/

namespace Phototaxis

namespace Plan

variable {plan plan₁ plan₂ : Plan} {read read₁ read₂ : Files.Reader}
variable {world world₁ world₂ generated generated₁ generated₂ : Scenario}

/-! ## What is drawn -/

/-- **The generated lights** are those of the seed and their number alone. -/
theorem lights_of_generated (h₁ : plan₁.generated = .ok generated₁)
    (h₂ : plan₂.generated = .ok generated₂) (hseed : plan₁.seed = plan₂.seed)
    (hlights : plan₁.randomLights = plan₂.randomLights) :
    generated₁.lights = generated₂.lights := by
  rw [(generated_eq_ok_iff.mp h₁).1, (generated_eq_ok_iff.mp h₂).1, hseed, hlights]

/-- **The generated vehicles** are drawn where the lights have left the generator. -/
theorem vehicles_of_generated (h₁ : plan₁.generated = .ok generated₁)
    (h₂ : plan₂.generated = .ok generated₂) (hseed : plan₁.seed = plan₂.seed)
    (hlights : plan₁.randomLights = plan₂.randomLights)
    (hvehicles : plan₁.randomVehicles = plan₂.randomVehicles) :
    generated₁.vehicles = generated₂.vehicles := by
  have hdrawn := (generated_eq_ok_iff.mp h₁).2
  rw [hseed, hlights, hvehicles, (generated_eq_ok_iff.mp h₂).2] at hdrawn
  exact (Except.ok.inj hdrawn).symm

theorem length_of_generated (h : plan.generated = .ok generated) :
    generated.lights.length = plan.randomLights ∧
      generated.vehicles.length = plan.randomVehicles := by
  obtain ⟨hlights, hvehicles⟩ := generated_eq_ok_iff.mp h
  obtain ⟨vehicles, hmade, hcount, -⟩ := Vehicle.generate_eq_ok plan.randomVehicles
    ((Light.generate plan.randomLights).run (.ofSeed plan.seed)).2
  refine ⟨hlights ▸ Draw.length_replicate _ _ _, ?_⟩
  rw [Except.ok.inj (hvehicles.symm.trans hmade), hcount]

/-! ## Where it stands -/

/-- The last items of a list are those that were put behind it. -/
theorem rtake_append_of_length {α : Type} {l l' : List α} {n : Nat} (h : l'.length = n) :
    (l ++ l').rtake n = l' := by
  rw [List.rtake, List.length_append, h, Nat.add_sub_cancel, List.drop_left]

/-- **A world ends with what is generated.** -/
theorem rtake_of_scenario (h : plan.scenario read = .ok world) :
    ∃ generated, plan.generated = .ok generated ∧
      world.lights.rtake plan.randomLights = generated.lights ∧
      world.vehicles.rtake plan.randomVehicles = generated.vehicles := by
  obtain ⟨lights, vehicles, generated, -, -, hgenerated, rfl⟩ := scenario_eq_ok_iff.mp h
  obtain ⟨hlights, hvehicles⟩ := length_of_generated hgenerated
  exact ⟨generated, hgenerated, rtake_append_of_length hlights, rtake_append_of_length hvehicles⟩

/-- How many lights and vehicles there are: the items at hand, the records, the rows of the table
and what is generated. -/
structure Sized (plan : Plan) (read : Files.Reader) (world : Scenario) : Prop where
  lights : ∃ rows, tableItems read Table.lights plan.lightsTable = .ok rows ∧
    world.lights.length
      = plan.lights.length + plan.lightRecords.length + rows.length + plan.randomLights
  vehicles : ∃ rows, tableItems read Table.vehicles plan.vehiclesTable = .ok rows ∧
    world.vehicles.length
      = plan.vehicles.length + plan.vehicleRecords.length + rows.length + plan.randomVehicles

/-- The items at hand, as many as there are records, and the rows. -/
theorem length_of_given {α ε : Type} {items found : List α} {records : List String}
    {ofRecord : String → Except ε α} {table : Except ε (List α)}
    (h : (do
      let read ← records.mapM ofRecord
      let rows ← table
      return items ++ read ++ rows : Except ε (List α)) = .ok found) :
    ∃ rows, table = .ok rows ∧ found.length = items.length + records.length + rows.length := by
  obtain ⟨read, hread, h⟩ := bind_eq_ok_iff.mp h
  obtain ⟨rows, hrows, h⟩ := bind_eq_ok_iff.mp h
  cases h
  refine ⟨rows, hrows, ?_⟩
  rw [List.length_append, List.length_append, (mapM_eq_ok_iff.mp hread).length_eq]

/-- **The populations of a world have the sizes that its plan says.** -/
theorem sized_of_scenario (h : plan.scenario read = .ok world) : plan.Sized read world := by
  obtain ⟨lights, vehicles, generated, hlights, hvehicles, hgenerated, rfl⟩ :=
    scenario_eq_ok_iff.mp h
  obtain ⟨hlightsCount, hvehiclesCount⟩ := length_of_generated hgenerated
  obtain ⟨lightRows, hlightRows, hlightCount⟩ := length_of_given hlights
  obtain ⟨vehicleRows, hvehicleRows, hvehicleCount⟩ := length_of_given hvehicles
  constructor
  · refine ⟨lightRows, hlightRows, ?_⟩
    rw [List.length_append, hlightCount, hlightsCount]
  · refine ⟨vehicleRows, hvehicleRows, ?_⟩
    rw [List.length_append, hvehicleCount, hvehiclesCount]

/-- **Generation is isolated from everything else.** Two worlds whose plans have the same seed and
the same number of generated lights end with the same lights, also if the numbers of generated
vehicles differ; if these are the same too, they end with the same vehicles. Whatever the plans
have besides adds to the sizes of the populations only. -/
theorem generation_isolated (h₁ : plan₁.scenario read₁ = .ok world₁)
    (h₂ : plan₂.scenario read₂ = .ok world₂) (hseed : plan₁.seed = plan₂.seed)
    (hlights : plan₁.randomLights = plan₂.randomLights) :
    world₁.lights.rtake plan₁.randomLights = world₂.lights.rtake plan₂.randomLights ∧
      (plan₁.randomVehicles = plan₂.randomVehicles →
        world₁.vehicles.rtake plan₁.randomVehicles
          = world₂.vehicles.rtake plan₂.randomVehicles) ∧
      plan₁.Sized read₁ world₁ ∧ plan₂.Sized read₂ world₂ := by
  obtain ⟨generated₁, hgenerated₁, hlights₁, hvehicles₁⟩ := rtake_of_scenario h₁
  obtain ⟨generated₂, hgenerated₂, hlights₂, hvehicles₂⟩ := rtake_of_scenario h₂
  refine ⟨?_, fun hvehicles => ?_, sized_of_scenario h₁, sized_of_scenario h₂⟩
  · rw [hlights₁, hlights₂, lights_of_generated hgenerated₁ hgenerated₂ hseed hlights]
  · rw [hvehicles₁, hvehicles₂,
      vehicles_of_generated hgenerated₁ hgenerated₂ hseed hlights hvehicles]

/-- A plan of generated items only. -/
def scatter : Plan := { seed := 7, randomLights := 3, randomVehicles := 5 }

/-- The same with a light at hand, a table of lights and a record of a vehicle. -/
def crowdedScatter : Plan :=
  { scatter with
    lights := [⟨⟨0.0, 1.0⟩, 3.0⟩]
    lightsTable := some "t"
    vehicleRecords := ["5 5 0 1 master_cw"] }

/-- A disk with a table of one light. -/
def tableDisk : Files.Disk :=
  .ofFiles [] [("t", "x,y,intensity\n1,2,3\n".toList.map fun c => c.toNat.toUInt8)]

/-- The plan with more in it has more lights, and ends with the same lights and vehicles. -/
theorem generation_isolated_crowded : ∃ world₁ world₂,
    scatter.scenario Files.Disk.empty.reader = .ok world₁ ∧
      crowdedScatter.scenario tableDisk.reader = .ok world₂ ∧
      world₁.lights.rtake 3 = world₂.lights.rtake 3 ∧
      world₁.vehicles.rtake 5 = world₂.vehicles.rtake 5 ∧
      world₁.lights.length = 3 ∧ world₂.lights.length = 5 := by
  have hfault : error? (crowdedScatter.scenario tableDisk.reader) = none :=
    (error?_scenario ..).trans (Option.isNone_iff_eq_none.mp (by decide +kernel))
  have hrow : (tableItems tableDisk.reader Table.lights (some "t")).toOption.map List.length
      = some 1 := by decide +kernel
  obtain ⟨world₁, h₁⟩ := error?_eq_none_iff.mp (error?_scenario scatter Files.Disk.empty.reader)
  obtain ⟨world₂, h₂⟩ := error?_eq_none_iff.mp hfault
  obtain ⟨hlights, hvehicles, hsized₁, hsized₂⟩ := generation_isolated h₁ h₂ rfl rfl
  obtain ⟨rows₁, hrows₁, hcount₁⟩ := hsized₁.lights
  obtain ⟨rows₂, hrows₂, hcount₂⟩ := hsized₂.lights
  cases hrows₁
  rw [show tableItems tableDisk.reader Table.lights (some "t") = .ok rows₂ from hrows₂] at hrow
  have hrows : rows₂.length = 1 := Option.some.inj hrow
  rw [hrows] at hcount₂
  exact ⟨world₁, world₂, h₁, h₂, hlights, hvehicles rfl, hcount₁, hcount₂⟩

end Plan

end Phototaxis
