import Mathlib
import Phototaxis.Proofs.Scenario.Generation
import Phototaxis.Proofs.Scenario.Grammar

/-!
# Accepted worlds are finite

Lights and vehicles come into a world from three sides that do not know of each other: as
records, as rows of tables and out of the generator. Each looks at its numbers in its own
way, and leaves it to the constructor of vehicles to refuse a speed that is none. Whatever
they make is finite, and no speed is below zero.

For records and rows this is so since every number is looked at: a speed that is no number
or infinite is refused as not finite, before it is asked whether it is below zero
(`Record.isFinite_speed`). For the generator it is a matter of rounding
(`Vehicle.generate_eq_ok`). So a world that is accepted is finite
(`Plan.isFinite_of_scenario`).

It also means that the constructor refuses nothing, be the world accepted or not. A fault
of the constructor would break off the assembly, but whatever is wrong with a record or a
row is found before (`Record.Labelled.not_breaksOff`), and the assembly fails with what is
wrong with its first source at fault (`Plan.not_breaksOff_scenario`).
-/

namespace Phototaxis

open Number

/-! ## Records -/

theorem Light.isFinite_ofFields {record x y intensity : String} {light : Light}
    (h : ofFields record x y intensity = .ok light) : light.IsFinite := by
  obtain ⟨x, hx, h⟩ := bind_eq_ok_iff.mp h
  obtain ⟨y, hy, h⟩ := bind_eq_ok_iff.mp h
  obtain ⟨intensity, hintensity, h⟩ := bind_eq_ok_iff.mp h
  cases h
  exact ⟨Vector2.isFinite_iff.mpr ⟨Record.isFinite_number hx, Record.isFinite_number hy⟩,
    Record.isFinite_number hintensity⟩

theorem Vehicle.isFinite_ofFields {record x y heading speed behavior : String} {vehicle : Vehicle}
    (h : ofFields record x y heading speed behavior = .ok vehicle) : vehicle.IsFinite := by
  rw [ofFields_eq] at h
  obtain ⟨x, hx, h⟩ := bind_eq_ok_iff.mp h
  obtain ⟨y, hy, h⟩ := bind_eq_ok_iff.mp h
  obtain ⟨heading, hheading, h⟩ := bind_eq_ok_iff.mp h
  obtain ⟨speed, hspeed, h⟩ := bind_eq_ok_iff.mp h
  obtain ⟨behavior, -, h⟩ := bind_eq_ok_iff.mp h
  obtain ⟨hfinite, hnonneg⟩ := Record.isFinite_speed hspeed
  cases h
  exact ⟨Vector2.isFinite_iff.mpr ⟨Record.isFinite_number hx, Record.isFinite_number hy⟩,
    Record.isFinite_number hheading, hfinite, hnonneg⟩

theorem Light.isFinite_ofRecord {record : String} {light : Light}
    (h : ofRecord record = .ok light) : light.IsFinite := by
  unfold ofRecord at h
  split at h
  · exact isFinite_ofFields h
  · cases h

theorem Vehicle.isFinite_ofRecord {record : String} {vehicle : Vehicle}
    (h : ofRecord record = .ok vehicle) : vehicle.IsFinite := by
  unfold ofRecord at h
  split at h
  · exact isFinite_ofFields h
  · cases h

/-! ## Tables -/

namespace Table

variable {label : String} {fields : List String}

theorem isFinite_lightOfRow {light : Light} (h : lightOfRow label fields = .ok light) :
    light.IsFinite := by
  unfold lightOfRow at h
  split at h
  · exact Light.isFinite_ofFields h
  · cases h

theorem isFinite_vehicleOfRow {vehicle : Vehicle} (h : vehicleOfRow label fields = .ok vehicle) :
    vehicle.IsFinite := by
  unfold vehicleOfRow at h
  split at h
  · exact Vehicle.isFinite_ofFields h
  · cases h

/-- What holds of all items of rows holds of all items of a table. -/
theorem forall_of_itemsFrom {α : Type} {item : String → List String → Except ScenarioError α}
    {P : α → Prop} (hitem : ∀ {label fields a}, item label fields = .ok a → P a)
    {index : ℕ} {rows : List (Except Fault (List String))} {items : List α}
    (h : itemsFrom item index rows = .ok items) : ∀ a ∈ items, P a := by
  induction rows generalizing index items with
  | nil =>
    cases h
    exact List.forall_mem_nil _
  | cons row rows ih =>
    cases row with
    | error fault => cases h
    | ok fields =>
      obtain ⟨first, hfirst, h⟩ := bind_eq_ok_iff.mp h
      obtain ⟨others, hothers, h⟩ := bind_eq_ok_iff.mp h
      cases h
      exact List.forall_mem_cons.mpr ⟨hitem hfirst, ih hothers⟩

/-- And so it does whether there is a table or not. -/
theorem forall_of_tableItems {α : Type} {layout : Layout}
    {item : String → List String → Except ScenarioError α} {P : α → Prop}
    (hitem : ∀ {label fields a}, item label fields = .ok a → P a) {read : Files.Reader}
    {path : Option String} {items : List α}
    (h : Plan.tableItems read (fun bytes => itemsFrom item 0 (layout.rows bytes)) path
      = .ok items) : ∀ a ∈ items, P a := by
  cases path with
  | none =>
    cases h
    exact List.forall_mem_nil _
  | some path =>
    unfold Plan.tableItems load at h
    dsimp only at h
    split at h
    · cases h
    · cases h
      exact List.forall_mem_nil _
    · exact forall_of_itemsFrom hitem h

end Table

/-! ## Faults on the way -/

/-- Whether the assembly of something is broken off by the misuse of an operation. -/
def BreaksOff {α : Type} (result : Except ScenarioError α) : Prop :=
  ∃ fault, result = .error (.misuse fault)

/-- **Reading a record or a row is never broken off**, since all that is wrong with it is found by
its rules. -/
theorem Record.Labelled.not_breaksOff {α : Type} {read : String → Except ScenarioError α}
    (h : Labelled read) (label : String) : ¬ BreaksOff (read label) := by
  rintro ⟨fault, hread⟩
  obtain ⟨result, hresult⟩ := h
  rw [hresult] at hread
  cases result with
  | ok a => cases hread
  | error e => cases e <;> cases hread

namespace Table

variable {α : Type} {item : String → List String → Except ScenarioError α}

theorem not_breaksOff_itemsFrom (hitem : ∀ fields, Record.Labelled (item · fields)) (index : ℕ)
    (rows : List (Except Fault (List String))) : ¬ BreaksOff (itemsFrom item index rows) := by
  rintro ⟨fault, h⟩
  rw [← List.map_id rows] at h
  obtain ⟨before, row, -, -, -, hrow⟩ := (itemsFrom_eq_error_iff hitem "").mp h
  cases row with
  | error e => cases hrow
  | ok fields => exact (hitem fields).not_breaksOff _ ⟨fault, hrow⟩

theorem not_breaksOff_load {items : List UInt8 → Except ScenarioError (List α)}
    (hitems : ∀ bytes, ¬ BreaksOff (items bytes)) (read : Files.Reader) (path : String) :
    ¬ BreaksOff (load read items path) := by
  unfold load
  split
  · rintro ⟨fault, h⟩
    cases h
  · rintro ⟨fault, h⟩
    cases h
  · exact hitems _

theorem not_breaksOff_lights (bytes : List UInt8) : ¬ BreaksOff (lights bytes) :=
  not_breaksOff_itemsFrom labelled_lightOfRow 0 _

theorem not_breaksOff_vehicles (bytes : List UInt8) : ¬ BreaksOff (vehicles bytes) :=
  not_breaksOff_itemsFrom labelled_vehicleOfRow 0 _

end Table

theorem Light.not_breaksOff_ofRecord (record : String) : ¬ BreaksOff (ofRecord record) := by
  rw [Record.ofRecord_light]
  exact (Table.labelled_lightOfRow _).not_breaksOff record

theorem Vehicle.not_breaksOff_ofRecord (record : String) : ¬ BreaksOff (ofRecord record) := by
  rw [Record.ofRecord_vehicle]
  exact (Table.labelled_vehicleOfRow _).not_breaksOff record

/-- What is wrong with a source is no misuse. -/
theorem Source.fault?_ne_misuse (read : Files.Reader) (source : Source) (fault : Fault) :
    source.fault? read ≠ some (.misuse fault) := by
  intro h
  cases source with
  | lightRecord record =>
    exact Light.not_breaksOff_ofRecord record ⟨fault, error?_eq_some_iff.mp h⟩
  | vehicleRecord record =>
    exact Vehicle.not_breaksOff_ofRecord record ⟨fault, error?_eq_some_iff.mp h⟩
  | lightsTable path =>
    exact Table.not_breaksOff_load Table.not_breaksOff_lights read path
      ⟨fault, error?_eq_some_iff.mp h⟩
  | vehiclesTable path =>
    exact Table.not_breaksOff_load Table.not_breaksOff_vehicles read path
      ⟨fault, error?_eq_some_iff.mp h⟩

/-- **The assembly of a world is never broken off.** -/
theorem Plan.not_breaksOff_scenario (plan : Plan) (read : Files.Reader) :
    ¬ BreaksOff (plan.scenario read) := by
  rintro ⟨fault, h⟩
  rw [← error?_eq_some_iff, error?_scenario] at h
  obtain ⟨source, -, hsource⟩ := List.exists_of_findSome?_eq_some h
  exact source.fault?_ne_misuse read fault hsource

/-! ## Worlds -/

/-- Whether all lights and vehicles of a world are finite, and no vehicle slower than zero. -/
structure Scenario.IsFinite (world : Scenario) : Prop where
  lights : ∀ light ∈ world.lights, light.IsFinite
  vehicles : ∀ vehicle ∈ world.vehicles, vehicle.IsFinite

namespace Plan

variable {plan : Plan} {read : Files.Reader} {world : Scenario}

/-- **An accepted world is finite**, if the items at hand are. -/
theorem isFinite_of_scenario (hlights : ∀ light ∈ plan.lights, light.IsFinite)
    (hvehicles : ∀ vehicle ∈ plan.vehicles, vehicle.IsFinite)
    (h : plan.scenario read = .ok world) : world.IsFinite := by
  obtain ⟨lights, vehicles, generated, hgivenLights, hgivenVehicles, hgenerated, rfl⟩ :=
    scenario_eq_ok_iff.mp h
  obtain ⟨records, hrecords, hgivenLights⟩ := bind_eq_ok_iff.mp hgivenLights
  obtain ⟨rows, hrows, hgivenLights⟩ := bind_eq_ok_iff.mp hgivenLights
  obtain ⟨records', hrecords', hgivenVehicles⟩ := bind_eq_ok_iff.mp hgivenVehicles
  obtain ⟨rows', hrows', hgivenVehicles⟩ := bind_eq_ok_iff.mp hgivenVehicles
  obtain ⟨hgenerated, hgenerated'⟩ := generated_eq_ok_iff.mp hgenerated
  obtain ⟨drawn, hdrawn, -, hfinite⟩ := Vehicle.generate_eq_ok plan.randomVehicles
    ((Light.generate plan.randomLights).run (.ofSeed plan.seed)).2
  obtain rfl : drawn = generated.vehicles := Except.ok.inj (hdrawn.symm.trans hgenerated')
  cases hgivenLights
  cases hgivenVehicles
  constructor <;> simp only [List.forall_mem_append]
  · exact ⟨⟨⟨hlights, forall_of_mapM Light.isFinite_ofRecord hrecords⟩,
      Table.forall_of_tableItems Table.isFinite_lightOfRow hrows⟩,
      hgenerated ▸ Light.yields_generate _ _⟩
  · exact ⟨⟨⟨hvehicles, forall_of_mapM Vehicle.isFinite_ofRecord hrecords'⟩,
      Table.forall_of_tableItems Table.isFinite_vehicleOfRow hrows'⟩, hfinite⟩

/-- **Accepted worlds are well formed, and no constructor is misused on the way.** If the items at
hand are finite, or there are none, then putting the world together fails or gives a finite world,
with no speed below zero. And the constructor of vehicles refuses none on the way, also if the world
is then refused: not for this plan, nor for any record or row or table, and none of any number of
vehicles that a generator makes, whatever its state, and these are finite as well. -/
theorem accepted_isFinite (plan : Plan) (read : Files.Reader)
    (hlights : ∀ light ∈ plan.lights, light.IsFinite)
    (hvehicles : ∀ vehicle ∈ plan.vehicles, vehicle.IsFinite) :
    (∀ world, plan.scenario read = .ok world → world.IsFinite) ∧
      ¬ BreaksOff (plan.scenario read) ∧
      (∀ record, ¬ BreaksOff (Vehicle.ofRecord record)) ∧
      (∀ label fields, ¬ BreaksOff (Table.vehicleOfRow label fields)) ∧
      (∀ bytes, ¬ BreaksOff (Table.vehicles bytes)) ∧
      ∀ n g, ∃ vehicles, ((Vehicle.generate n).run g).1 = .ok vehicles ∧ vehicles.length = n ∧
        ∀ vehicle ∈ vehicles, vehicle.IsFinite :=
  ⟨fun _ h => isFinite_of_scenario hlights hvehicles h, not_breaksOff_scenario plan read,
    Vehicle.not_breaksOff_ofRecord,
    fun label fields => (Table.labelled_vehicleOfRow fields).not_breaksOff label,
    Table.not_breaksOff_vehicles, Vehicle.generate_eq_ok⟩

/-- A record with a heading too small for a float and a speed of minus zero. -/
def edgeRecord : String := "5 5 1e-999 -0 master_cw"

/-- The record, a table of lights, and generated items. -/
def edgePlan : Plan := { scatter with lightsTable := some "t", vehicleRecords := [edgeRecord] }

/-- The record is accepted and the world is finite, with the one vehicle in it and five generated
ones. The constructor accepts a speed of minus zero. -/
theorem accepted_isFinite_edge : ∃ world vehicle,
    edgePlan.scenario tableDisk.reader = .ok world ∧ Vehicle.ofRecord edgeRecord = .ok vehicle ∧
      world.vehicles.length = 6 ∧ world.IsFinite ∧
      Vehicle.create vehicle.position vehicle.heading vehicle.speed vehicle.behavior
        = .ok vehicle := by
  have hsources : error? (edgePlan.scenario tableDisk.reader) = none :=
    (error?_scenario ..).trans (Option.isNone_iff_eq_none.mp (by decide +kernel))
  have hrecord : error? (Vehicle.ofRecord edgeRecord) = none :=
    Option.isNone_iff_eq_none.mp (by decide +kernel)
  obtain ⟨world, hworld⟩ := error?_eq_none_iff.mp hsources
  obtain ⟨vehicle, hvehicle⟩ := error?_eq_none_iff.mp hrecord
  obtain ⟨rows, hrows, hcount⟩ := (sized_of_scenario hworld).vehicles
  cases hrows
  refine ⟨world, vehicle, hworld, hvehicle, hcount, ?_, ?_⟩
  · exact (accepted_isFinite edgePlan tableDisk.reader (List.forall_mem_nil _)
      (List.forall_mem_nil _)).1 world hworld
  · exact Vehicle.create_of_nonneg (Vehicle.isFinite_ofRecord hvehicle).nonneg

end Plan

end Phototaxis
