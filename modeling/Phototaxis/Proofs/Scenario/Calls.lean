import Phototaxis.Proofs.Scenario.Assembly

/-!
# The order in which items are given

A plan is put together call by call. A call may give an item at hand or a record, which is
read only when the world is assembled, and calls of both kinds may follow each other in any
order. Slots are numbered in the order of the population, so the order of the calls should
be the order of the slots.

The plan keeps items and records apart, so the world keeps only half of that order: items
come in the order of their calls and records come in the order of theirs, but all items come
before all records (`Given.itemsFirst`). An item that is given behind a
record overtakes it (`Plan.item_overtakes_record`).

Hence the calls are listed in turn if no item is given behind a record
(`Given.ItemsFirst`). If it is, the slots are renamed, except where the item and the record
it overtakes are the same light or vehicle and cannot be told apart.
-/

namespace Phototaxis

/-- What is given to a population: an item at hand, or a record yet to be read. -/
inductive Given (α : Type) where
  | item (item : α)
  | record (text : String)

namespace Given

variable {α ε : Type} {ofRecord : String → Except ε α}
variable {given : List (Given α)} {items generated population : List α}
variable {table : Except ε (List α)}

/-- Whether an item is at hand. -/
def isItem : Given α → Bool
  | item _ => true
  | record _ => false

/-- The item, if it is at hand. -/
def item? : Given α → Option α
  | item a => some a
  | record _ => none

/-- The record, if there is one. -/
def record? : Given α → Option String
  | item _ => none
  | record text => some text

/-- The item that is given, once its record is read. -/
def read (ofRecord : String → Except ε α) : Given α → Except ε α
  | item a => .ok a
  | record text => ofRecord text

/-- All items at hand and behind them all records, each in their own order. -/
def itemsFirst (given : List (Given α)) : List (Given α) :=
  given.filter isItem ++ given.filter (!·.isItem)

/-- No item at hand is given behind a record. -/
def ItemsFirst (given : List (Given α)) : Prop :=
  given.Pairwise fun before behind => behind.isItem → before.isItem

/-- No record is read as one of the items at hand. -/
def Distinct (ofRecord : String → Except ε α) (given : List (Given α)) : Prop :=
  ∀ text a, record text ∈ given → ofRecord text = .ok a → item a ∉ given

/-- A population holds what is given, in this order, then the rows of a table, and then what is
generated. -/
def Listed (ofRecord : String → Except ε α) (given : List (Given α)) (table : Except ε (List α))
    (generated population : List α) : Prop :=
  ∃ items rows, List.Forall₂ (fun g a => g.read ofRecord = .ok a) given items ∧
    table = .ok rows ∧ population = items ++ rows ++ generated

/-! ## Items first -/

theorem mem_of_mem_itemsFirst {g : Given α} (h : g ∈ itemsFirst given) : g ∈ given :=
  (List.mem_append.mp h).elim List.mem_of_mem_filter List.mem_of_mem_filter

/-- **If no item is given behind a record, nothing is moved.** -/
theorem itemsFirst_eq_self (h : ItemsFirst given) : itemsFirst given = given := by
  induction given with
  | nil => rfl
  | cons g given ih =>
    obtain ⟨hbehind, hgiven⟩ := List.pairwise_cons.mp h
    cases g with
    | item a => exact congrArg (item a :: ·) (ih hgiven)
    | record text =>
      have hrecords : ∀ g ∈ given, ¬ g.isItem := fun g hg hitem => nomatch hbehind g hg hitem
      have hnone : given.filter isItem = [] := List.filter_eq_nil_iff.mpr hrecords
      have hall : given.filter (!·.isItem) = given :=
        List.filter_eq_self.mpr fun g hg => by simpa using hrecords g hg
      show given.filter isItem ++ record text :: given.filter (!·.isItem) = _
      rw [hnone, hall]
      rfl

/-- With the items first, no item is behind a record. -/
theorem itemsFirst_itemsFirst (given : List (Given α)) : ItemsFirst (itemsFirst given) := by
  refine List.pairwise_append.mpr ⟨?_, ?_, fun g hg _ _ _ => (List.mem_filter.mp hg).2⟩
  · exact List.pairwise_of_forall_mem_list fun g hg _ _ _ => (List.mem_filter.mp hg).2
  · refine List.pairwise_of_forall_mem_list fun _ _ g hg hitem => ?_
    have hrecord := (List.mem_filter.mp hg).2
    rw [hitem] at hrecord
    exact nomatch hrecord

/-! ## Reading what is given -/

theorem filterMap_item?_map (items : List α) : (items.map item).filterMap item? = items := by
  rw [List.filterMap_map]
  exact List.filterMap_some

theorem filterMap_record?_map (items : List α) : (items.map item).filterMap record? = [] := by
  rw [List.filterMap_map]
  exact List.filterMap_eq_nil_iff.mpr fun _ _ => rfl

theorem mapM_filter_isItem (ofRecord : String → Except ε α) (given : List (Given α)) :
    (given.filter isItem).mapM (read ofRecord) = .ok (given.filterMap item?) := by
  induction given with
  | nil => rfl
  | cons g given ih =>
    cases g with
    | item a =>
      show (item a :: given.filter isItem).mapM (read ofRecord) = _
      rw [List.mapM_cons, ih]
      rfl
    | record text => exact ih

theorem mapM_filter_not_isItem (ofRecord : String → Except ε α) (given : List (Given α)) :
    (given.filter (!·.isItem)).mapM (read ofRecord)
      = (given.filterMap record?).mapM ofRecord := by
  induction given with
  | nil => rfl
  | cons g given ih =>
    cases g with
    | item a => exact ih
    | record text =>
      show (record text :: given.filter (!·.isItem)).mapM (read ofRecord)
        = (text :: given.filterMap record?).mapM ofRecord
      rw [List.mapM_cons, List.mapM_cons, ih]
      rfl

/-- **What is read with the items first**: the items at hand, and then what the records are
read as. -/
theorem forall₂_itemsFirst_iff :
    List.Forall₂ (fun g a => g.read ofRecord = .ok a) (itemsFirst given) items ↔
      ∃ records, (given.filterMap record?).mapM ofRecord = .ok records ∧
        items = given.filterMap item? ++ records := by
  rw [← mapM_eq_ok_iff, itemsFirst, mapM_append_eq_ok_iff]
  constructor
  · rintro ⟨held, records, hheld, hrecords, rfl⟩
    rw [mapM_filter_isItem] at hheld
    rw [mapM_filter_not_isItem] at hrecords
    exact ⟨records, hrecords, congrArg (· ++ records) (Except.ok.inj hheld).symm⟩
  · rintro ⟨records, hrecords, rfl⟩
    exact ⟨_, records, mapM_filter_isItem ofRecord given,
      (mapM_filter_not_isItem ofRecord given).trans hrecords, rfl⟩

/-- A population made of the items at hand, the records and the rows lists the items first. -/
theorem exists_listed_iff :
    (∃ found, (do
        let records ← (given.filterMap record?).mapM ofRecord
        let rows ← table
        return given.filterMap item? ++ records ++ rows : Except ε (List α)) = .ok found ∧
      population = found ++ generated) ↔
    Listed ofRecord (itemsFirst given) table generated population := by
  constructor
  · rintro ⟨found, h, rfl⟩
    obtain ⟨records, hrecords, h⟩ := bind_eq_ok_iff.mp h
    obtain ⟨rows, hrows, h⟩ := bind_eq_ok_iff.mp h
    cases h
    exact ⟨_, rows, forall₂_itemsFirst_iff.mpr ⟨records, hrecords, rfl⟩, hrows, rfl⟩
  · rintro ⟨items, rows, hitems, hrows, rfl⟩
    obtain ⟨records, hrecords, rfl⟩ := forall₂_itemsFirst_iff.mp hitems
    exact ⟨_, bind_eq_ok_iff.mpr ⟨records, hrecords, bind_eq_ok_iff.mpr ⟨rows, hrows, rfl⟩⟩, rfl⟩

/-- If items and records can be told apart, a list that is read tells where the items are. -/
theorem map_isItem_of_distinct (h : Distinct ofRecord given) {listed : List (Given α)}
    (hmem : ∀ g ∈ listed, g ∈ given)
    (hread : List.Forall₂ (fun g a => g.read ofRecord = .ok a) listed items) :
    listed.map (·.isItem = true) = items.map (item · ∈ given) := by
  induction hread with
  | nil => rfl
  | @cons g a listed items hg _ ih =>
    obtain ⟨hgiven, hlisted⟩ := List.forall_mem_cons.mp hmem
    refine congrArg₂ List.cons (propext ?_) (ih hlisted)
    cases g with
    | item b =>
      cases hg
      exact iff_of_true rfl hgiven
    | record text => exact iff_of_false Bool.false_ne_true (h text a hgiven hg)

/-- **Where items and records can be told apart, an item that overtakes a record shows.** -/
theorem ItemsFirst.of_distinct (h : Distinct ofRecord given)
    (hfirst : List.Forall₂ (fun g a => g.read ofRecord = .ok a) (itemsFirst given) items)
    (hturn : List.Forall₂ (fun g a => g.read ofRecord = .ok a) given items) :
    ItemsFirst given := by
  have hkinds : (itemsFirst given).map (·.isItem = true) = given.map (·.isItem = true) :=
    (map_isItem_of_distinct h (fun _ => mem_of_mem_itemsFirst) hfirst).trans
      (map_isItem_of_distinct h (fun _ => id) hturn).symm
  have hpairs : ((itemsFirst given).map (·.isItem = true)).Pairwise fun p q => q → p :=
    List.pairwise_map.mpr (itemsFirst_itemsFirst given)
  rw [hkinds] at hpairs
  exact List.pairwise_map.mp hpairs

/-- **When a population lists in turn what is given.** -/
theorem listed_iff_of_listed
    (hlisted : Listed ofRecord (itemsFirst given) table generated population) :
    (ItemsFirst given → Listed ofRecord given table generated population) ∧
      (Distinct ofRecord given →
        (Listed ofRecord given table generated population ↔ ItemsFirst given)) := by
  have hturn (h : ItemsFirst given) : Listed ofRecord given table generated population := by
    rw [itemsFirst_eq_self h] at hlisted
    exact hlisted
  refine ⟨hturn, fun hdistinct => ⟨?_, hturn⟩⟩
  rintro ⟨items, rows, hread, htable, hpopulation⟩
  obtain ⟨items', rows', hread', htable', rfl⟩ := hlisted
  obtain rfl : rows = rows' := Except.ok.inj (htable.symm.trans htable')
  obtain rfl : items' = items :=
    List.append_cancel_right (List.append_cancel_right hpopulation)
  exact .of_distinct hdistinct hread' hread

end Given

/-! ## Calls -/

namespace Plan

/-- One call of those that put a plan together. -/
inductive Call where
  | setSeed (seed : UInt64)
  | addLight (light : Light)
  | addLights (lights : List Light)
  | addLightRecord (record : String)
  | setLightsTable (path : String)
  | setRandomLights (n : Nat)
  | addVehicle (vehicle : Vehicle)
  | addVehicles (vehicles : List Vehicle)
  | addVehicleRecord (record : String)
  | setVehiclesTable (path : String)
  | setRandomVehicles (n : Nat)

namespace Call

/-- The plan after a call. -/
def apply (plan : Plan) : Call → Plan
  | addLight light => plan.addLight light
  | addLights lights => plan.addLights lights
  | addLightRecord record => plan.addLightRecord record
  | addVehicle vehicle => plan.addVehicle vehicle
  | addVehicles vehicles => plan.addVehicles vehicles
  | addVehicleRecord record => plan.addVehicleRecord record
  | setSeed seed => { plan with seed := seed }
  | setLightsTable path => { plan with lightsTable := some path }
  | setVehiclesTable path => { plan with vehiclesTable := some path }
  | setRandomLights n => { plan with randomLights := n }
  | setRandomVehicles n => { plan with randomVehicles := n }

/-- What a call gives to the lights. -/
def givenLights : Call → List (Given Light)
  | addLight light => [.item light]
  | addLights lights => lights.map .item
  | addLightRecord record => [.record record]
  | _ => []

/-- What a call gives to the vehicles. -/
def givenVehicles : Call → List (Given Vehicle)
  | addVehicle vehicle => [.item vehicle]
  | addVehicles vehicles => vehicles.map .item
  | addVehicleRecord record => [.record record]
  | _ => []

end Call

/-- The plan that some calls put together. -/
def ofCalls (calls : List Call) : Plan := calls.foldl Call.apply {}

/-- What some calls give to the lights, in the order of the calls. -/
def lightsInTurn (calls : List Call) : List (Given Light) := calls.flatMap Call.givenLights

/-- What some calls give to the vehicles, in the order of the calls. -/
def vehiclesInTurn (calls : List Call) : List (Given Vehicle) := calls.flatMap Call.givenVehicles

variable {calls : List Call} {read : Files.Reader} {world : Scenario}

/-- A part of a plan that every call extends holds what all calls add to it. -/
theorem foldl_apply {β : Type} {part : Plan → List β} {more : Call → List β}
    (h : ∀ plan call, part (Call.apply plan call) = part plan ++ more call) (calls : List Call)
    (plan : Plan) : part (calls.foldl Call.apply plan) = part plan ++ calls.flatMap more := by
  induction calls generalizing plan with
  | nil => exact (List.append_nil _).symm
  | cons call calls ih =>
    rw [List.foldl_cons, ih, h, List.append_assoc, List.flatMap_cons]

theorem lights_ofCalls (calls : List Call) :
    (ofCalls calls).lights = (lightsInTurn calls).filterMap Given.item? := by
  rw [lightsInTurn, List.filterMap_flatMap]
  refine foldl_apply (fun plan call => ?_) calls {}
  cases call with
  | addLight light => rfl
  | addLights lights => exact congrArg (plan.lights ++ ·) (Given.filterMap_item?_map lights).symm
  | _ => exact (List.append_nil _).symm

theorem lightRecords_ofCalls (calls : List Call) :
    (ofCalls calls).lightRecords = (lightsInTurn calls).filterMap Given.record? := by
  rw [lightsInTurn, List.filterMap_flatMap]
  refine foldl_apply (fun plan call => ?_) calls {}
  cases call with
  | addLightRecord record => rfl
  | addLights lights =>
    rw [Call.givenLights, Given.filterMap_record?_map, List.append_nil]
    rfl
  | _ => exact (List.append_nil _).symm

theorem vehicles_ofCalls (calls : List Call) :
    (ofCalls calls).vehicles = (vehiclesInTurn calls).filterMap Given.item? := by
  rw [vehiclesInTurn, List.filterMap_flatMap]
  refine foldl_apply (fun plan call => ?_) calls {}
  cases call with
  | addVehicle vehicle => rfl
  | addVehicles vehicles =>
    exact congrArg (plan.vehicles ++ ·) (Given.filterMap_item?_map vehicles).symm
  | _ => exact (List.append_nil _).symm

theorem vehicleRecords_ofCalls (calls : List Call) :
    (ofCalls calls).vehicleRecords = (vehiclesInTurn calls).filterMap Given.record? := by
  rw [vehiclesInTurn, List.filterMap_flatMap]
  refine foldl_apply (fun plan call => ?_) calls {}
  cases call with
  | addVehicleRecord record => rfl
  | addVehicles vehicles =>
    rw [Call.givenVehicles, Given.filterMap_record?_map, List.append_nil]
    rfl
  | _ => exact (List.append_nil _).symm

/-! ## Worlds -/

/-- The lights of a world are the given ones, in this order, then the rows of the plan's table, and
then what the plan generates. -/
def ListsLights (plan : Plan) (read : Files.Reader) (given : List (Given Light))
    (world : Scenario) : Prop :=
  ∃ generated, plan.generated = .ok generated ∧
    Given.Listed Light.ofRecord given (tableItems read Table.lights plan.lightsTable)
      generated.lights world.lights

/-- The vehicles of a world are the given ones, in this order, then the rows of the plan's table,
and then what the plan generates. -/
def ListsVehicles (plan : Plan) (read : Files.Reader) (given : List (Given Vehicle))
    (world : Scenario) : Prop :=
  ∃ generated, plan.generated = .ok generated ∧
    Given.Listed Vehicle.ofRecord given (tableItems read Table.vehicles plan.vehiclesTable)
      generated.vehicles world.vehicles

section Generated

variable {plan : Plan} {generated : Scenario}

theorem listsLights_iff (h : plan.generated = .ok generated) {given : List (Given Light)} :
    plan.ListsLights read given world ↔
      Given.Listed Light.ofRecord given (tableItems read Table.lights plan.lightsTable)
        generated.lights world.lights := by
  simp [ListsLights, h]

theorem listsVehicles_iff (h : plan.generated = .ok generated) {given : List (Given Vehicle)} :
    plan.ListsVehicles read given world ↔
      Given.Listed Vehicle.ofRecord given (tableItems read Table.vehicles plan.vehiclesTable)
        generated.vehicles world.vehicles := by
  simp [ListsVehicles, h]

end Generated

/-- **What a plan that was put together call by call lists**: in each population the items first,
then the records, then the rows of the table, and then what is generated. -/
theorem scenario_ofCalls_iff : (ofCalls calls).scenario read = .ok world ↔
    (ofCalls calls).ListsLights read (Given.itemsFirst (lightsInTurn calls)) world ∧
      (ofCalls calls).ListsVehicles read (Given.itemsFirst (vehiclesInTurn calls)) world := by
  obtain ⟨generated, hgenerated⟩ := exists_generated (ofCalls calls)
  rw [scenario_eq_ok_iff, listsLights_iff hgenerated, listsVehicles_iff hgenerated,
    ← Given.exists_listed_iff, ← Given.exists_listed_iff, ← lights_ofCalls, ← lightRecords_ofCalls,
    ← vehicles_ofCalls, ← vehicleRecords_ofCalls]
  constructor
  · rintro ⟨lights, vehicles, generated', hlights, hvehicles, hgenerated', rfl⟩
    obtain rfl : generated = generated' := Except.ok.inj (hgenerated.symm.trans hgenerated')
    exact ⟨⟨lights, hlights, rfl⟩, vehicles, hvehicles, rfl⟩
  · rintro ⟨⟨lights, hlights, hworld⟩, vehicles, hvehicles, hworld'⟩
    exact ⟨lights, vehicles, generated, hlights, hvehicles, hgenerated,
      congrArg₂ Scenario.mk hworld hworld'⟩

/-- **When a world lists its items in the order of the calls.** In each population the items at hand
come before the records, each in the order of their calls; behind them come the rows of the table
and what is generated. So all is listed in the order of the calls if no item is given behind a
record, and, where no record is read as one of the items, only then. -/
theorem listed_in_turn_iff (calls : List Call) (read : Files.Reader) :
    (∀ world, (ofCalls calls).scenario read = .ok world ↔
      (ofCalls calls).ListsLights read (Given.itemsFirst (lightsInTurn calls)) world ∧
        (ofCalls calls).ListsVehicles read (Given.itemsFirst (vehiclesInTurn calls)) world) ∧
    ∀ world, (ofCalls calls).scenario read = .ok world →
      ((Given.ItemsFirst (lightsInTurn calls) →
          (ofCalls calls).ListsLights read (lightsInTurn calls) world) ∧
        (Given.Distinct Light.ofRecord (lightsInTurn calls) →
          ((ofCalls calls).ListsLights read (lightsInTurn calls) world ↔
            Given.ItemsFirst (lightsInTurn calls)))) ∧
      ((Given.ItemsFirst (vehiclesInTurn calls) →
          (ofCalls calls).ListsVehicles read (vehiclesInTurn calls) world) ∧
        (Given.Distinct Vehicle.ofRecord (vehiclesInTurn calls) →
          ((ofCalls calls).ListsVehicles read (vehiclesInTurn calls) world ↔
            Given.ItemsFirst (vehiclesInTurn calls)))) := by
  refine ⟨fun world => scenario_ofCalls_iff, fun world h => ?_⟩
  obtain ⟨hlights, hvehicles⟩ := scenario_ofCalls_iff.mp h
  obtain ⟨generated, hgenerated⟩ := exists_generated (ofCalls calls)
  simp only [listsLights_iff hgenerated, listsVehicles_iff hgenerated] at hlights hvehicles ⊢
  exact ⟨Given.listed_iff_of_listed hlights, Given.listed_iff_of_listed hvehicles⟩

/-- A light that is given behind a record of a light, and a vehicle that is given before a record
of a vehicle. -/
def crossing : List Call :=
  [.addLightRecord "1 0 2", .addLight ⟨⟨0.0, 1.0⟩, 3.0⟩, .addVehicle (.followerAt ⟨0.0, 0.0⟩),
    .addVehicleRecord "5 5 0 1 master_cw", .setRandomVehicles 5]

theorem lightOfRecord_crossing : Light.ofRecord "1 0 2" = .ok ⟨⟨1.0, 0.0⟩, 2.0⟩ := by rfl

theorem ne_crossing : (⟨⟨1.0, 0.0⟩, 2.0⟩ : Light) ≠ ⟨⟨0.0, 1.0⟩, 3.0⟩ := by
  intro h
  have hbits : (2.0 : Float).toBits = (3.0 : Float).toBits :=
    congrArg (fun light => light.intensity.toBits) h
  revert hbits
  decide

/-- The vehicles are listed in the order of the calls, and the lights are not. -/
theorem listed_in_turn_crossing : Given.Distinct Light.ofRecord (lightsInTurn crossing) ∧
    Given.ItemsFirst (vehiclesInTurn crossing) ∧
    ∃ world, (ofCalls crossing).scenario Files.Disk.empty.reader = .ok world ∧
      ¬ (ofCalls crossing).ListsLights Files.Disk.empty.reader (lightsInTurn crossing) world ∧
      (ofCalls crossing).ListsVehicles Files.Disk.empty.reader (vehiclesInTurn crossing) world := by
  have hdistinct : Given.Distinct Light.ofRecord (lightsInTurn crossing) := by
    intro text a htext hread hitem
    obtain rfl : text = "1 0 2" := by simpa [lightsInTurn, crossing, Call.givenLights] using htext
    obtain rfl : a = ⟨⟨0.0, 1.0⟩, 3.0⟩ := by
      simpa [lightsInTurn, crossing, Call.givenLights] using hitem
    exact ne_crossing (Except.ok.inj (lightOfRecord_crossing.symm.trans hread))
  have hvehicles : Given.ItemsFirst (vehiclesInTurn crossing) := by
    simp [vehiclesInTurn, crossing, Call.givenVehicles, Given.ItemsFirst, Given.isItem]
  have hlights : ¬ Given.ItemsFirst (lightsInTurn crossing) := by
    simp [lightsInTurn, crossing, Call.givenLights, Given.ItemsFirst, Given.isItem]
  have hfault : error? ((ofCalls crossing).scenario Files.Disk.empty.reader) = none :=
    (error?_scenario ..).trans (Option.isNone_iff_eq_none.mp (by decide +kernel))
  obtain ⟨world, hworld⟩ := error?_eq_none_iff.mp hfault
  obtain ⟨hlightsIff, hvehiclesIff⟩ :=
    (listed_in_turn_iff crossing Files.Disk.empty.reader).2 world hworld
  exact ⟨hdistinct, hvehicles, world, hworld, mt (hlightsIff.2 hdistinct).mp hlights,
    hvehiclesIff.1 hvehicles⟩

/-- **An item that is given behind a record overtakes it.** Both can be read, and there is a world,
but its first light is the one that was given last. -/
theorem item_overtakes_record :
    let calls : List Call := [.addLightRecord "1 0 2", .addLight ⟨⟨0.0, 1.0⟩, 3.0⟩]
    let world : Scenario := ⟨[⟨⟨0.0, 1.0⟩, 3.0⟩, ⟨⟨1.0, 0.0⟩, 2.0⟩], []⟩
    (∀ given ∈ lightsInTurn calls, ∃ light, given.read Light.ofRecord = .ok light) ∧
      (ofCalls calls).scenario Files.Disk.empty.reader = .ok world ∧
      ¬ (ofCalls calls).ListsLights Files.Disk.empty.reader (lightsInTurn calls) world := by
  intro calls world
  refine ⟨?_, rfl, ?_⟩
  · exact List.forall_mem_cons.mpr
      ⟨⟨_, lightOfRecord_crossing⟩, List.forall_mem_singleton.mpr ⟨_, rfl⟩⟩
  · rintro ⟨generated, -, items, rows, hread, -, hworld⟩
    obtain ⟨first, behind, hfirst, -, rfl⟩ := List.forall₂_cons_left_iff.mp hread
    obtain rfl : (⟨⟨1.0, 0.0⟩, 2.0⟩ : Light) = first :=
      Except.ok.inj (lightOfRecord_crossing.symm.trans hfirst)
    exact ne_crossing (List.cons.inj hworld).1.symm

end Plan

end Phototaxis
