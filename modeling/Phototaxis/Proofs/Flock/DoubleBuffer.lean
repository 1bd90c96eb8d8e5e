import Mathlib.Tactic.Common
import Phototaxis.Flock.Basic
import Phototaxis.Proofs.Fault

/-!
# Two generations do the work of one list

A flock keeps its vehicles twice, writes the one generation while it reads the other,
and then lets them change places. Whoever looks at the flock from outside should notice
nothing of this: the flock should behave like a `PlainFlock`, which keeps one list of
vehicles and replaces it in a step by the list of the successors, each computed among
the vehicles of the old list.

The danger is in the generation that is written. It is not cleared, edits do not reach
it, and it keeps what was current two steps ago; a slot that a step missed would bring
that back. So what has to be known of a step is that it writes every slot, and computes
each from the current generation only, which no write touches (`Population.fill_next`).
From then on the next generation does not matter, and the two kinds of flock go through
any sequence of steps and edits alike (`map_plain_run`).

## The order of the slots

Since no write touches what is read, slots may be written in any order, some of them
more than once, as long as none is left out (`Population.fill_eq`).
-/

namespace Phototaxis

namespace Population

variable {successor : Vehicle → Vehicle}

/-- Populations are equal if both generations are, and the side. -/
theorem eq_of_generations {p q : Population} (hc : p.current = q.current) (hn : p.next = q.next)
    (hf : p.flipped = q.flipped) : p = q := by
  cases p
  cases q
  simp_all

/-! ## Writing slots -/

/-- No write touches the generation that is read. -/
@[simp]
theorem writeSuccessor_current (p : Population) (slot : Nat) :
    (writeSuccessor successor p slot).current = p.current := by
  unfold writeSuccessor
  split <;> rfl

@[simp]
theorem writeSuccessor_flipped (p : Population) (slot : Nat) :
    (writeSuccessor successor p slot).flipped = p.flipped := by
  unfold writeSuccessor
  split <;> rfl

/-- A write changes one slot of the next generation, to the successor of what is read there. -/
theorem writeSuccessor_next (p : Population) (slot i : Nat) :
    (writeSuccessor successor p slot).next[i]? =
      if i = slot then p.current[i]?.map successor else p.next[i]? := by
  unfold writeSuccessor
  cases h : p.current[slot]? with
  | some vehicle =>
    obtain ⟨hlt, -⟩ := Array.getElem?_eq_some_iff.mp h
    show (p.next.setIfInBounds slot (successor vehicle))[i]? = _
    rw [Array.getElem?_setIfInBounds, p.size_eq, if_pos hlt]
    by_cases hi : i = slot
    · rw [if_pos hi.symm, if_pos hi, hi, h]
      rfl
    · rw [if_neg (Ne.symm hi), if_neg hi]
  | none =>
    by_cases hi : i = slot
    · -- beyond the slots of the one generation there is none of the other
      have hge : p.current.size ≤ slot := Array.getElem?_eq_none_iff.mp h
      rw [if_pos hi, hi, h]
      exact Array.getElem?_eq_none (p.size_eq ▸ hge)
    · rw [if_neg hi]

@[simp]
theorem fill_current (p : Population) (order : List Nat) :
    (p.fill successor order).current = p.current := by
  induction order generalizing p with
  | nil => rfl
  | cons slot order ih => exact (ih _).trans (writeSuccessor_current p slot)

@[simp]
theorem fill_flipped (p : Population) (order : List Nat) :
    (p.fill successor order).flipped = p.flipped := by
  induction order generalizing p with
  | nil => rfl
  | cons slot order ih => exact (ih _).trans (writeSuccessor_flipped p slot)

/-- **A slot that is written holds the successor, and the others keep what they held.** -/
theorem fill_getElem? (p : Population) (order : List Nat) (i : Nat) :
    (p.fill successor order).next[i]? =
      if i ∈ order then p.current[i]?.map successor else p.next[i]? := by
  induction order generalizing p with
  | nil => rfl
  | cons slot order ih =>
    show ((writeSuccessor successor p slot).fill successor order).next[i]? = _
    rw [ih, writeSuccessor_current, writeSuccessor_next]
    -- a slot that is written again holds the same successor as before
    by_cases hi : i ∈ order
    · rw [if_pos hi, if_pos (List.mem_cons_of_mem slot hi)]
    · rw [if_neg hi]
      by_cases hs : i = slot
      · rw [if_pos hs, if_pos (List.mem_cons.mpr (.inl hs))]
      · rw [if_neg hs, if_neg (fun h => (List.mem_cons.mp h).elim hs hi)]

/-- **Nothing stale is left** once every slot is written: the next generation holds the successors
of the current one. -/
theorem fill_next (p : Population) {order : List Nat} (h : ∀ i < p.size, i ∈ order) :
    (p.fill successor order).next = p.current.map successor := by
  refine Array.ext_getElem? (fun i => ?_)
  rw [fill_getElem?, Array.getElem?_map]
  split
  · rfl
  · rename_i hi
    have hge : p.current.size ≤ i := Nat.le_of_not_lt (fun hlt => hi (h i hlt))
    rw [Array.getElem?_eq_none (p.size_eq ▸ hge), Array.getElem?_eq_none hge]
    rfl

/-- **The order of the slots is free.** -/
theorem fill_eq (p : Population) {order order' : List Nat} (h : ∀ i < p.size, i ∈ order)
    (h' : ∀ i < p.size, i ∈ order') : p.fill successor order = p.fill successor order' := by
  refine eq_of_generations ?_ ?_ ?_
  · rw [fill_current, fill_current]
  · rw [fill_next p h, fill_next p h']
  · rw [fill_flipped, fill_flipped]

/-! ## A step -/

/-- **A step replaces every vehicle by its successor.** -/
@[simp]
theorem step_current (p : Population) : (p.step successor).current = p.current.map successor :=
  p.fill_next (fun _ hi => List.mem_range.mpr hi)

/-- What was current is written next. -/
@[simp]
theorem step_next (p : Population) : (p.step successor).next = p.current :=
  p.fill_current _

end Population

/-! ## A flock with one list -/

/-- A flock that keeps its vehicles once. -/
structure PlainFlock where
  lights : LightField
  vehicles : List Vehicle
  search : PeerSearch

/-- What can be done to a flock: a step, or an edit between two steps. An edit of a vehicle that
does not exist changes nothing. -/
inductive FlockOperation where
  | step (dt : Float)
  | setPosition (id : VehicleId) (position : Vector2)
  | setHeading (id : VehicleId) (heading : Float)
  | setSpeed (id : VehicleId) (speed : Float)
  | editLights (change : LightField → LightField)
  | setSearch (search : PeerSearch)

namespace PlainFlock

/-- Every vehicle is replaced by its successor among the vehicles of the old list. -/
def step (flock : PlainFlock) (dt : Float) : Except Fault PlainFlock := do
  let peers ← flock.search.peers flock.vehicles.toArray
  return { flock with vehicles := flock.vehicles.map fun me => me.step dt flock.lights (peers me) }

/-- The flock with the vehicle in a slot changed. -/
def modifyVehicle (flock : PlainFlock) (id : VehicleId) (change : Vehicle → Vehicle) :
    PlainFlock :=
  { flock with vehicles := flock.vehicles.modify id.index change }

/-- The flock after an operation. -/
def apply (flock : PlainFlock) : FlockOperation → Except Fault PlainFlock
  | .step dt => flock.step dt
  | .setPosition id position => .ok (flock.modifyVehicle id ({ · with position := position }))
  | .setHeading id heading => .ok (flock.modifyVehicle id ({ · with heading := heading }))
  | .setSpeed id speed => .ok (flock.modifyVehicle id (·.withSpeed speed))
  | .editLights change => .ok { flock with lights := change flock.lights }
  | .setSearch search => .ok { flock with search := search }

/-- The flock after some operations, one after the other. -/
def run (flock : PlainFlock) (operations : List FlockOperation) : Except Fault PlainFlock :=
  operations.foldlM apply flock

end PlainFlock

namespace Flock

/-- The flock after an operation. -/
def apply (flock : Flock) : FlockOperation → Except Fault Flock
  | .step dt => flock.step dt
  | .setPosition id position => .ok (flock.modifyVehicle id ({ · with position := position }))
  | .setHeading id heading => .ok (flock.modifyVehicle id ({ · with heading := heading }))
  | .setSpeed id speed => .ok (flock.modifyVehicle id (·.withSpeed speed))
  | .editLights change => .ok { flock with lights := change flock.lights }
  | .setSearch search => .ok (flock.withSearch search)

/-- The flock after some operations, one after the other. -/
def run (flock : Flock) (operations : List FlockOperation) : Except Fault Flock :=
  operations.foldlM apply flock

/-- What can be seen of a flock from outside. -/
def plain (flock : Flock) : PlainFlock := ⟨flock.lights, flock.vehicles.toList, flock.search⟩

/-- The behaviors, in slot order. -/
def behaviors (flock : Flock) : Array Behavior := flock.vehicles.map (·.behavior)

variable {flock after : Flock} {dt : Float} {operation : FlockOperation}

/-! ## What a step does -/

/-- **A step succeeds if the search does**, and then changes the population only. -/
theorem step_eq_ok_iff : flock.step dt = .ok after ↔
    ∃ peers, flock.search.peers flock.vehicles = .ok peers ∧
      after = { flock with
        population := flock.population.step fun me => me.step dt flock.lights (peers me) } := by
  unfold step
  simp only [bind_eq_ok_iff]
  constructor
  · rintro ⟨peers, hpeers, h⟩
    exact ⟨peers, hpeers, (Except.ok.inj h).symm⟩
  · rintro ⟨peers, hpeers, rfl⟩
    exact ⟨peers, hpeers, rfl⟩

theorem lights_and_search_of_step (h : flock.step dt = .ok after) :
    after.lights = flock.lights ∧ after.search = flock.search := by
  obtain ⟨peers, -, rfl⟩ := step_eq_ok_iff.mp h
  exact ⟨rfl, rfl⟩

theorem vehicles_of_step (h : flock.step dt = .ok after) : ∃ peers,
    flock.search.peers flock.vehicles = .ok peers ∧
      after.vehicles = flock.vehicles.map fun me => me.step dt flock.lights (peers me) := by
  obtain ⟨peers, hpeers, rfl⟩ := step_eq_ok_iff.mp h
  exact ⟨peers, hpeers, Population.step_current _⟩

/-! ## What every operation keeps -/

theorem behaviors_modifyVehicle (id : VehicleId) (change : Vehicle → Vehicle)
    (h : ∀ v, (change v).behavior = v.behavior) :
    (flock.modifyVehicle id change).behaviors = flock.behaviors := by
  refine Array.ext_getElem? (fun i => ?_)
  show ((flock.vehicles.modify id.index change).map _)[i]? = (flock.vehicles.map _)[i]?
  rw [Array.getElem?_map, Array.getElem?_map, Array.getElem?_modify]
  split
  · rw [Option.map_map]
    exact congrArg (fun f => (flock.vehicles[i]?).map f) (funext h)
  · rfl

/-- **No operation changes a behavior**, and so none adds or removes a vehicle. -/
theorem behaviors_of_apply (h : flock.apply operation = .ok after) :
    after.behaviors = flock.behaviors := by
  cases operation with
  | step dt =>
    obtain ⟨peers, -, hv⟩ := vehicles_of_step h
    unfold behaviors
    rw [hv, Array.map_map]
    rfl
  | setPosition id position =>
    cases h
    exact behaviors_modifyVehicle id _ (fun _ => rfl)
  | setHeading id heading =>
    cases h
    exact behaviors_modifyVehicle id _ (fun _ => rfl)
  | setSpeed id speed =>
    cases h
    exact behaviors_modifyVehicle id _ (fun _ => rfl)
  | editLights change =>
    cases h
    rfl
  | setSearch search =>
    cases h
    rfl

/-- A slot keeps its behavior for ever. -/
theorem behaviors_of_run {operations : List FlockOperation} (h : flock.run operations = .ok after) :
    after.behaviors = flock.behaviors :=
  keeps_of_foldlM (fun _ _ _ hb happly => (behaviors_of_apply happly).trans hb) h rfl

/-! ## The two flocks side by side -/

theorem plain_modifyVehicle (id : VehicleId) (change : Vehicle → Vehicle) :
    (flock.modifyVehicle id change).plain = flock.plain.modifyVehicle id change := by
  unfold plain PlainFlock.modifyVehicle
  congr 1
  exact Array.toList_modify

/-- **A step looks the same from outside.** -/
theorem map_plain_step : (flock.step dt).map plain = flock.plain.step dt := by
  unfold step PlainFlock.step
  show _ = (flock.search.peers flock.vehicles.toList.toArray >>= _)
  rw [Array.toArray_toList]
  cases flock.search.peers flock.vehicles with
  | error fault => rfl
  | ok peers =>
    refine congrArg (fun vs => Except.ok (⟨flock.lights, vs, flock.search⟩ : PlainFlock)) ?_
    show (flock.population.step _).current.toList = _
    rw [Population.step_current, Array.toList_map]
    rfl

theorem map_plain_apply : (flock.apply operation).map plain = flock.plain.apply operation := by
  cases operation with
  | step dt => exact map_plain_step
  | setPosition id position => exact congrArg Except.ok (plain_modifyVehicle id _)
  | setHeading id heading => exact congrArg Except.ok (plain_modifyVehicle id _)
  | setSpeed id speed => exact congrArg Except.ok (plain_modifyVehicle id _)
  | editLights change => rfl
  | setSearch search => rfl

/-- **So does a run.** -/
theorem map_plain_run (operations : List FlockOperation) :
    (flock.run operations).map plain = flock.plain.run operations := by
  induction operations generalizing flock with
  | nil => rfl
  | cons operation operations ih =>
    show (flock.apply operation >>= (·.run operations)).map plain
      = flock.plain.apply operation >>= (·.run operations)
    rw [← map_plain_apply]
    cases flock.apply operation with
    | error fault => rfl
    | ok next => exact ih

/-- **Two generations do the work of one list.** From any flock on, whatever its next generation
holds, any operations lead to what they lead to with a single list, and to the same fault if they
fail. Wherever they lead, both generations have the size that they had at the start, every slot has
the behavior that it had, a step keeps lights and search, and its slots may be written in any
order. -/
theorem run_refines_plain (start : Flock) (operations : List FlockOperation) :
    (start.run operations).map plain = start.plain.run operations ∧
      ∀ flock, start.run operations = .ok flock →
        flock.population.current.size = start.size ∧
        flock.population.next.size = start.size ∧
        flock.behaviors = start.behaviors ∧
        (∀ dt after, flock.step dt = .ok after →
          after.lights = flock.lights ∧ after.search = flock.search) ∧
        ∀ (successor : Vehicle → Vehicle) (order : List Nat), order.Perm (List.range flock.size) →
          (flock.population.fill successor order).flip = flock.population.step successor := by
  refine ⟨map_plain_run operations, fun flock h => ?_⟩
  have hbehaviors := behaviors_of_run h
  have hsize : flock.population.current.size = start.size := by
    have hs := congrArg Array.size hbehaviors
    unfold behaviors at hs
    rwa [Array.size_map, Array.size_map] at hs
  refine ⟨hsize, flock.population.size_eq.trans hsize, hbehaviors,
    fun dt after hstep => lights_and_search_of_step hstep, fun successor order hperm => ?_⟩
  refine congrArg Population.flip (Population.fill_eq _ (fun i hi => ?_) (fun i hi => ?_))
  · exact hperm.mem_iff.mpr (List.mem_range.mpr hi)
  · exact List.mem_range.mpr hi

end Flock

end Phototaxis
