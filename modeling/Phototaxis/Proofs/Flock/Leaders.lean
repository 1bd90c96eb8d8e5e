import Mathlib.Tactic.Common
import Phototaxis.Proofs.Flock.SearchAgreement

/-!
# Leaders go their own way

A leader looks at its peers and at the lights like everybody else, but nothing of what it
sees goes into its velocity. So whatever surrounds it should make no difference to a leader,
even if it is spoilt beyond use: a peer at no place, a light without bounds.

The way of a leader is then what it would do in an empty world (`Vehicle.way`), and a flock
that keeps a leader in some slot takes it along this way, step by step, while the other slots
and the lights are edited at will (`Flock.vehicle_of_rounds`). Two leaders that start alike
stay alike, in whatever flocks and slots (`Flock.leaders_stay_alike`).
-/

namespace Phototaxis

namespace Vehicle

variable {me : Vehicle} {dt : Float} {lights : LightField} {peers : List Vehicle}

/-- The vehicle after some steps in a world without lights and peers. -/
def way (me : Vehicle) (dts : List Float) : Vehicle :=
  dts.foldl (fun v dt => v.step dt .empty []) me

theorem ne_follower_of_isLeader (h : me.behavior.isLeader) : me.behavior ≠ .follower := by
  intro hfollower
  rw [hfollower] at h
  cases h

theorem way_concat (me : Vehicle) (dts : List Float) (dt : Float) :
    me.way (dts ++ [dt]) = (me.way dts).step dt .empty [] :=
  List.foldl_concat ..

/-- A leader stays a leader. -/
theorem behavior_way (me : Vehicle) (dts : List Float) : (me.way dts).behavior = me.behavior := by
  induction dts using List.reverseRecOn with
  | nil => rfl
  | append_singleton dts dt ih =>
    rw [way_concat]
    exact ih

end Vehicle

namespace Flock

/-! ## Edits between two steps -/

/-- What may be done to a flock between two steps. The vehicle in a slot may be changed in any way,
and so may the lights; the search may be set. -/
inductive Edit where
  | vehicle (id : VehicleId) (change : Vehicle → Vehicle)
  | lights (change : LightField → LightField)
  | search (search : PeerSearch)

/-- The flock after an edit. -/
def edit (flock : Flock) : Edit → Flock
  | .vehicle id change => flock.modifyVehicle id change
  | .lights change => { flock with lights := change flock.lights }
  | .search search => flock.withSearch search

/-- Whether an edit leaves the vehicle in a slot alone. -/
def Edit.Spares (slot : ℕ) : Edit → Prop
  | .vehicle id _ => id.index ≠ slot
  | .lights _ => True
  | .search _ => True

/-- Some edits, and the step behind them. -/
structure Round where
  edits : List Edit
  dt : Float

/-- Whether a round leaves the vehicle in a slot alone until it steps. -/
def Round.Spares (slot : ℕ) (round : Round) : Prop := ∀ edit ∈ round.edits, edit.Spares slot

/-- The flock after a round, unless its vehicles cannot be searched then. -/
def round (flock : Flock) (round : Round) : Except Fault Flock :=
  (round.edits.foldl edit flock).step round.dt

/-- The flock after some rounds. -/
def rounds (flock : Flock) (rounds : List Round) : Except Fault Flock := rounds.foldlM round flock

variable {flock after flock₁ flock₂ after₁ after₂ : Flock} {slot slot₁ slot₂ : ℕ} {me : Vehicle}
variable {dt : Float} {rounds₁ rounds₂ : List Round}

theorem vehicle_edit {e : Edit} (h : e.Spares slot) :
    (flock.edit e).vehicles[slot]? = flock.vehicles[slot]? := by
  cases e with
  | vehicle id change =>
    show (flock.vehicles.modify id.index change)[slot]? = _
    rw [Array.getElem?_modify, if_neg h]
  | lights change => rfl
  | search search => rfl

theorem vehicle_edits {edits : List Edit} (h : ∀ edit ∈ edits, edit.Spares slot) :
    (edits.foldl edit flock).vehicles[slot]? = flock.vehicles[slot]? := by
  induction edits generalizing flock with
  | nil => rfl
  | cons e edits ih =>
    obtain ⟨he, hrest⟩ := List.forall_mem_cons.mp h
    rw [List.foldl_cons, ih hrest, vehicle_edit he]

/-! ## Steps of a leader -/

/-- **A flock steps a leader as an empty world does.** -/
theorem vehicle_of_step (hleads : me.behavior.isLeader) (hme : flock.vehicles[slot]? = some me)
    (h : flock.step dt = .ok after) : after.vehicles[slot]? = some (me.step dt .empty []) := by
  obtain ⟨peers, -, hvehicles⟩ := vehicles_of_step h
  rw [hvehicles, Array.getElem?_map, hme, Option.map_some,
    Vehicle.step_of_leader (Vehicle.ne_follower_of_isLeader hleads) .empty []]

/-- **A leader goes its own way**, whatever the rounds bring to the others. -/
theorem vehicle_of_rounds {rounds : List Round} (hleads : me.behavior.isLeader)
    (hme : flock.vehicles[slot]? = some me) (hspares : ∀ round ∈ rounds, round.Spares slot)
    (h : flock.rounds rounds = .ok after) :
    after.vehicles[slot]? = some (me.way (rounds.map (·.dt))) := by
  induction rounds generalizing flock me with
  | nil =>
    cases h
    exact hme
  | cons round rounds ih =>
    obtain ⟨hround, hrest⟩ := List.forall_mem_cons.mp hspares
    obtain ⟨next, hstep, hafter⟩ := bind_eq_ok_iff.mp h
    have hnext := vehicle_of_step hleads ((vehicle_edits hround).trans hme) hstep
    exact ih hleads hnext hrest hafter

/-- **Leaders that start alike stay alike.** If two flocks hold the same leader, each in some slot,
and both take steps of the same lengths, they hold the same leader in these slots again, no matter
what else there is in the one and in the other, and what is done between the steps to all but this
leader. What it becomes is what it would become in an empty world. -/
theorem leaders_stay_alike (hleads : me.behavior.isLeader)
    (h₁ : flock₁.vehicles[slot₁]? = some me) (h₂ : flock₂.vehicles[slot₂]? = some me)
    (hspares₁ : ∀ round ∈ rounds₁, round.Spares slot₁)
    (hspares₂ : ∀ round ∈ rounds₂, round.Spares slot₂)
    (hdts : rounds₁.map (·.dt) = rounds₂.map (·.dt))
    (hrun₁ : flock₁.rounds rounds₁ = .ok after₁) (hrun₂ : flock₂.rounds rounds₂ = .ok after₂) :
    ∃ leader, after₁.vehicles[slot₁]? = some leader ∧ after₂.vehicles[slot₂]? = some leader ∧
      leader = me.way (rounds₁.map (·.dt)) ∧ leader.behavior = me.behavior := by
  refine ⟨_, vehicle_of_rounds hleads h₁ hspares₁ hrun₁, ?_, rfl, Vehicle.behavior_way me _⟩
  rw [hdts]
  exact vehicle_of_rounds hleads h₂ hspares₂ hrun₂

/-- A leader that turns. -/
def turner : Vehicle := ⟨⟨3.0, 4.0⟩, 1.0, 2.0, .leaderCounterClockwise⟩

/-- The crowd in the glare, with a leader behind it, and two steps of the first of which nobody but
the leader comes out at any place. Before the second the first follower is sent off. -/
theorem leaders_stay_alike_glare : ∃ after₁ after₂ leader,
    ((ofArray glare (crowd.push turner)).withSearch .linear).rounds
      [⟨[], 0.0⟩, ⟨[.vehicle ⟨0⟩ ({ · with speed := 1e308 })], 0.5⟩] = .ok after₁ ∧
    (ofArray .empty #[turner]).rounds [⟨[], 0.0⟩, ⟨[.lights fun _ => glare], 0.5⟩] = .ok after₂ ∧
    after₁.vehicles[7]? = some leader ∧ after₂.vehicles[0]? = some leader ∧
    leader.behavior = .leaderCounterClockwise := by
  have hspares₁ : ∀ round ∈ ([⟨[], 0.0⟩, ⟨[.vehicle ⟨0⟩ ({ · with speed := 1e308 })], 0.5⟩] :
      List Round), round.Spares 7 := by
    simp [Round.Spares, Edit.Spares, SlotId.index]
  have hspares₂ : ∀ round ∈ ([⟨[], 0.0⟩, ⟨[.lights fun _ => glare], 0.5⟩] : List Round),
      round.Spares 0 := by
    simp [Round.Spares, Edit.Spares]
  obtain ⟨after₁, hrun₁⟩ : ∃ after, ((ofArray glare (crowd.push turner)).withSearch .linear).rounds
      [⟨[], 0.0⟩, ⟨[.vehicle ⟨0⟩ ({ · with speed := 1e308 })], 0.5⟩] = .ok after := ⟨_, rfl⟩
  obtain ⟨after₂, hrun₂⟩ : ∃ after, (ofArray .empty #[turner]).rounds
      [⟨[], 0.0⟩, ⟨[.lights fun _ => glare], 0.5⟩] = .ok after :=
    error?_eq_none_iff.mp (Option.isNone_iff_eq_none.mp (by decide +kernel))
  obtain ⟨leader, hleader₁, hleader₂, -, hbehavior⟩ :=
    leaders_stay_alike (show turner.behavior.isLeader from rfl) rfl rfl hspares₁ hspares₂ rfl
      hrun₁ hrun₂
  exact ⟨after₁, after₂, leader, hrun₁, hrun₂, hleader₁, hleader₂, hbehavior⟩

end Flock

end Phototaxis
