import Mathlib
import Phototaxis.Proofs.Flock.SearchAgreement

/-!
# Groups that do not see each other

A vehicle takes no notice of what is out of its sight. So a group of vehicles that stays
out of sight of all others should evolve as if the others were not there: its vehicles,
taken in slot order, should be those of a flock that never had any other. This has to hold
bit for bit, and wherever among the slots the group is.

A peer out of sight leaves no trace in the sums of a look, not even a rounding, and it
does not matter at which place of the row it would have come (`foldl_members`). The index
may still offer it, since its radius is widened; then the look cuts it off. What is left
to see is that the group is offered the same of its own members as in a flock of its own
(`PeerSearch.peers_of_defined`). Here the distances help: whoever is at some distance from
another vehicle is at a place whose coordinates are numbers, so if there are two groups at
all, no place among them spoils the index, and no step fails (`Flock.steps_of_staysApart`).

So one step of the members is one step of all (`PeerSearch.successors_members`), and from
there a run is an induction over the steps (`Flock.map_members_steps`).
-/

namespace Phototaxis

open Number

/-- The vehicles in the slots of a group, in slot order. -/
def members (group : Nat → Bool) (vehicles : Array Vehicle) : Array Vehicle :=
  ((vehicles.toList.zipIdx.filter fun entry => group entry.2).map (·.1)).toArray

/-- Whether all others are out of sight of the vehicles of a group. -/
def Apart (group : Nat → Bool) (vehicles : Array Vehicle) : Prop :=
  ∀ i j me peer, vehicles[i]? = some me → vehicles[j]? = some peer → group i = true →
    group j = false → Surroundings.sight < (peer.position - me.position).length

variable {group : Nat → Bool} {vehicles next : Array Vehicle} {me peer : Vehicle}
variable {search : PeerSearch} {lights : LightField} {dt : Float}

/-! ## Members -/

theorem mem_members_iff : me ∈ members group vehicles ↔
    ∃ slot, vehicles[slot]? = some me ∧ group slot = true := by
  simp only [members, List.mem_toArray, List.mem_map, List.mem_filter, Prod.exists,
    List.mem_zipIdx_iff_getElem?, Array.getElem?_toList]
  constructor
  · rintro ⟨_, slot, ⟨hget, hslot⟩, rfl⟩
    exact ⟨slot, hget, hslot⟩
  · rintro ⟨slot, hget, hslot⟩
    exact ⟨me, slot, ⟨hget, hslot⟩, rfl⟩

/-- Members change as the vehicles do. -/
theorem members_map (f : Vehicle → Vehicle) :
    members group (vehicles.map f) = (members group vehicles).map f := by
  unfold members
  rw [Array.toList_map, List.zipIdx_map, List.filter_map, List.map_map, List.map_toArray,
    List.map_map]
  rfl

theorem members_of_none (h : ∀ slot < vehicles.size, group slot = false) :
    members group vehicles = #[] := by
  refine Array.eq_empty_iff_forall_not_mem.mpr (fun me hme => ?_)
  obtain ⟨slot, hget, hslot⟩ := mem_members_iff.mp hme
  rw [h slot (Array.getElem?_eq_some_iff.mp hget).1] at hslot
  cases hslot

theorem members_of_all (h : ∀ slot < vehicles.size, group slot = true) :
    members group vehicles = vehicles := by
  unfold members
  rw [List.filter_eq_self.mpr, List.zipIdx_map_fst]
  rintro ⟨v, slot⟩ hentry
  exact h slot (Array.getElem?_eq_some_iff.mp
    (Array.getElem?_toList ▸ List.mem_zipIdx_iff_getElem?.mp hentry)).1

/-- A look at the members is a look at all, if the others are out of sight. -/
theorem foldl_members (offered : Vehicle → Bool) (seen : Surroundings)
    (hunseen : ∀ slot peer, vehicles[slot]? = some peer → group slot = false →
      Surroundings.sight < (peer.position - me.position).length) :
    ((members group vehicles).toList.filter offered).foldl (Surroundings.see me) seen
      = (vehicles.toList.filter offered).foldl (Surroundings.see me) seen := by
  have hentries : vehicles.toList = vehicles.toList.zipIdx.map (·.1) :=
    (List.zipIdx_map_fst 0 vehicles.toList).symm
  conv_rhs => rw [hentries]
  show ((((vehicles.toList.zipIdx.filter _).map _).filter _).foldl _ _) = _
  rw [List.filter_map, List.filter_map, List.foldl_map, List.foldl_map, List.foldl_filter,
    List.foldl_filter, List.foldl_filter]
  refine List.foldl_ext _ _ _ (fun seen entry hentry => ?_)
  cases hgroup : group entry.2 with
  | true => rfl
  | false =>
    rw [if_neg Bool.false_ne_true]
    split
    · exact (Surroundings.see_of_unseen (hunseen entry.2 entry.1
        (Array.getElem?_toList ▸ List.mem_zipIdx_iff_getElem?.mp hentry) hgroup)).symm
    · rfl

/-! ## What a search offers -/

/-- Only a finite center has anything within the radius. -/
theorem PlaceIndex.isFinite_of_within {center place : Vector2}
    (h : within center (widened Surroundings.sight) place) : center.isFinite := by
  have hle : (place - center).lengthSquared ≤ _ := of_decide_eq_true h
  have hdefined : (place - center).isDefined := by
    refine Vector2.isDefined_of_lengthSquared (isNaN_eq_false_of_le hle).1
  have hfinite := isFinite_of_le (nonneg_of_signed (Vector2.signed_lengthSquared hdefined)) hle
    (by decide +kernel)
  exact (Vector2.isFinite_of_sub (Vector2.isFinite_of_lengthSquared hfinite)).2

namespace PeerSearch

/-- Whether a search offers a peer to a vehicle, if the places of all are defined. -/
def offers (search : PeerSearch) (me peer : Vehicle) : Bool :=
  match search with
  | linear => true
  | indexed =>
    PlaceIndex.within me.position (PlaceIndex.widened Surroundings.sight) peer.position

/-- A center that is not finite finds nothing. -/
theorem found_of_overflow (h : me.position.isFinite = false) : found vehicles me = [] := by
  unfold found PlaceIndex.slotsAround
  dsimp only
  rw [List.filter_eq_nil_iff.mpr, List.map_nil, List.filterMap_nil]
  rintro ⟨place, slot⟩ - hwithin
  rw [PlaceIndex.isFinite_of_within (Bool.and_eq_true_iff.mp hwithin).1] at h
  cases h

/-- **Among defined places, whom a search offers depends on the two vehicles only.** -/
theorem peers_of_defined (hdefined : ∀ v ∈ vehicles, v.position.isDefined) :
    search.peers vehicles = .ok fun me => vehicles.toList.filter (search.offers me) := by
  cases search with
  | linear =>
    refine congrArg Except.ok (funext fun me => ?_)
    exact (List.filter_eq_self.mpr (fun _ _ => rfl)).symm
  | indexed =>
    rw [peers_indexed (.inr hdefined)]
    refine congrArg Except.ok (funext fun me => ?_)
    cases hme : me.position.isFinite with
    | true => exact found_eq_filter hme hdefined
    | false =>
      rw [found_of_overflow hme, eq_comm, List.filter_eq_nil_iff]
      intro peer _ hwithin
      rw [PlaceIndex.isFinite_of_within hwithin] at hme
      cases hme

end PeerSearch

/-! ## One step -/

theorem Apart.isDefined (hapart : Apart group vehicles)
    (hin : ∃ slot < vehicles.size, group slot = true)
    (hout : ∃ slot < vehicles.size, group slot = false) :
    ∀ v ∈ vehicles, v.position.isDefined := by
  obtain ⟨i, hi, hgi⟩ := hin
  obtain ⟨j, hj, hgj⟩ := hout
  have hoffset : ∀ k l me peer, vehicles[k]? = some me → vehicles[l]? = some peer →
      group k = true → group l = false →
        peer.position.isDefined ∧ me.position.isDefined := fun k l me peer hk hl hgk hgl => by
    have hlength := (isNaN_eq_false_of_lt (hapart k l me peer hk hl hgk hgl)).2
    rw [Vector2.isNaN_length, Bool.not_eq_false'] at hlength
    exact Vector2.isDefined_of_sub hlength
  intro v hv
  obtain ⟨slot, hslot, rfl⟩ := Array.mem_iff_getElem.mp hv
  have hget : vehicles[slot]? = some vehicles[slot] := Array.getElem?_eq_getElem hslot
  cases hgroup : group slot with
  | true => exact (hoffset slot j _ _ hget (Array.getElem?_eq_getElem hj) hgroup hgj).2
  | false => exact (hoffset i slot _ _ (Array.getElem?_eq_getElem hi) hget hgi hgroup).1

namespace PeerSearch

theorem size_of_successors (h : search.successors lights vehicles dt = .ok next) :
    next.size = vehicles.size := by
  obtain ⟨peers, -, rfl⟩ := map_eq_ok_iff.mp h
  exact Array.size_map

/-- **A step of the members is a step of all.** -/
theorem successors_members (hapart : Apart group vehicles)
    (hin : ∃ slot < vehicles.size, group slot = true) :
    search.successors lights (members group vehicles) dt
      = (search.successors lights vehicles dt).map (members group) := by
  by_cases hout : ∃ slot < vehicles.size, group slot = false
  · have hdefined := hapart.isDefined hin hout
    have hmembers : ∀ v ∈ members group vehicles, v.position.isDefined := fun v hv => by
      obtain ⟨slot, hget, -⟩ := mem_members_iff.mp hv
      exact hdefined v (Array.mem_of_getElem? hget)
    unfold successors
    rw [peers_of_defined hdefined, peers_of_defined hmembers]
    refine congrArg Except.ok ((Array.map_inj_left.mpr (fun me hme => ?_)).trans
      (members_map _).symm)
    obtain ⟨slot, hget, hslot⟩ := mem_members_iff.mp hme
    unfold Vehicle.step Surroundings.around
    rw [foldl_members _ _ (fun other peer hpeer hother =>
      hapart slot other me peer hget hpeer hslot hother)]
  -- all are members
  · have hall : ∀ slot < vehicles.size, group slot = true := fun slot hslot => by
      rw [← Bool.not_eq_false]
      exact fun hgroup => hout ⟨slot, hslot, hgroup⟩
    rw [members_of_all hall]
    cases h : search.successors lights vehicles dt with
    | error fault => rfl
    | ok next =>
      rw [Except.map, members_of_all (fun slot hslot => hall slot ?_)]
      rwa [← size_of_successors h]

end PeerSearch

/-! ## A run -/

namespace Flock

variable {flock after : Flock} {dts : List Float}

/-- The flock of the vehicles of a group only. -/
def only (group : Nat → Bool) (flock : Flock) : Flock :=
  (ofArray flock.lights (members group flock.vehicles)).withSearch flock.search

theorem size_of_step (h : flock.step dt = .ok after) :
    after.vehicles.size = flock.vehicles.size := by
  obtain ⟨peers, -, hvehicles⟩ := vehicles_of_step h
  rw [hvehicles, Array.size_map]

theorem steps_cons (dt : Float) (dts : List Float) :
    flock.steps (dt :: dts) = flock.step dt >>= (·.steps dts) := rfl

/-- Whether a group stays out of sight of the others for all steps. -/
def StaysApart (group : Nat → Bool) (flock : Flock) (dts : List Float) : Prop :=
  ∀ n < dts.length, ∀ between, flock.steps (dts.take n) = .ok between →
    Apart group between.vehicles

theorem StaysApart.take (h : flock.StaysApart group dts) (n : Nat) :
    flock.StaysApart group (dts.take n) := by
  intro k hk between hbetween
  rw [List.length_take] at hk
  rw [List.take_take, Nat.min_eq_left (by omega)] at hbetween
  exact h k (by omega) between hbetween

theorem StaysApart.tail (h : flock.StaysApart group (dt :: dts))
    (hstep : flock.step dt = .ok after) : after.StaysApart group dts := by
  intro n hn between hbetween
  refine h (n + 1) (Nat.succ_lt_succ hn) between ?_
  rw [List.take_succ_cons, steps_cons, hstep]
  exact hbetween

/-- **A group that no other sees evolves alone**, through faults as well. -/
theorem map_members_steps (hin : ∃ slot < flock.vehicles.size, group slot = true)
    (hapart : flock.StaysApart group dts) :
    ((flock.only group).steps dts).map Flock.vehicles
      = (flock.steps dts).map (members group ·.vehicles) := by
  rw [map_vehicles_steps]
  show dts.foldlM (flock.search.successors flock.lights) (members group flock.vehicles) = _
  induction dts generalizing flock with
  | nil => rfl
  | cons dt dts ih =>
    have hfirst : Apart group flock.vehicles := hapart 0 (Nat.succ_pos _) flock rfl
    rw [List.foldlM_cons, PeerSearch.successors_members hfirst hin, ← map_vehicles_step,
      steps_cons]
    cases h : flock.step dt with
    | error fault => rfl
    | ok next =>
      obtain ⟨hlights, hsearch⟩ := lights_and_search_of_step h
      show dts.foldlM _ (members group next.vehicles) = (next.steps dts).map _
      rw [← hlights, ← hsearch]
      exact ih (by rwa [size_of_step h]) (hapart.tail h)

/-- **Where there are two groups apart, no step fails.** -/
theorem steps_of_staysApart (hin : ∃ slot < flock.vehicles.size, group slot = true)
    (hout : ∃ slot < flock.vehicles.size, group slot = false)
    (hapart : flock.StaysApart group dts) : ∃ after, flock.steps dts = .ok after := by
  induction dts generalizing flock with
  | nil => exact ⟨flock, rfl⟩
  | cons dt dts ih =>
    have hfirst : Apart group flock.vehicles := hapart 0 (Nat.succ_pos _) flock rfl
    obtain ⟨next, hnext⟩ : ∃ next, flock.step dt = .ok next :=
      step_of_searchable (.inr (.inr (hfirst.isDefined hin hout)))
    rw [steps_cons, hnext]
    exact ih (by rwa [size_of_step hnext]) (by rwa [size_of_step hnext]) (hapart.tail hnext)

theorem steps_of_isEmpty (h : flock.vehicles = #[]) :
    ∃ after, flock.steps dts = .ok after ∧ after.vehicles = #[] := by
  induction dts generalizing flock with
  | nil => exact ⟨flock, rfl, h⟩
  | cons dt dts ih =>
    obtain ⟨next, hnext⟩ : ∃ next, flock.step dt = .ok next :=
      step_of_searchable (.inr (.inr (fun v hv => absurd (h ▸ hv) (Array.not_mem_empty v))))
    rw [steps_cons, hnext]
    exact ih (Array.eq_empty_of_size_eq_zero (by rw [size_of_step hnext, h]; rfl))

theorem size_of_steps (h : flock.steps dts = .ok after) :
    after.vehicles.size = flock.vehicles.size :=
  keeps_of_foldlM (P := fun f : Flock => f.vehicles.size = flock.vehicles.size)
    (fun _ _ _ hsize hstep => (size_of_step hstep).trans hsize) h rfl

/-- **Groups that do not see each other evolve alone.** Whichever slots a group has, and whatever
the lights, the search and the steps: if all others are out of its sight at the start of every step,
then after every step the vehicles of the group, in slot order, are those of the flock that has no
others. If the one flock fails, so does the other, unless nobody is in the group; and if there is
somebody in the group and somebody else, no step fails. -/
theorem group_evolves_alone (group : Nat → Bool) (flock : Flock) (dts : List Float)
    (hapart : flock.StaysApart group dts) (n : Nat) :
    (∀ after, flock.steps (dts.take n) = .ok after →
      ∃ alone, (flock.only group).steps (dts.take n) = .ok alone ∧
        alone.vehicles = members group after.vehicles) ∧
    (∀ fault, (∃ slot < flock.vehicles.size, group slot = true) →
      flock.steps (dts.take n) = .error fault →
        (flock.only group).steps (dts.take n) = .error fault) ∧
    ((∃ slot < flock.vehicles.size, group slot = true) →
      (∃ slot < flock.vehicles.size, group slot = false) →
        ∃ after, flock.steps (dts.take n) = .ok after) := by
  have htake := hapart.take n
  refine ⟨fun after hafter => ?_, fun fault hin hfault => ?_, fun hin hout =>
    steps_of_staysApart hin hout htake⟩
  · by_cases hin : ∃ slot < flock.vehicles.size, group slot = true
    · have hmap := map_members_steps hin htake
      rw [hafter] at hmap
      exact map_eq_ok_iff.mp hmap
    -- nobody is in the group, neither now nor after the steps
    · have hnone : ∀ slot < flock.vehicles.size, group slot = false := fun slot hslot => by
        rw [← Bool.not_eq_true]
        exact fun hgroup => hin ⟨slot, hslot, hgroup⟩
      have hempty : (flock.only group).vehicles = #[] := members_of_none hnone
      obtain ⟨alone, halone, hvehicles⟩ := steps_of_isEmpty hempty
      refine ⟨alone, halone, hvehicles.trans (members_of_none ?_).symm⟩
      rwa [size_of_steps hafter]
  · have hmap := map_members_steps hin htake
    rw [hfault] at hmap
    exact map_eq_error_iff.mp hmap

/-- Two followers side by side, and a leader far away in the slot between theirs. -/
def strangers : Array Vehicle :=
  #[.followerAt .zero, { Vehicle.followerAt ⟨500.0, 500.0⟩ with behavior := .leaderClockwise },
    .followerAt ⟨1.0, 0.0⟩]

/-- The followers move as if the leader were not there. -/
theorem group_evolves_alone_strangers :
    (ofArray glare strangers).StaysApart (· % 2 == 0) [0.05] ∧
    ∃ after alone, (ofArray glare strangers).steps [0.05] = .ok after ∧
      ((ofArray glare strangers).only (· % 2 == 0)).steps [0.05] = .ok alone ∧
      alone.vehicles = members (· % 2 == 0) after.vehicles := by
  have hdistance : ∀ i j : Fin strangers.size, i.val % 2 = 0 → j.val % 2 ≠ 0 →
      Surroundings.sight < (strangers[j].position - strangers[i].position).length := by
    decide +kernel
  have hapart : (ofArray glare strangers).StaysApart (· % 2 == 0) [0.05] := by
    intro n hn between hbetween i j me peer hi hj hgi hgj
    obtain rfl : n = 0 := Nat.lt_one_iff.mp hn
    cases hbetween
    obtain ⟨hi', rfl⟩ := Array.getElem?_eq_some_iff.mp hi
    obtain ⟨hj', rfl⟩ := Array.getElem?_eq_some_iff.mp hj
    exact hdistance ⟨i, hi'⟩ ⟨j, hj'⟩ (beq_iff_eq.mp hgi) (beq_eq_false_iff_ne.mp hgj)
  obtain ⟨hevolves, -, hsteps⟩ :=
    group_evolves_alone (· % 2 == 0) (ofArray glare strangers) [0.05] hapart 1
  obtain ⟨after, hafter⟩ := hsteps ⟨0, by decide, rfl⟩ ⟨1, by decide, rfl⟩
  obtain ⟨alone, halone, hvehicles⟩ := hevolves after hafter
  exact ⟨hapart, after, alone, hafter, halone, hvehicles⟩

end Flock

end Phototaxis
