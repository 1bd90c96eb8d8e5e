import Mathlib
import Phototaxis.Proofs.Flock.DoubleBuffer
import Phototaxis.Proofs.Flock.PlaceGroups

/-!
# Where the two searches agree

A linear search hands every peer to the vehicle, which then decides by the distance
whom it sees. An indexed search leaves peers out beforehand. What it leaves out should
be out of sight, so that both lead to the same generations, bit for bit.

They do as long as distances are numbers. A peer that is not within the widened radius
is then out of sight by its length as well (`PlaceIndex.sight_lt_length`), no group of
places shuts out a near one (`PlaceIndex.slotsAround_eq`), and the peers that remain come
in slot order, so that not even the rounding of the sums can differ
(`Surroundings.around_found`).

A distance that is no number divides them. To the linear search such a peer is neither
too near nor too far and is counted; to the index it is within no radius. Moreover the
index has no order for more than six places if one of them is undefined, and then there
is no step at all. So two runs agree exactly if no generation on the way is of this
kind, or if what the followers concerned lose by it does not show
(`searches_agree_iff`). It can only fail to show in a vehicle that is spoilt anyway: a
follower that counts a peer at no distance comes out with a speed that is no number
(`Vehicle.measures_of_speed`).

Finite places are harmless, however far apart (`unspoilt_of_isFinite`), but a world of
finite numbers does not keep its places finite: a strong enough light overflows the
steering vector, and a step of no length turns that into no number.
-/

namespace Phototaxis

open Number

/-! ## Distances that are numbers -/

/-- Whether the distance of a vehicle to each of some vehicles is a number. -/
def Vehicle.Measures (me : Vehicle) (vehicles : List Vehicle) : Prop :=
  ∀ peer ∈ vehicles, (peer.position - me.position).length.isNaN = false

/-- A vehicle that measures its own generation measures itself, and so has a finite place. -/
theorem Vehicle.Measures.isFinite {me : Vehicle} {vehicles : Array Vehicle}
    (h : me.Measures vehicles.toList) (hme : me ∈ vehicles) : me.position.isFinite := by
  have hself := h me (Array.mem_toList_iff.mpr hme)
  rw [Vector2.isNaN_length, Bool.not_eq_false'] at hself
  exact Vector2.isFinite_of_sub_self hself

theorem Vehicle.Measures.isDefined {me : Vehicle} {vehicles : Array Vehicle}
    (h : me.Measures vehicles.toList) : ∀ v ∈ vehicles, v.position.isDefined := by
  intro v hv
  have hoffset := h v (Array.mem_toList_iff.mpr hv)
  rw [Vector2.isNaN_length, Bool.not_eq_false'] at hoffset
  exact (Vector2.isDefined_of_sub hoffset).1

theorem not_lt_of_isNaN {x : Float} (h : x.isNaN) (y : Float) : ¬ x < y ∧ ¬ y < x := by
  constructor <;> intro hlt
  · rw [(isNaN_eq_false_of_lt hlt).1] at h
    cases h
  · rw [(isNaN_eq_false_of_lt hlt).2] at h
    cases h

/-! ## What the index finds -/

namespace PeerSearch

/-- Whether the places of a generation can be put in order, if they have to. -/
def Orderable (vehicles : Array Vehicle) : Prop :=
  vehicles.size ≤ PlaceGroup.capacity ∨ ∀ v ∈ vehicles, v.position.isDefined

/-- The peers that an index of a generation finds around a vehicle. -/
def found (vehicles : Array Vehicle) (me : Vehicle) : List Vehicle :=
  ((PlaceIndex.ofOrdered (vehicles.map (·.position))).slotsAround me.position
    Surroundings.sight).filterMap (vehicles[·]?)

variable {vehicles : Array Vehicle} {me : Vehicle}

theorem orderable_iff : Orderable vehicles ↔
    (PlaceGroup.capacity < (vehicles.map (·.position)).size
      && !(vehicles.map (·.position)).all (·.isDefined)) = false := by
  simp [Orderable, or_iff_not_imp_left, Array.forall_mem_iff_forall_getElem]

theorem peers_indexed (h : Orderable vehicles) :
    indexed.peers vehicles = .ok (found vehicles) := by
  unfold peers PlaceIndex.ofPlaces
  rw [orderable_iff.mp h]
  rfl

theorem peers_indexed_error (h : ¬ Orderable vehicles) :
    indexed.peers vehicles = .error .unorderedPlaces := by
  rw [orderable_iff, Bool.not_eq_false] at h
  unfold peers PlaceIndex.ofPlaces
  rw [h]
  rfl

/-- Looking up the slots of what passes a test on its value is passing the test. -/
theorem filterMap_zipIdx_filter {α β : Type} (f : α → β) (p : β → Bool) (lookup : Nat → Option α)
    (l : List α) (start : Nat) (h : ∀ i, lookup (start + i) = l[i]?) :
    ((((l.map f).zipIdx start).filter fun entry => p entry.1).map (·.2)).filterMap lookup
      = l.filter fun a => p (f a) := by
  induction l generalizing start with
  | nil => rfl
  | cons a l ih =>
    have hhead : lookup start = some a := h 0
    have htail : ∀ i, lookup (start + 1 + i) = l[i]? := fun i => by
      rw [Nat.add_assoc, Nat.add_comm 1]
      exact h (i + 1)
    rw [List.map_cons, List.zipIdx_cons, List.filter_cons, List.filter_cons]
    split
    · rw [List.map_cons, List.filterMap_cons_some hhead, ih _ htail]
    · exact ih _ htail

/-- **The index finds what is within its radius, in slot order**, if the center is finite and every
place is defined. -/
theorem found_eq_filter (hme : me.position.isFinite)
    (hdefined : ∀ v ∈ vehicles, v.position.isDefined) : found vehicles me =
      vehicles.toList.filter fun peer =>
        PlaceIndex.within me.position (PlaceIndex.widened Surroundings.sight) peer.position := by
  unfold found
  rw [PlaceIndex.slotsAround_eq hme (Array.forall_mem_map.mpr hdefined), PlaceIndex.ofOrdered,
    Array.toList_map]
  refine filterMap_zipIdx_filter _ _ _ _ 0 (fun i => ?_)
  rw [Nat.zero_add, Array.getElem?_toList]

end PeerSearch

namespace Surroundings

variable {me peer : Vehicle} {seen : Surroundings} {peers : List Vehicle}

theorem see_of_unseen (h : sight < (peer.position - me.position).length) :
    see me seen peer = seen := by
  unfold see
  exact if_pos (by simp [h])

theorem isDefined_of_addPull {pull offset : Vector2} (h : (addPull pull offset peer).isDefined) :
    pull.isDefined ∧ offset.isDefined := by
  have hpulled : (pull + offset / pullDivisor).isDefined := by
    unfold addPull at h
    dsimp only at h
    split at h
    · exact (Vector2.isDefined_of_add h).1
    · exact h
  obtain ⟨hpull, hoffset⟩ := Vector2.isDefined_of_add hpulled
  exact ⟨hpull, Vector2.isDefined_of_div hoffset⟩

/-- **A vehicle sees the same with the index**, if its distances are numbers: what the index leaves
out is out of sight, and the rest comes in the same order. -/
theorem around_found {vehicles : Array Vehicle} (hme : me ∈ vehicles)
    (h : me.Measures vehicles.toList) :
    around me (PeerSearch.found vehicles me) = around me vehicles.toList := by
  rw [PeerSearch.found_eq_filter (h.isFinite hme) h.isDefined]
  unfold around
  rw [List.foldl_filter]
  refine congrArg average (List.foldl_ext _ _ _ (fun seen peer hp => ?_))
  split
  · rfl
  · rename_i hout
    exact (see_of_unseen (PlaceIndex.sight_lt_length (Bool.eq_false_iff.mpr hout)
      (h peer hp))).symm

/-- One look leaves the pull defined only at a distance that is a number. -/
theorem measured_of_see (h : (see me seen peer).cohesion.isDefined) :
    seen.cohesion.isDefined ∧ (peer.position - me.position).length.isNaN = false := by
  unfold see at h
  dsimp only at h
  split at h
  · rename_i hskip
    refine ⟨h, Bool.eq_false_iff.mpr (fun hn => ?_)⟩
    -- no number is neither too near nor too far, so it would not have been skipped
    obtain ⟨hnear, -⟩ := not_lt_of_isNaN hn selfDistance
    obtain ⟨-, hfar⟩ := not_lt_of_isNaN hn sight
    simp only [Bool.or_eq_true, decide_eq_true_eq] at hskip
    exact hskip.elim hnear hfar
  · obtain ⟨hpull, hoffset⟩ := isDefined_of_addPull h
    exact ⟨hpull, Vector2.isNaN_length_of_isDefined hoffset⟩

theorem measures_of_foldl (h : (peers.foldl (see me) seen).cohesion.isDefined) :
    seen.cohesion.isDefined ∧ me.Measures peers := by
  induction peers generalizing seen with
  | nil => exact ⟨h, fun _ hp => absurd hp List.not_mem_nil⟩
  | cons peer peers ih =>
    obtain ⟨hsee, hpeers⟩ := ih h
    obtain ⟨hseen, hpeer⟩ := measured_of_see hsee
    refine ⟨hseen, fun p hp => ?_⟩
    rcases List.mem_cons.mp hp with rfl | hp
    · exact hpeer
    · exact hpeers p hp

theorem isDefined_of_average (h : seen.average.cohesion.isDefined) : seen.cohesion.isDefined := by
  unfold average at h
  split at h
  · exact h
  · exact Vector2.isDefined_of_div h

end Surroundings

namespace Vehicle

variable {me : Vehicle} {dt : Float} {lights : LightField} {peers : List Vehicle}

/-- **A follower with a speed has measured all its peers**: a distance that is no number spoils the
pull, and so the velocity and its length. -/
theorem measures_of_speed (hme : me.behavior = .follower)
    (h : (me.step dt lights peers).speed.isNaN = false) : me.Measures peers := by
  have hvelocity : (me.nextVelocity dt lights (.around me peers)).isDefined := by
    change (Vector2.length _).isNaN = false at h
    rwa [Vector2.isNaN_length, Bool.not_eq_false'] at h
  unfold nextVelocity at hvelocity
  rw [hme] at hvelocity
  -- the pull is the second of five summands
  have hsum := (Vector2.isDefined_of_add (Vector2.isDefined_of_add
    (Vector2.isDefined_of_add hvelocity).1).1).1
  have hpull := Vector2.isDefined_of_div (Vector2.isDefined_of_add hsum).2
  exact (Surroundings.measures_of_foldl (Surroundings.isDefined_of_average hpull)).2

/-- A follower whose steering vector overflows is nowhere after a step of no length. -/
theorem undefined_of_overflow (hme : me.behavior = .follower)
    (h : (lights.steeringAt me.position).x.isFinite = false) :
    ¬ (me.step 0.0 lights peers).position.isDefined := by
  intro hdefined
  have hx := (Vector2.isDefined_iff.mp hdefined).1
  have hvelocity : (me.nextVelocity 0.0 lights (.around me peers)).x.isFinite = false := by
    unfold nextVelocity
    rw [hme]
    exact isFinite_add (.inl (isFinite_add (.inr h)))
  have hnan : (me.step 0.0 lights peers).position.x.isNaN :=
    isNaN_add (.inr (isNaN_mul_of_zero (s := .positive) rfl hvelocity))
  rw [hnan] at hx
  cases hx

/-- A leader takes no notice of lights and peers. -/
theorem step_of_leader (hme : me.behavior ≠ .follower) (lights' : LightField)
    (peers' : List Vehicle) : me.step dt lights peers = me.step dt lights' peers' := by
  unfold step nextVelocity
  cases h : me.behavior with
  | follower => exact absurd h hme
  | leaderClockwise => rfl
  | leaderCounterClockwise => rfl

end Vehicle

/-! ## One generation -/

namespace PeerSearch

/-- The generation after a step. -/
def successors (search : PeerSearch) (lights : LightField) (generation : Array Vehicle)
    (dt : Float) : Except Fault (Array Vehicle) :=
  (search.peers generation).map fun peers => generation.map fun me => me.step dt lights (peers me)

/-- What a generation must be like for a step with the index to be the same as without: it has an
order, if it needs one, and no follower is changed by the peers at no distance that the index
leaves out. -/
structure Unspoilt (lights : LightField) (dt : Float) (generation : Array Vehicle) : Prop where
  orderable : Orderable generation
  step_found : ∀ me ∈ generation, me.behavior = .follower → ¬ me.Measures generation.toList →
    me.step dt lights (found generation me) = me.step dt lights generation.toList

variable {lights : LightField} {generation : Array Vehicle} {dt : Float}

/-- **Two steps agree exactly if the generation is unspoilt.** -/
theorem successors_eq_iff : indexed.successors lights generation dt
    = linear.successors lights generation dt ↔ Unspoilt lights dt generation := by
  have hlinear : linear.successors lights generation dt
      = .ok (generation.map fun me => me.step dt lights generation.toList) := rfl
  rw [hlinear]
  unfold successors
  constructor
  · intro h
    by_cases ho : Orderable generation
    · rw [peers_indexed ho] at h
      have hstep := Array.map_inj_left.mp (Except.ok.inj h)
      exact ⟨ho, fun me hme _ _ => hstep me hme⟩
    · rw [peers_indexed_error ho] at h
      cases h
  · rintro ⟨ho, hfound⟩
    rw [peers_indexed ho]
    refine congrArg Except.ok (Array.map_inj_left.mpr (fun me hme => ?_))
    by_cases hb : me.behavior = .follower
    · by_cases hm : me.Measures generation.toList
      · unfold Vehicle.step
        rw [Surroundings.around_found hme hm]
      · exact hfound me hme hb hm
    · exact Vehicle.step_of_leader hb lights _

/-- **Finite places are harmless.** -/
theorem unspoilt_of_isFinite (h : ∀ v ∈ generation, v.position.isFinite) :
    Unspoilt lights dt generation := by
  have hdefined : ∀ v ∈ generation, v.position.isDefined := fun v hv =>
    Vector2.isDefined_of_isFinite (h v hv)
  refine ⟨.inr hdefined, fun me hme _ hm => absurd (fun peer hp => ?_) hm⟩
  rw [Vector2.isNaN_length, Vector2.isDefined_sub (hdefined peer (Array.mem_toList_iff.mp hp))
    (h me hme)]
  rfl

end PeerSearch

/-! ## A crowd in the glare -/

/-- Seven followers at the origin, one more than fit into one group. -/
def crowd : Array Vehicle := Array.replicate 7 (.followerAt .zero)

/-- Two lights in one place whose steering vectors have no finite sum. -/
def glare : LightField := .ofList [⟨⟨1.0, 0.0⟩, 1.7e308⟩, ⟨⟨1.0, 0.0⟩, 1.7e308⟩]

theorem eq_of_mem_crowd {v : Vehicle} (hv : v ∈ crowd) : v = .followerAt .zero :=
  (Array.mem_replicate.mp hv).2

theorem orderable_crowd : PeerSearch.Orderable crowd := by
  refine .inr (fun v hv => ?_)
  rw [eq_of_mem_crowd hv]
  decide +kernel

/-- **The crowd has no order after a step of no length in the glare**, whoever its vehicles look
at. -/
theorem not_orderable_crowd (peers : Vehicle → List Vehicle) :
    ¬ PeerSearch.Orderable (crowd.map fun me => me.step 0.0 glare (peers me)) := by
  rintro (hsize | hdefined)
  · rw [Array.size_map, crowd, Array.size_replicate] at hsize
    exact absurd hsize (by decide)
  · have hmem : Vehicle.followerAt .zero ∈ crowd := Array.mem_replicate.mpr ⟨by decide, rfl⟩
    have hsteering : (glare.steeringAt (Vehicle.followerAt .zero).position).x.isFinite = false := by
      decide +kernel
    exact Vehicle.undefined_of_overflow rfl hsteering (hdefined _ (Array.mem_map_of_mem hmem))

/-! ## A run -/

namespace Flock

/-- The flock after steps of the given lengths. -/
def steps (flock : Flock) (dts : List Float) : Except Fault Flock := dts.foldlM step flock

variable {flock : Flock} {dt : Float}

theorem map_vehicles_step : (flock.step dt).map vehicles
    = flock.search.successors flock.lights flock.vehicles dt := by
  unfold step PeerSearch.successors
  cases flock.search.peers flock.vehicles with
  | error fault => rfl
  | ok peers => exact congrArg Except.ok (Population.step_current _)

/-- Whether the vehicles of a flock can be searched. -/
def Searchable (flock : Flock) : Prop :=
  flock.search = .linear ∨ PeerSearch.Orderable flock.vehicles

/-- **A step succeeds if the vehicles can be searched.** -/
theorem step_of_searchable (h : flock.Searchable) : ∃ after, flock.step dt = .ok after := by
  have hpeers : ∃ peers, flock.search.peers flock.vehicles = .ok peers := by
    cases hsearch : flock.search with
    | linear => exact ⟨_, rfl⟩
    | indexed =>
      rcases h with hlinear | horderable
      · rw [hsearch] at hlinear
        cases hlinear
      · exact ⟨_, PeerSearch.peers_indexed horderable⟩
  obtain ⟨peers, hpeers⟩ := hpeers
  exact ⟨_, step_eq_ok_iff.mpr ⟨peers, hpeers, rfl⟩⟩

theorem step_of_not_searchable (h : ¬ flock.Searchable) :
    flock.step dt = .error .unorderedPlaces := by
  obtain ⟨hlinear, horderable⟩ := not_or.mp h
  unfold step
  cases hsearch : flock.search with
  | linear => exact absurd hsearch hlinear
  | indexed =>
    rw [PeerSearch.peers_indexed_error horderable]
    rfl

/-- The generations of a run depend on lights and search only, not on the buffers. -/
theorem map_vehicles_steps (dts : List Float) : (flock.steps dts).map vehicles
    = dts.foldlM (flock.search.successors flock.lights) flock.vehicles := by
  induction dts generalizing flock with
  | nil => rfl
  | cons dt dts ih =>
    rw [List.foldlM_cons, ← map_vehicles_step]
    show (flock.step dt >>= (·.steps dts)).map vehicles = _
    cases h : flock.step dt with
    | error fault => rfl
    | ok next =>
      obtain ⟨hlights, hsearch⟩ := lights_and_search_of_step h
      show (next.steps dts).map vehicles = _
      rw [ih, hlights, hsearch]
      rfl

section Agreement

variable (lights : LightField) (vehicles : Array Vehicle) (dts : List Float)

/-- The generation that a flock made of some lights and vehicles holds after so many steps. -/
def generationAfter (search : PeerSearch) (n : Nat) : Except Fault (Array Vehicle) :=
  (((ofArray lights vehicles).withSearch search).steps (dts.take n)).map Flock.vehicles

theorem generationAfter_zero (search : PeerSearch) :
    generationAfter lights vehicles dts search 0 = .ok vehicles := rfl

theorem generationAfter_succ (search : PeerSearch) {n : Nat} (hn : n < dts.length) :
    generationAfter lights vehicles dts search (n + 1) =
      generationAfter lights vehicles dts search n >>= (search.successors lights · dts[n]) := by
  unfold generationAfter
  rw [map_vehicles_steps, map_vehicles_steps, List.take_succ_eq_append_getElem hn,
    List.foldlM_append]
  refine congrArg _ (funext fun generation => ?_)
  exact bind_pure _

/-- A linear search cannot fail. -/
theorem generationAfter_linear {n : Nat} (hn : n ≤ dts.length) :
    ∃ generation, generationAfter lights vehicles dts .linear n = .ok generation := by
  induction n with
  | zero => exact ⟨vehicles, rfl⟩
  | succ n ih =>
    obtain ⟨generation, h⟩ := ih (Nat.le_of_succ_le hn)
    rw [generationAfter_succ lights vehicles dts .linear hn, h]
    exact ⟨_, rfl⟩

/-- **Where the two searches agree.** Two flocks made of the same lights and vehicles, one with a
linear and one with an indexed search, hold the same generation after every step exactly if no
generation before the last is spoilt for its step. A generation of finite places is not, and a
follower at whom one is spoilt is one that no longer has a speed after the step with the linear
search. -/
theorem searches_agree_iff :
    ((∀ n ≤ dts.length, generationAfter lights vehicles dts .indexed n
        = generationAfter lights vehicles dts .linear n) ↔
      ∀ n (hn : n < dts.length) generation,
        generationAfter lights vehicles dts .linear n = .ok generation →
          PeerSearch.Unspoilt lights dts[n] generation) ∧
    (∀ (dt : Float) (generation : Array Vehicle), (∀ v ∈ generation, v.position.isFinite) →
      PeerSearch.Unspoilt lights dt generation) ∧
    ∀ (dt : Float) (generation : List Vehicle) (me : Vehicle), me.behavior = .follower →
      ¬ me.Measures generation → (me.step dt lights generation).speed.isNaN := by
  refine ⟨⟨fun h n hn generation hg => ?_, fun h n hn => ?_⟩,
    fun dt generation hfinite => PeerSearch.unspoilt_of_isFinite hfinite,
    fun dt generation me hme hm => ?_⟩
  -- both runs hold the generation, so the next step tells
  · have hnext := h (n + 1) hn
    rw [generationAfter_succ _ _ _ _ hn, generationAfter_succ _ _ _ _ hn, h n hn.le, hg] at hnext
    exact PeerSearch.successors_eq_iff.mp hnext
  · induction n with
    | zero => rfl
    | succ n ih =>
      obtain ⟨generation, hg⟩ := generationAfter_linear lights vehicles dts (Nat.le_of_succ_le hn)
      rw [generationAfter_succ _ _ _ _ hn, generationAfter_succ _ _ _ _ hn,
        ih (Nat.le_of_succ_le hn), hg]
      exact PeerSearch.successors_eq_iff.mpr (h n hn generation hg)
  · rw [← Bool.not_eq_false]
    exact fun hs => hm (Vehicle.measures_of_speed hme hs)

end Agreement

/-- The plan of the crowd in the glare. -/
def crowdPlan : Plan := { lights := glare.lights.toList, vehicles := crowd.toList }

/-- **Finite numbers do not keep the searches together.** There is a plan of the crowd in the glare,
and it is made of finite numbers. Yet the second of two steps of no length succeeds with a linear
search only. -/
theorem searches_disagree_in_glare :
    (∀ read, (crowdPlan.scenario read).map ofScenario = .ok (ofArray glare crowd)) ∧
      (∀ v ∈ crowd, v.position.isFinite ∧ v.heading.isFinite ∧ v.speed.isFinite ∧ 0.0 ≤ v.speed) ∧
      (∀ light ∈ glare.lights, light.position.isFinite ∧ light.intensity.isFinite) ∧
      (∃ generation, generationAfter glare crowd [0.0, 0.0] .linear 2 = .ok generation) ∧
      generationAfter glare crowd [0.0, 0.0] .indexed 2 = .error .unorderedPlaces := by
  refine ⟨fun read => ?_, fun v hv => ?_, by decide +kernel,
    generationAfter_linear _ _ _ (by decide), ?_⟩
  · rfl
  · rw [eq_of_mem_crowd hv]
    decide +kernel
  -- the first step is the one of the linear search, and leaves the crowd nowhere
  · rw [generationAfter_succ _ _ _ _ (by decide), generationAfter_succ _ _ _ _ (by decide),
      generationAfter_zero]
    show (PeerSearch.indexed.successors glare crowd 0.0 >>= _) = _
    unfold PeerSearch.successors
    rw [PeerSearch.peers_indexed orderable_crowd]
    show (PeerSearch.indexed.peers _).map _ = _
    rw [PeerSearch.peers_indexed_error (not_orderable_crowd _)]
    rfl

end Flock

end Phototaxis
