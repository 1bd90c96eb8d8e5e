import Mathlib
import Phototaxis.Proofs.Flock.SearchAgreement
import Phototaxis.Proofs.Light
import Phototaxis.Proofs.Vehicle.Overflow

/-!
# How long finite worlds stay well formed

A world is given by finite numbers, and no speed is below zero. Its vehicles should stay
well formed for ever: no speed below zero, and nothing that is not a number. The divisors
have floors for that purpose.

Part of it holds without condition. No speed is ever below zero, and heading and speed are
numbers wherever the position is one (`sound_of_generationAfter`). But the floors
guard against small distances only, and positions can be lost to large numbers. As long
as a generation is finite, it is known how: the next one exists with either search, and a
vehicle in it is well formed exactly if

* the steering vector and the mean velocity of the peers have a sum, if it is a follower.
  An infinity on one side does no harm, but opposite ones do; and there is no steering
  vector at all if a light is so far off that the offset overflows;
* the velocity is finite, or the step has a length. Else an infinity meets a zero.

So a follower and a light at the two ends of the number range are enough to lose a vehicle
in a single step (`spoilt_by_distant_light`).
-/

namespace Phototaxis

open Number

variable {lights : LightField} {generation next : Array Vehicle} {search : PeerSearch}
variable {dt : Float} {me : Vehicle}

namespace PeerSearch

/-- Whoever comes out of a step was in the generation before. -/
theorem exists_step_of_successors (h : search.successors lights generation dt = .ok next) :
    ∀ after ∈ next, ∃ me ∈ generation, ∃ peers, after = me.step dt lights peers := by
  obtain ⟨peers, -, rfl⟩ := map_eq_ok_iff.mp h
  intro after hafter
  obtain ⟨me, hme, rfl⟩ := Array.mem_map.mp hafter
  exact ⟨me, hme, peers me, rfl⟩

/-- **Among finite places the search does not matter.** -/
theorem successors_of_isFinite (h : ∀ v ∈ generation, v.position.isFinite) :
    search.successors lights generation dt
      = .ok (generation.map fun me => me.step dt lights generation.toList) := by
  cases search with
  | linear => rfl
  | indexed => exact successors_eq_iff.mpr (unspoilt_of_isFinite h)

end PeerSearch

namespace Vehicle

/-- What all reachable vehicles have in common: no speed below zero, and nothing is lost but with
the position. -/
structure Sound (v : Vehicle) : Prop where
  wellFormed : v.position.isDefined → v.WellFormed
  speed : ¬ v.speed < 0.0

theorem WellFormed.sound (h : me.WellFormed) : me.Sound :=
  ⟨fun _ => h, not_lt_of_le h.nonneg⟩

theorem IsFinite.wellFormed (h : me.IsFinite) : me.WellFormed :=
  ⟨Vector2.isDefined_of_isFinite h.position, isNaN_of_isFinite h.heading, h.nonneg⟩

/-- **A step keeps a vehicle sound**, whatever it sees. -/
theorem Sound.step (h : me.Sound) (peers : List Vehicle) : (me.step dt lights peers).Sound := by
  refine ⟨fun hposition => wellFormed_move ?_ hposition, ?_⟩
  -- where the new position is one, so was the old one
  · exact (h.wellFormed (Vector2.isDefined_of_add hposition).1).heading
  · exact Vector2.not_length_lt_zero

/-- **When a finite vehicle among finite ones comes out of a step well formed.** -/
theorem wellFormed_step_iff {peers : List Vehicle} (hme : me.IsFinite)
    (hpeers : ∀ peer ∈ peers, peer.IsFinite) (hdt : dt.isFinite) (h0 : 0.0 ≤ dt) :
    (me.step dt lights peers).WellFormed ↔
      me.Compatible lights (.around me peers) ∧
        (0.0 < dt ∨ (me.nextVelocity dt lights (.around me peers)).isFinite) := by
  have hmoderate : (Surroundings.around me peers).Moderate :=
    Surroundings.moderate_around hme.position (fun peer h => (hpeers peer h).position)
  rw [← isDefined_nextVelocity_iff hdt hme hmoderate]
  exact wellFormed_move_iff hme hdt h0

end Vehicle

/-! ## A run -/

namespace Flock

section Run

variable (lights : LightField) (vehicles : Array Vehicle) (dts : List Float) (search : PeerSearch)

/-- **Every reachable vehicle is sound.** -/
theorem sound_of_generationAfter (hvehicles : ∀ v ∈ vehicles, v.Sound) {n : Nat}
    (hn : n ≤ dts.length) {generation : Array Vehicle}
    (h : generationAfter lights vehicles dts search n = .ok generation) :
    ∀ v ∈ generation, v.Sound := by
  induction n generalizing generation with
  | zero =>
    cases h
    exact hvehicles
  | succ n ih =>
    rw [generationAfter_succ lights vehicles dts search hn] at h
    obtain ⟨before, hbefore, hstep⟩ := bind_eq_ok_iff.mp h
    intro after hafter
    obtain ⟨me, hme, peers, rfl⟩ := PeerSearch.exists_step_of_successors hstep after hafter
    exact (ih (Nat.le_of_succ_le hn) hbefore me hme).step peers

/-- **How long finite worlds stay well formed.** In every reachable generation, no speed is below
zero, and a vehicle is well formed if only its position is a pair of numbers. After a finite
generation there is a next one, the same with both searches, and a vehicle is well formed in it
exactly if its mean velocity and its steering vector have a sum, should it be a follower, and if
its velocity is finite or the step has a length. There is a steering vector exactly if no offset to
a light overflows. -/
theorem wellFormed_until_overflow (hlights : ∀ light ∈ lights.lights, light.IsFinite)
    (hvehicles : ∀ v ∈ vehicles, v.IsFinite) (hdts : ∀ dt ∈ dts, dt.isFinite ∧ 0.0 ≤ dt) :
    (∀ n ≤ dts.length, ∀ generation,
      generationAfter lights vehicles dts search n = .ok generation →
        ∀ v ∈ generation, ¬ v.speed < 0.0 ∧ (v.WellFormed ↔ v.position.isDefined)) ∧
    (∀ n (hn : n < dts.length) generation,
      generationAfter lights vehicles dts search n = .ok generation →
        (∀ v ∈ generation, v.IsFinite) →
          generationAfter lights vehicles dts search (n + 1)
            = .ok (generation.map fun me => me.step dts[n] lights generation.toList) ∧
          ∀ me ∈ generation, ((me.step dts[n] lights generation.toList).WellFormed ↔
            me.Compatible lights (.around me generation.toList) ∧
              (0.0 < dts[n] ∨
                (me.nextVelocity dts[n] lights (.around me generation.toList)).isFinite))) ∧
    ∀ point, (lights.steeringAt point).isDefined ↔
      ∀ light ∈ lights.lights, (point - light.position).isFinite := by
  refine ⟨fun n hn generation h v hv => ?_, fun n hn generation h hfinite => ⟨?_, fun me hme => ?_⟩,
    fun point => LightField.isDefined_steeringAt_iff hlights⟩
  · have hsound := sound_of_generationAfter lights vehicles dts search
      (fun v hv => (hvehicles v hv).wellFormed.sound) hn h v hv
    exact ⟨hsound.speed, fun h => h.position, hsound.wellFormed⟩
  · rw [generationAfter_succ lights vehicles dts search hn, h]
    exact PeerSearch.successors_of_isFinite (fun v hv => (hfinite v hv).position)
  · obtain ⟨hdt, h0⟩ := hdts dts[n] (List.getElem_mem hn)
    exact Vehicle.wellFormed_step_iff (hfinite me hme)
      (fun peer hp => hfinite peer (Array.mem_toList_iff.mp hp)) hdt h0

end Run

theorem isFinite_glare : ∀ light ∈ glare.lights, light.IsFinite := by
  have hnumbers : ∀ light ∈ glare.lights, light.position.isFinite ∧ light.intensity.isFinite := by
    decide +kernel
  exact fun light hlight => ⟨(hnumbers light hlight).1, (hnumbers light hlight).2⟩

/-- The crowd in the glare comes out of a step of a hundredth of a second well formed, though it has
gone out of the number range. -/
theorem wellFormed_until_overflow_crowd :
    (∀ light ∈ glare.lights, light.IsFinite) ∧ (∀ v ∈ crowd, v.IsFinite) ∧
      ∃ next, generationAfter glare crowd [0.01] .indexed 1 = .ok next ∧
        ∀ v ∈ next, v.WellFormed ∧ v.position.isFinite = false := by
  have hcrowd : ∀ v ∈ crowd, v.IsFinite := by
    intro v hv
    rw [eq_of_mem_crowd hv]
    exact ⟨by decide, by decide, by decide, by decide⟩
  obtain ⟨-, hstep, -⟩ := wellFormed_until_overflow glare crowd [0.01] .indexed isFinite_glare
    hcrowd (by decide)
  obtain ⟨hnext, hiff⟩ := hstep 0 (by decide) crowd rfl hcrowd
  refine ⟨isFinite_glare, hcrowd, _, hnext, fun after hafter => ?_⟩
  obtain ⟨me, hme, rfl⟩ := Array.mem_map.mp hafter
  refine ⟨(hiff me hme).mpr ⟨?_, .inl (by decide)⟩, ?_⟩
  · rw [eq_of_mem_crowd hme]
    exact fun _ => by decide +kernel
  · rw [eq_of_mem_crowd hme, Vector2.isFinite, Bool.and_eq_false_iff]
    have hsteering : (glare.steeringAt (Vehicle.followerAt .zero).position).x.isFinite = false := by
      decide +kernel
    exact .inl (isFinite_add (.inr (isFinite_mul (.inr
      (isFinite_add (.inl (isFinite_add (.inr hsteering))))))))

/-- A light of intensity one at the left end of the number range. -/
def beacon : LightField := .ofList [⟨⟨-1.7e308, 0.0⟩, 1.0⟩]

/-- A follower that stands still at the right end of the number range. -/
def stray : Vehicle := .followerAt ⟨1.7e308, 0.0⟩

/-- The plan of the two. -/
def strayPlan : Plan := { lights := beacon.lights.toList, vehicles := [stray] }

/-- **Finite numbers do not keep a world well formed.** There is a plan of the follower and the
light at the two ends of the number range, and it is made of finite numbers. Yet after a step of a
hundredth of a second, with either search, neither the position nor the speed of the follower is a
number. -/
theorem spoilt_by_distant_light :
    (∀ read, (strayPlan.scenario read).map ofScenario = .ok (ofArray beacon #[stray])) ∧
      stray.IsFinite ∧
      (∀ light ∈ beacon.lights, light.position.isFinite ∧ light.intensity.isFinite) ∧
      ((0.01 : Float).isFinite ∧ 0.0 ≤ (0.01 : Float)) ∧
      (∀ search, ∃ after, generationAfter beacon #[stray] [0.01] search 1 = .ok #[after] ∧
        after.position.x.isNaN ∧ after.speed.isNaN) := by
  have hme : stray.IsFinite :=
    ⟨by decide +kernel, by decide, by decide, by decide⟩
  have hplace : ∀ v ∈ #[stray], v.position.isFinite := by
    intro v hv
    rw [Array.mem_singleton.mp hv]
    exact hme.position
  refine ⟨fun read => rfl, hme, by decide +kernel, by decide, fun search => ?_⟩
  have hsteering : (beacon.steeringAt stray.position).x.isNaN := by decide +kernel
  have hvelocity : (stray.nextVelocity 0.01 beacon (.around stray [stray])).x.isNaN :=
    isNaN_add (.inl (isNaN_add (.inr hsteering)))
  refine ⟨stray.step 0.01 beacon [stray], ?_, isNaN_add (.inr (isNaN_mul (.inr hvelocity))), ?_⟩
  · rw [generationAfter_succ _ _ _ _ (by decide), generationAfter_zero]
    show search.successors beacon #[stray] 0.01 = _
    rw [PeerSearch.successors_of_isFinite hplace, List.map_toArray]
    rfl
  · show (stray.nextVelocity 0.01 beacon (.around stray [stray])).length.isNaN
    rw [Vector2.isNaN_length, Vector2.isDefined, hvelocity]
    rfl

end Flock

end Phototaxis
