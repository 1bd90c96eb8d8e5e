import Mathlib
import Phototaxis.Proofs.Geometry.Bounded
import Phototaxis.Proofs.Number.Decimal
import Phototaxis.Vehicle.Motion

/-!
# What can overflow in a step

The distances at which quotients are cut off keep a step from dividing by nothing. Whether
that is enough depends on what else can become of the five summands of a follower's
velocity when all numbers it starts from are finite.

Three of the five are finite. The damped velocity is no faster than the vehicle was. Pull
and push come from peers in sight, at offsets bounded by the sight, and however many
peers there are, their sum stays below a fixed ceiling (`Surroundings.moderate_around`).
The other two may overflow: the mean velocity of fast peers, and the steering vector of
strong lights. An overflow alone is an infinity, and an infinity is not spoilt by what is
finite. So the velocity is a number in both coordinates exactly if these two summands
have a sum (`Vehicle.isDefined_nextVelocity_iff`).

Moving then multiplies the velocity by the length of the step, and here an infinity must
not meet a zero (`Vehicle.wellFormed_move_iff`).
-/

namespace Phototaxis

open Number

/-! ## Pull and push -/

namespace Surroundings

variable {me peer : Vehicle} {seen : Surroundings} {peers : List Vehicle} {offset : Vector2}

/-- A bound so large that nothing a single peer adds can exceed it, not even in the last place. -/
def ceiling : Float := 1208925819614629174706176.0

/-- Whether pull and push are within the ceiling. -/
structure Moderate (seen : Surroundings) : Prop where
  cohesion : seen.cohesion.Within ceiling
  repulsion : seen.repulsion.Within ceiling

/-- What a push is divided by is not below the square of the floor. -/
theorem floor_le_divisor (hoffset : offset.isDefined) (hnear : ¬ sight < offset.length) :
    minDistance * minDistance
      ≤ offset.lengthAtLeast minDistance * offset.lengthAtLeast minDistance := by
  have hfloor : minDistance ≤ offset.lengthAtLeast minDistance :=
    Vector2.floor_le_lengthAtLeast (by decide)
  have hroof : offset.lengthAtLeast minDistance ≤ sight := by
    unfold Vector2.lengthAtLeast maxNumber
    split
    · exact le_of_not_lt (by decide) (Vector2.isNaN_length_of_isDefined hoffset) hnear
    · decide
  refine mul_self_mono (by decide) hfloor ?_
  exact isFinite_of_le (le_trans (by decide) hfloor) hroof (by decide)

/-- **A push is bounded**, however close the peer: what it is divided by has a floor. -/
theorem within_push (hoffset : offset.Within 33.0) (hnear : ¬ sight < offset.length) :
    (push offset).Within 3300.0 := by
  have hsquare := floor_le_divisor (Vector2.isDefined_of_isFinite hoffset.isFinite) hnear
  unfold push
  dsimp only
  split
  · exact .zero (by decide) (by decide)
  · refine ((hoffset.div (by decide) (by decide) hsquare (by decide)
      (by decide)).neg (by decide)).mono ?_
    decide

/-- **One more peer does not lift pull and push above the ceiling.** -/
theorem Moderate.see (h : seen.Moderate) (hme : me.position.isFinite)
    (hpeer : peer.position.isFinite) : (see me seen peer).Moderate := by
  have hdefined := Vector2.isDefined_sub (Vector2.isDefined_of_isFinite hpeer) hme
  unfold Surroundings.see
  dsimp only
  split
  · exact h
  · rename_i hseen
    rw [Bool.or_eq_true, decide_eq_true_iff, decide_eq_true_iff, not_or] at hseen
    have hoffset := Vector2.within_of_length hdefined hseen.2
    have hpulled : (seen.cohesion + (peer.position - me.position) / pullDivisor).Within ceiling :=
      (h.cohesion.add (hoffset.div (b := pullDivisor) (by decide) (by decide)
        (by decide) (by decide) (by decide))
        (by decide)).mono (by decide)
    refine ⟨?_, (h.repulsion.add (within_push hoffset hseen.2) ?_).mono ?_⟩
    · unfold addPull
      dsimp only
      split
      · have hleader := hoffset.mul (.self (b := leaderPull) (by decide) (by decide))
          (by decide)
        exact (hpulled.add hleader (by decide)).mono (by decide)
      · exact hpulled
    · decide
    · decide

theorem Moderate.foldl (h : seen.Moderate) (hme : me.position.isFinite)
    (hpeers : ∀ peer ∈ peers, peer.position.isFinite) :
    (peers.foldl (Surroundings.see me) seen).Moderate := by
  induction peers generalizing seen with
  | nil => exact h
  | cons peer peers ih =>
    obtain ⟨hpeer, hrest⟩ := List.forall_mem_cons.mp hpeers
    exact ih (h.see hme hpeer) hrest

theorem Moderate.average (h : seen.Moderate) : seen.average.Moderate := by
  unfold Surroundings.average
  split
  · exact h
  · rename_i hcount
    refine ⟨?_, h.repulsion⟩
    exact (h.cohesion.div (by decide) (by decide)
      (one_le_ofNat (Nat.pos_of_ne_zero hcount)) (by decide) (by decide)).mono
      (by decide)

/-- **A look at any number of finite places is moderate.** -/
theorem moderate_around (hme : me.position.isFinite)
    (hpeers : ∀ peer ∈ peers, peer.position.isFinite) : (around me peers).Moderate := by
  refine (Moderate.foldl ?_ hme hpeers).average
  have hzero : Vector2.zero.Within ceiling := .zero (by decide) (by decide)
  exact ⟨hzero, hzero⟩

end Surroundings

/-! ## The velocity -/

namespace Vehicle

variable {me : Vehicle} {seen : Surroundings} {lights : LightField}
variable {dt : Float} {velocity : Vector2}

/-- Whether all numbers of a vehicle are finite, and its speed is not below zero. -/
structure IsFinite (v : Vehicle) : Prop where
  position : v.position.isFinite
  heading : v.heading.isFinite
  speed : v.speed.isFinite
  nonneg : 0.0 ≤ v.speed

/-- Whether all numbers of a vehicle are numbers, and its speed is not below zero. -/
structure WellFormed (v : Vehicle) : Prop where
  position : v.position.isDefined
  heading : v.heading.isNaN = false
  nonneg : 0.0 ≤ v.speed

theorem within_velocity (h : me.IsFinite) : me.velocity.Within greatest :=
  ((Vector2.within_ofAngle h.heading).mul (within_greatest h.speed) (by decide +kernel)).mono
    (by decide +kernel)

/-- One coordinate of the velocity of a follower: neither the damped velocity and the pull before
them nor the push after them matters to whether the two middle summands have a sum. -/
theorem isNaN_followerSum {v c a s r : Float} (hv : Within greatest v)
    (hc : Within Surroundings.ceiling c) (hr : r.isFinite) :
    (v * Motion.damping + c / Motion.cohesionDivisor + a / Motion.alignmentDivisor + s + r).isNaN
      = (a / Motion.alignmentDivisor + s).isNaN := by
  have hfirst : Within (greatest * Motion.damping + Surroundings.ceiling / Motion.cohesionDivisor)
      (v * Motion.damping + c / Motion.cohesionDivisor) :=
    (hv.mul (.self (b := Motion.damping) (by decide) (by decide))
      (by decide +kernel)).add (hc.div (by decide) (by decide) (by decide)
      (by decide) (by decide)) (by decide +kernel)
  rw [isNaN_add_of_isFinite hr]
  refine isNaN_add_add hfirst.isFinite (fun ha => ?_)
  -- a tenth of a finite velocity leaves room for the rest
  have hfinite : a.isFinite := by
    rw [← Bool.not_eq_false] at ha ⊢
    exact fun hover => ha (isFinite_div hover (by decide))
  have htenth : Within (greatest / Motion.alignmentDivisor) (a / Motion.alignmentDivisor) :=
    (within_greatest hfinite).div (by decide +kernel) (by decide) (by decide)
      (by decide +kernel) (by decide)
  exact (hfirst.add htenth (by decide +kernel)).isFinite

/-- Whether the two summands of a follower's velocity that may overflow have a sum. -/
def Compatible (lights : LightField) (seen : Surroundings) (me : Vehicle) : Prop :=
  me.behavior = .follower →
    (seen.alignment / Motion.alignmentDivisor + lights.steeringAt me.position).isDefined

/-- **When a finite vehicle has a next velocity**: a leader always, a follower exactly if its mean
velocity and its steering vector have a sum. -/
theorem isDefined_nextVelocity_iff (hdt : dt.isFinite) (hme : me.IsFinite)
    (hseen : seen.Moderate) :
    (me.nextVelocity dt lights seen).isDefined ↔ me.Compatible lights seen := by
  have hvelocity := within_velocity hme
  unfold nextVelocity Compatible
  cases me.behavior with
  | follower =>
    refine Iff.trans ?_ (imp_iff_right rfl).symm
    rw [Vector2.isDefined_iff, Vector2.isDefined_iff]
    refine and_congr (Eq.congr_left ?_) (Eq.congr_left ?_)
    · exact isNaN_followerSum hvelocity.x hseen.cohesion.x hseen.repulsion.x.isFinite
    · exact isNaN_followerSum hvelocity.y hseen.cohesion.y hseen.repulsion.y.isFinite
  | leaderClockwise =>
    exact iff_of_true (Vector2.isDefined_of_isFinite hvelocity.isFinite) nofun
  | leaderCounterClockwise =>
    -- both products are at most the speed, and they are finite even if their sum is not
    have hangle : (Motion.turnRate * dt).isFinite :=
      (Within.mul (.self (b := Motion.turnRate) (by decide) (by decide))
        (within_greatest hdt) (by decide +kernel)).isFinite
    have hunit := Vector2.within_ofAngle hangle
    have hproduct : ∀ {r w}, Within 1.0 r → Within greatest w → (r * w).isFinite :=
      fun hr hw => (hr.mul hw (by decide +kernel)).isFinite
    refine iff_of_true (Vector2.isDefined_iff.mpr ⟨?_, ?_⟩) nofun
    · exact not_isNaN_sub (isNaN_of_isFinite (hproduct hunit.x hvelocity.x))
        (hproduct hunit.y hvelocity.y)
    · exact not_isNaN_add (isNaN_of_isFinite (hproduct hunit.y hvelocity.x))
        (hproduct hunit.x hvelocity.y)

/-! ## Moving -/

/-- A step has no length, or a positive one. -/
theorem zero_or_pos_of_nonneg (hdt : dt.isFinite) (h0 : 0.0 ≤ dt) :
    (¬ 0.0 < dt ∧ ∃ s, unpacked dt = .zero s) ∨
      (0.0 < dt ∧ ∃ m e hm, unpacked dt = .finite .positive m e hm) := by
  have hzero : unpacked 0.0 = .zero .positive := rfl
  rcases cases_of_nonneg h0 with ⟨s, hu⟩ | ⟨m, e, hm, hu⟩ | hu
  · refine .inl ⟨?_, s, hu⟩
    rw [lt_iff_compare, hzero, hu]
    exact nofun
  · refine .inr ⟨?_, m, e, hm, hu⟩
    rw [lt_iff_compare, hzero, hu]
    rfl
  · change (unpacked dt).isFinite at hdt
    rw [hu] at hdt
    cases hdt

/-- A coordinate after a move is a number unless the velocity is none, or an infinite velocity meets
a step of no length. -/
theorem isNaN_moved_iff {p w : Float} (hp : p.isFinite) (hdt : dt.isFinite) (h0 : 0.0 ≤ dt) :
    (p + dt * w).isNaN = false ↔ w.isNaN = false ∧ (0.0 < dt ∨ w.isFinite) := by
  rw [add_comm, isNaN_add_of_isFinite hp]
  rcases zero_or_pos_of_nonneg hdt h0 with ⟨hnone, s, hu⟩ | ⟨hpos, m, e, hm, hu⟩
  · rw [or_iff_right hnone]
    constructor
    · intro h
      refine ⟨(isNaN_eq_false_of_imp isNaN_mul h).2, ?_⟩
      rw [← Bool.not_eq_false]
      intro hover
      rw [isNaN_mul_of_zero hu hover] at h
      cases h
    · rintro ⟨-, hw⟩
      exact not_isNaN_mul_of_isFinite hdt hw
  · rw [or_iff_left_of_imp (fun _ => hpos), and_iff_left hpos]
    exact ⟨fun h => (isNaN_eq_false_of_imp isNaN_mul h).2, not_isNaN_mul hu⟩

/-- **A move that leads to some place spoils nothing else**: speed and heading come from the same
velocity. -/
theorem wellFormed_move (hheading : me.heading.isNaN = false)
    (h : (me.move dt velocity).position.isDefined) : (me.move dt velocity).WellFormed := by
  have hvelocity : velocity.isDefined :=
    Vector2.isDefined_of_scaled (Vector2.isDefined_of_add h).2
  refine ⟨h, ?_, Vector2.nonneg_length hvelocity⟩
  show (if velocity.length > Motion.headingSpeed then velocity.angle else me.heading).isNaN = false
  split
  · exact isNaN_of_isFinite (Vector2.isFinite_angle hvelocity)
  · exact hheading

/-- **When a move keeps a finite vehicle well formed**: if the velocity is a number in both
coordinates, and if it is finite or the step has a length. -/
theorem wellFormed_move_iff (hme : me.IsFinite) (hdt : dt.isFinite) (h0 : 0.0 ≤ dt) :
    (me.move dt velocity).WellFormed ↔
      velocity.isDefined ∧ (0.0 < dt ∨ velocity.isFinite) := by
  obtain ⟨hpx, hpy⟩ := Vector2.isFinite_iff.mp hme.position
  have hposition : (me.move dt velocity).position.isDefined ↔
      velocity.isDefined ∧ (0.0 < dt ∨ velocity.isFinite) := by
    rw [Vector2.isDefined_iff, Vector2.isDefined_iff, Vector2.isFinite_iff, or_and_left]
    refine (and_congr (isNaN_moved_iff hpx hdt h0) (isNaN_moved_iff hpy hdt h0)).trans ?_
    exact and_and_and_comm
  rw [← hposition]
  exact ⟨fun h => h.position, wellFormed_move (isNaN_of_isFinite hme.heading)⟩

end Vehicle

end Phototaxis
