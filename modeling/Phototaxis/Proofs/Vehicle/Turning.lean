import Mathlib.Tactic.Common
import Phototaxis.Proofs.Flock.Leaders
import Phototaxis.Proofs.Geometry.Bounded

/-!
# The turn of a counter-clockwise leader

A counter-clockwise leader turns its velocity in every tick, but what it keeps of a velocity
is a speed and a heading, and the heading follows only above a least speed. Below it the
turned velocity moves the leader and is then forgotten: the next tick turns the old heading
again, by as little as before.

So the heading of such a leader, at any time, is that of the last of its turned velocities that
was fast enough (`Vehicle.heading_after`), and one tick turns it exactly if the turned velocity
of this tick is (`Vehicle.turns_above_lock`). A slow leader that faces beyond half a turn shows
that the least speed is needed (`Vehicle.slow_turner_holds_heading`).
-/

namespace Phototaxis

open Number

/-! ## How long a turned vector can be -/

namespace Vector2

variable {r v w : Vector2} {a b : Float}

theorem Within.turn (hr : r.Within a) (hw : w.Within b) (h : (a * b + a * b).isFinite) :
    (r.turn w).Within (a * b + a * b) := by
  have hab := (isFinite_of_imp isFinite_add h).1
  exact ⟨(hr.x.mul hw.x hab).sub (hr.y.mul hw.y hab) h,
    (hr.y.mul hw.x hab).add (hr.x.mul hw.y hab) h⟩

theorem Within.length_le (hv : v.Within b) (h : (b * b + b * b).isFinite) :
    v.length ≤ (b * b + b * b).sqrt := by
  have hbb := (isFinite_of_imp isFinite_add h).1
  have hsquare : Number.Within (b * b + b * b) v.lengthSquared :=
    (hv.x.mul hv.x hbb).add (hv.y.mul hv.y hbb) h
  have hpositive := nonneg_of_signed (signed_lengthSquared (isDefined_of_isFinite hv.isFinite))
  refine sqrt_le_sqrt hpositive ?_
  rw [le_iff_value (isNaN_of_isFinite hsquare.isFinite) (isNaN_of_isFinite h)]
  exact (le_abs_self _).trans hsquare.abs_le

end Vector2

namespace Vehicle

variable {me : Vehicle} {dt : Float} {velocity : Vector2}

/-! ## What a move keeps of the velocity -/

theorem heading_move_of_fast (h : Motion.headingSpeed < velocity.length) :
    (me.move dt velocity).heading = velocity.angle :=
  if_pos h

theorem heading_move_of_slow (h : ¬ Motion.headingSpeed < velocity.length) :
    (me.move dt velocity).heading = me.heading :=
  if_neg h

/-- The heading that a move leaves is finite, even if the velocity is not: a velocity that is no
number has no length above the least speed. -/
theorem isFinite_heading_move (h : me.heading.isFinite) :
    (me.move dt velocity).heading.isFinite := by
  by_cases hfast : Motion.headingSpeed < velocity.length
  · have hlength := (isNaN_eq_false_of_lt hfast).2
    rw [Vector2.isNaN_length, Bool.not_eq_false'] at hlength
    rw [heading_move_of_fast hfast]
    exact Vector2.isFinite_angle hlength
  · rw [heading_move_of_slow hfast]
    exact h

/-! ## Turning -/

/-- The velocity, turned as far as a counter-clockwise leader turns it. -/
def turned (v : Vehicle) (dt : Float) : Vector2 :=
  (Vector2.ofAngle (Motion.turnRate * dt)).turn v.velocity

/-- What a vehicle meets with in one step. -/
structure Encounter where
  dt : Float
  lights : LightField
  peers : List Vehicle

/-- The vehicle after a step. -/
def meet (v : Vehicle) (e : Encounter) : Vehicle := v.step e.dt e.lights e.peers

/-- The vehicle after some steps. -/
def after (v : Vehicle) (encounters : List Encounter) : Vehicle := encounters.foldl meet v

/-- The velocities that some steps turn to, in their order. -/
def turns (v : Vehicle) : List Encounter → List Vector2
  | [] => []
  | e :: encounters => v.turned e.dt :: (v.meet e).turns encounters

variable {encounters : List Encounter}

theorem after_concat (me : Vehicle) (encounters : List Encounter) (e : Encounter) :
    me.after (encounters ++ [e]) = (me.after encounters).meet e :=
  List.foldl_concat ..

theorem turns_concat (me : Vehicle) (encounters : List Encounter) (e : Encounter) :
    me.turns (encounters ++ [e]) = me.turns encounters ++ [(me.after encounters).turned e.dt] := by
  induction encounters generalizing me with
  | nil => rfl
  | cons e' encounters ih => exact congrArg (_ :: ·) (ih (me.meet e'))

/-- **A step of a counter-clockwise leader is a move with its turned velocity.** -/
theorem meet_of_turns (hturns : me.behavior = .leaderCounterClockwise) (e : Encounter) :
    me.meet e = me.move e.dt (me.turned e.dt) := by
  unfold meet step nextVelocity
  rw [hturns]
  rfl

/-- A vehicle keeps its behavior. -/
theorem behavior_after (me : Vehicle) (encounters : List Encounter) :
    (me.after encounters).behavior = me.behavior := by
  induction encounters using List.reverseRecOn with
  | nil => rfl
  | append_singleton encounters e ih =>
    rw [after_concat]
    exact ih

theorem isFinite_heading_after (encounters : List Encounter) (h : me.heading.isFinite) :
    (me.after encounters).heading.isFinite := by
  induction encounters using List.reverseRecOn with
  | nil => exact h
  | append_singleton encounters e ih =>
    rw [after_concat]
    exact isFinite_heading_move ih

/-- The last of some velocities that is fast enough for the heading to follow. -/
def lastFast (velocities : List Vector2) : Option Vector2 :=
  (velocities.filter (Motion.headingSpeed < ·.length)).getLast?

theorem lastFast_concat_of_fast {velocities : List Vector2}
    (h : Motion.headingSpeed < velocity.length) :
    lastFast (velocities ++ [velocity]) = some velocity := by
  unfold lastFast
  rw [List.filter_append, List.filter_cons_of_pos (by simpa using h), List.filter_nil,
    List.getLast?_concat]

theorem lastFast_concat_of_slow {velocities : List Vector2}
    (h : ¬ Motion.headingSpeed < velocity.length) :
    lastFast (velocities ++ [velocity]) = lastFast velocities := by
  unfold lastFast
  rw [List.filter_append, List.filter_cons_of_neg (by simpa using h), List.filter_nil,
    List.append_nil]

/-- **The heading is that of the last fast turn**, and the first heading as long as there is
none. -/
theorem heading_after (hturns : me.behavior = .leaderCounterClockwise)
    (encounters : List Encounter) : (me.after encounters).heading =
      ((lastFast (me.turns encounters)).map Vector2.angle).getD me.heading := by
  induction encounters using List.reverseRecOn with
  | nil => rfl
  | append_singleton encounters e ih =>
    have hstill := (behavior_after me encounters).trans hturns
    rw [after_concat, turns_concat, meet_of_turns hstill]
    by_cases hfast : Motion.headingSpeed < ((me.after encounters).turned e.dt).length
    · rw [heading_move_of_fast hfast, lastFast_concat_of_fast hfast]
      rfl
    · rw [heading_move_of_slow hfast, lastFast_concat_of_slow hfast]
      exact ih

/-- **A counter-clockwise leader turns above the least speed.** However long it has been on its way,
and whatever it meets with, the next step leaves it with the length of the turned velocity
for its speed. If this exceeds the least speed, heading and velocity take the direction of the
turned velocity, so the turn goes on from there; if not, the heading stays. The heading at any
time is thus the angle of the last fast turn, and it stays finite. -/
theorem turns_above_lock (hturns : me.behavior = .leaderCounterClockwise)
    (encounters : List Encounter) (e : Encounter) :
    let before := me.after encounters
    let turned := before.turned e.dt
    let next := me.after (encounters ++ [e])
    next.speed = turned.length ∧
    (Motion.headingSpeed < next.speed → next.heading = turned.angle ∧
      next.velocity = Vector2.ofAngle turned.angle * turned.length) ∧
    (¬ Motion.headingSpeed < next.speed → next.heading = before.heading) ∧
    next.heading = ((lastFast (me.turns encounters ++ [turned])).map Vector2.angle).getD
      me.heading ∧
    (me.heading.isFinite → next.heading.isFinite) ∧ next.behavior = .leaderCounterClockwise := by
  intro before turned next
  have hnext : next = before.move e.dt turned := by
    rw [← meet_of_turns ((behavior_after me encounters).trans hturns) e]
    exact after_concat ..
  have hspeed : next.speed = turned.length := by
    rw [hnext]
    rfl
  refine ⟨hspeed, fun hfast => ?_, fun hslow => ?_, ?_, isFinite_heading_after _,
    (behavior_after me _).trans hturns⟩
  · rw [hspeed] at hfast
    have hheading : next.heading = turned.angle := hnext ▸ heading_move_of_fast hfast
    refine ⟨hheading, ?_⟩
    unfold velocity
    rw [hheading, hspeed]
  · rw [hspeed] at hslow
    exact hnext ▸ heading_move_of_slow hslow
  · rw [← turns_concat]
    exact heading_after hturns _

/-- The turner in the glare and amid the crowd: whatever its next turn, its heading is finite, and
the angle of this turn if it is fast. -/
theorem turns_above_lock_glare :
    let met := [⟨0.5, glare, crowd.toList⟩]
    let turned := (Flock.turner.after met).turned 0.01
    let next := Flock.turner.after (met ++ [⟨0.01, .empty, []⟩])
    next.heading.isFinite ∧ (Motion.headingSpeed < next.speed → next.heading = turned.angle) := by
  intro met turned next
  have hturns : Flock.turner.behavior = .leaderCounterClockwise := rfl
  obtain ⟨-, hfast, -, -, hfinite, -⟩ := turns_above_lock hturns met ⟨0.01, .empty, []⟩
  exact ⟨hfinite (by decide), fun h => (hfast h).1⟩

/-! ## Below the least speed -/

/-- A leader too slow for its heading to follow, which faces beyond half a turn. -/
def slowTurner : Vehicle := ⟨.zero, 4.0, 0.05, .leaderCounterClockwise⟩

/-- **Slow leaders do not turn.** The leader moves on at some speed, but with the old heading, and
this is not the angle of the turned velocity. -/
theorem slow_turner_holds_heading :
    slowTurner.heading.isFinite ∧ slowTurner.speed.isFinite ∧ 0.0 < slowTurner.speed ∧
      (1.0 : Float).isFinite ∧
      (slowTurner.step 1.0 .empty []).heading = slowTurner.heading ∧
      (slowTurner.step 1.0 .empty []).heading ≠ (slowTurner.turned 1.0).angle := by
  have hvelocity : slowTurner.velocity.Within (1.0 * 0.05) :=
    (Vector2.within_ofAngle (by decide)).mul (.self (by decide) (by decide))
      (by decide)
  have hrotation : (Vector2.ofAngle (Motion.turnRate * 1.0)).Within 1.0 :=
    Vector2.within_ofAngle (by decide)
  have hturned := hrotation.turn hvelocity (by decide)
  have hslow : ¬ Motion.headingSpeed < (slowTurner.turned 1.0).length :=
    not_lt_of_le (le_trans (hturned.length_le (by decide)) (by decide +kernel))
  have hheading : (slowTurner.step 1.0 .empty []).heading = 4.0 := heading_move_of_slow hslow
  refine ⟨by decide, by decide, by decide, by decide, hheading, ?_⟩
  intro hangle
  -- an angle is at most half a turn
  have hhalf : Number.Within Angle.half (slowTurner.turned 1.0).angle :=
    Vector2.within_angle (Vector2.isDefined_of_isFinite hturned.isFinite)
  rw [← hangle, hheading] at hhalf
  exact absurd hhalf (by decide +kernel)

end Vehicle

end Phototaxis
