import Phototaxis.Proofs.Fault
import Phototaxis.Proofs.Number.Order
import Phototaxis.Scenario.Record

/-!
# What records are made of

A record gives a vehicle through the constructor, which has a rule of its own for speeds:
zero has to be at most the speed. The record has looked at the speed before, and has asked
something else: whether it is finite, and not below zero. Of a float that is no number the
constructor says no and the second question says no as well; but such a float is not
finite.

So a speed that was read is one for the constructor (`Record.isFinite_speed`), which
therefore never refuses a vehicle of a record (`Vehicle.ofFields_eq`).
-/

namespace Phototaxis

open Number

namespace Record

variable {record name field : String} {value : Float}

theorem isFinite_number (h : number record name field = .ok value) : value.isFinite := by
  unfold number at h
  cases htext : ofText? field with
  | none =>
    rw [htext] at h
    cases h
  | some read =>
    rw [htext] at h
    dsimp only at h
    split at h
    · cases h
      assumption
    · cases h

/-- **A speed is finite and not below zero.** -/
theorem isFinite_speed (h : speed record field = .ok value) : value.isFinite ∧ 0.0 ≤ value := by
  obtain ⟨read, hread, h⟩ := bind_eq_ok_iff.mp h
  have hfinite := isFinite_number hread
  split at h
  · cases h
  · rename_i hbelow
    cases h
    exact ⟨hfinite, le_of_not_lt (isNaN_of_isFinite hfinite) rfl hbelow⟩

end Record

namespace Vehicle

variable {position : Vector2} {heading speed : Float} {behavior : Behavior}

theorem create_of_nonneg (h : 0.0 ≤ speed) :
    create position heading speed behavior = .ok ⟨position, heading, speed, behavior⟩ := if_pos h

/-- **A follower that stands still is one that the constructor makes.** -/
theorem create_followerAt (position : Vector2) :
    create position 0.0 0.0 .follower = .ok (followerAt position) :=
  create_of_nonneg (by decide)

/-- **The constructor accepts every vehicle of five fields.** -/
theorem ofFields_eq (record x y heading speed behavior : String) :
    ofFields record x y heading speed behavior = (do
      let x ← Record.number record "x" x
      let y ← Record.number record "y" y
      let heading ← Record.number record "heading" heading
      let speed ← Record.speed record speed
      let behavior ← Record.behavior behavior
      return ⟨⟨x, y⟩, heading, speed, behavior⟩) := by
  unfold ofFields
  cases hspeed : Record.speed record speed with
  | error e => rfl
  | ok speed =>
    have hnonneg := (Record.isFinite_speed hspeed).2
    refine bind_congr fun x => bind_congr fun y => bind_congr fun heading => ?_
    show (Record.behavior behavior >>= _) = (Record.behavior behavior >>= _)
    refine bind_congr fun behavior => ?_
    rw [create_of_nonneg hnonneg]
    rfl

end Vehicle

end Phototaxis
