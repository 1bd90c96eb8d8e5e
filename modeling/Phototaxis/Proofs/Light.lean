import Mathlib
import Phototaxis.Light
import Phototaxis.Proofs.Geometry.Bounded

/-!
# What lights add up to

A steering vector is a sum over the lights, of a direction scaled by an intensity each.
Near a light the intensity is the raw one, and farther off it is divided by more than one,
so it is finite if the light is (`Light.isFinite_intensityAt`). A direction is bounded by
one, provided that the offset does not overflow. If it does, there is no direction.

So a light adds a finite vector or none at all (`Light.isFinite_steeringAt`,
`Light.isDefined_steeringAt`), and the sum may overflow, but it is a vector exactly if no
light is so far off that the offset overflows (`LightField.isDefined_steeringAt_iff`).
-/

namespace Phototaxis

open Number

variable {light : Light} {point : Vector2} {field : LightField}

namespace Light

/-- Whether all numbers of a light are finite. -/
structure IsFinite (light : Light) : Prop where
  position : light.position.isFinite
  intensity : light.intensity.isFinite

/-- **An intensity is never more than the raw one**: the distance that it is divided by is at least
one. -/
theorem isFinite_intensityAt (hlight : light.IsFinite)
    (hoffset : (point - light.position).isDefined) : (light.intensityAt point).isFinite := by
  unfold intensityAt
  dsimp only
  split
  · exact hlight.intensity
  · rename_i hfar
    have hone : nearFieldSquared ≤ (point - light.position).lengthSquared :=
      le_of_not_lt (Vector2.isNaN_lengthSquared hoffset) (by decide) hfar
    exact ((within_greatest hlight.intensity).div (by decide +kernel) (by decide) hone
      (by decide +kernel) (by decide)).isFinite

/-- A light at a finite offset adds a finite vector. -/
theorem isFinite_steeringAt (hlight : light.IsFinite)
    (hoffset : (point - light.position).isFinite) : (light.steeringAt point).isFinite := by
  have hintensity := isFinite_intensityAt hlight (Vector2.isDefined_of_isFinite hoffset)
  exact ((Vector2.within_direction hoffset).mul (within_greatest hintensity)
    (by decide +kernel)).isFinite

/-- A light at an offset that overflows adds none. -/
theorem isDefined_steeringAt (hoffset : (point - light.position).isFinite = false) :
    (light.steeringAt point).isDefined = false := by
  have hdirection := Vector2.isDefined_direction hoffset
  rw [← Bool.not_eq_true] at hdirection ⊢
  exact fun h => hdirection (Vector2.isDefined_of_mul h)

end Light

namespace LightField

/-- One more light leaves a sum defined exactly if its offset is finite. -/
theorem isDefined_add_iff {sum : Vector2} (hlight : light.IsFinite) :
    (sum + light.steeringAt point).isDefined ↔
      sum.isDefined ∧ (point - light.position).isFinite := by
  cases hoffset : (point - light.position).isFinite with
  | true =>
    obtain ⟨hx, hy⟩ := Vector2.isFinite_iff.mp (Light.isFinite_steeringAt hlight hoffset)
    rw [and_iff_left rfl, Vector2.isDefined_iff, Vector2.isDefined_iff]
    refine and_congr (Eq.congr_left ?_) (Eq.congr_left ?_)
    · exact isNaN_add_of_isFinite hx
    · exact isNaN_add_of_isFinite hy
  | false =>
    refine iff_of_false (fun h => ?_) (fun h => Bool.false_ne_true h.2)
    have hlight := (Vector2.isDefined_of_add h).2
    rw [Light.isDefined_steeringAt hoffset] at hlight
    cases hlight

theorem isDefined_foldl_iff {lights : List Light} {sum : Vector2}
    (hlights : ∀ light ∈ lights, light.IsFinite) :
    (lights.foldl (fun sum light => sum + light.steeringAt point) sum).isDefined ↔
      sum.isDefined ∧ ∀ light ∈ lights, (point - light.position).isFinite := by
  induction lights generalizing sum with
  | nil => exact (and_iff_left (fun _ h => absurd h List.not_mem_nil)).symm
  | cons light lights ih =>
    obtain ⟨hlight, hrest⟩ := List.forall_mem_cons.mp hlights
    rw [List.foldl_cons, ih hrest, isDefined_add_iff hlight, List.forall_mem_cons, and_assoc]

/-- **The steering vector is one exactly if no light is too far off** for the offset to be finite.
No intensity, and no number of lights, is too large. -/
theorem isDefined_steeringAt_iff (hfield : ∀ light ∈ field.lights, light.IsFinite) :
    (field.steeringAt point).isDefined ↔
      ∀ light ∈ field.lights, (point - light.position).isFinite := by
  unfold steeringAt
  rw [← Array.foldl_toList,
    isDefined_foldl_iff (fun light h => hfield light (Array.mem_toList_iff.mp h)),
    and_iff_right (by decide)]
  exact forall_congr' (fun light => imp_congr_left Array.mem_toList_iff)

end LightField

end Phototaxis
