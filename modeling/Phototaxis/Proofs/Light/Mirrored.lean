import Mathlib
import Phototaxis.Light
import Phototaxis.Proofs.Geometry.Bounded
import Phototaxis.Proofs.Geometry.Opposite

/-!
# Lights that cancel

Two lights of equal intensity on opposite sides of a point are at one distance from it, in all bits.
So each of them is as bright there as the other, near or far, and what they add to the steering
vector is opposite: the same quotients and products of opposite offsets
(`Light.Mirrors.opposite_steeringAt`).

A field whose lights come in such pairs, one light of a pair right behind the other, steers nowhere
(`LightField.Mirrored.cancels`). The sum over the lights is back at the origin after each pair,
whatever the magnitudes: nothing has been added up yet that a pair could be rounded into. The order
matters for that, since between the lights of other pairs the first light of a pair may be lost.

Intensities are equal if they are numbers of one value. The zeros are two floats of one value, and
lights of these intensities are as dark as each other, but with either sign.
-/

namespace Phototaxis

open Number

variable {f g : Light} {point : Vector2} {field : LightField}

namespace Light

/-- Whether two lights are on opposite sides of a point, as far as it can tell from its offsets to
them, and equally intense. -/
structure Mirrors (f g : Light) (point : Vector2) : Prop where
  opposite : point - f.position == -(point - g.position)
  equal : f.intensity == g.intensity

namespace Mirrors

theorem lengthSquared_eq (h : f.Mirrors g point) :
    (point - f.position).lengthSquared = (point - g.position).lengthSquared :=
  Vector2.lengthSquared_of_opposite h.opposite

/-- The lights are equally bright at the point. -/
theorem beq_intensityAt (h : f.Mirrors g point) (hfinite : (f.intensityAt point).isFinite) :
    f.intensityAt point == g.intensityAt point := by
  unfold intensityAt at hfinite ⊢
  dsimp only at hfinite ⊢
  rw [← h.lengthSquared_eq]
  split
  · exact h.equal
  · rename_i hfar
    rw [if_neg hfar] at hfinite
    have hnumber := Vector2.isNaN_lengthSquared (Vector2.isDefined_of_opposite h.opposite)
    have hone : nearFieldSquared ≤ (point - f.position).lengthSquared :=
      le_of_not_lt hnumber (by decide) hfar
    exact beq_div h.equal (lt_of_lt_of_le (by decide) hone) hfinite

/-- They are so in all bits if their intensities are. -/
theorem intensityAt_eq (h : f.Mirrors g point) (heq : f.intensity = g.intensity) :
    f.intensityAt point = g.intensityAt point := by
  unfold intensityAt
  rw [h.lengthSquared_eq, heq]

/-- **Lights on opposite sides steer in opposite directions**, equally hard. -/
theorem opposite_steeringAt (h : f.Mirrors g point) (hfinite : (f.steeringAt point).isFinite) :
    f.steeringAt point == -g.steeringAt point := by
  have hlength := Vector2.lengthAtLeast_of_opposite h.opposite minDistance
  have hpositive : 0.0 < (point - f.position).lengthAtLeast minDistance :=
    lt_of_lt_of_le (by decide) (Vector2.floor_le_lengthAtLeast (by decide))
  obtain ⟨hdirection, hintensity⟩ := Vector2.isFinite_of_mul hfinite
  have hturned : (point - f.position) / (point - f.position).lengthAtLeast minDistance
      == -((point - g.position) / (point - g.position).lengthAtLeast minDistance) := by
    rw [← hlength]
    exact Vector2.opposite_div h.opposite hpositive hdirection
  exact Vector2.opposite_mul hturned (h.beq_intensityAt hintensity) hfinite

end Mirrors

end Light

namespace LightField

/-- Whether the lights come in pairs that mirror each other, in slots `0` and `1`, `2` and `3`, and
so on. -/
structure Mirrored (field : LightField) (point : Vector2) : Prop where
  even : field.size % 2 = 0
  pair : ∀ (k : ℕ) (f g : Light), field.lights[2 * k]? = some f →
    field.lights[2 * k + 1]? = some g → f.Mirrors g point

theorem mirrored_nil : (ofList []).Mirrored point := ⟨rfl, fun _ _ _ h => by cases h⟩

/-- A field is mirrored pair by pair. -/
theorem mirrored_cons_iff {rest : List Light} : (ofList (f :: g :: rest)).Mirrored point ↔
    f.Mirrors g point ∧ (ofList rest).Mirrored point := by
  have hslot : ∀ k, (ofList (f :: g :: rest)).lights[k + 2]? = (ofList rest).lights[k]? :=
    fun k => by rw [ofList, ofList, List.getElem?_toArray, List.getElem?_toArray]; rfl
  have hsize : (ofList (f :: g :: rest)).size % 2 = (ofList rest).size % 2 :=
    Nat.add_mod_right rest.length 2
  constructor
  · intro h
    refine ⟨h.pair 0 f g rfl rfl, hsize ▸ h.even, fun k f' g' hf hg => ?_⟩
    exact h.pair (k + 1) f' g' ((hslot (2 * k)).trans hf) ((hslot (2 * k + 1)).trans hg)
  · rintro ⟨hpair, h⟩
    refine ⟨hsize.trans h.even, fun k f' g' hf hg => ?_⟩
    cases k with
    | zero =>
      cases hf
      cases hg
      exact hpair
    | succ k =>
      exact h.pair k f' g' ((hslot (2 * k)).symm.trans hf) ((hslot (2 * k + 1)).symm.trans hg)

/-- **A sum that starts at the origin is back there after each pair.** -/
theorem foldl_of_mirrored : ∀ {lights : List Light}, (ofList lights).Mirrored point →
    (∀ light ∈ lights, (light.steeringAt point).isFinite) →
    lights.foldl (fun sum light => sum + light.steeringAt point) .zero = .zero
  | [], _, _ => rfl
  | [_], h, _ => by cases h.even
  | f :: g :: rest, h, hfinite => by
    obtain ⟨hpair, hrest⟩ := mirrored_cons_iff.mp h
    obtain ⟨hf, htail⟩ := List.forall_mem_cons.mp hfinite
    rw [List.foldl_cons, List.foldl_cons,
      Vector2.zero_add_add_of_opposite (hpair.opposite_steeringAt hf) hf]
    exact foldl_of_mirrored hrest (List.forall_mem_cons.mp htail).2

/-- **Mirrored lights cancel.** Where the lights come in pairs that mirror each other, and each adds
a finite vector, the steering vector is the origin in all bits. Both lights of a pair are equally
bright, in all bits if they are equally intense in all bits. -/
theorem Mirrored.cancels (h : field.Mirrored point)
    (hfinite : ∀ light ∈ field.lights, (light.steeringAt point).isFinite) :
    field.steeringAt point = .zero ∧
      ∀ (k : ℕ) (f g : Light), field.lights[2 * k]? = some f → field.lights[2 * k + 1]? = some g →
        f.intensityAt point == g.intensityAt point ∧
        (f.intensity = g.intensity → f.intensityAt point = g.intensityAt point) := by
  constructor
  · unfold steeringAt
    rw [← Array.foldl_toList]
    exact foldl_of_mirrored h
      (fun light hlight => hfinite light (Array.mem_toList_iff.mp hlight))
  · intro k f g hf hg
    have hmirrors := h.pair k f g hf hg
    have hsteering := hfinite f (Array.mem_of_getElem? hf)
    exact ⟨hmirrors.beq_intensityAt (Vector2.isFinite_of_mul hsteering).2,
      hmirrors.intensityAt_eq⟩

/-- A pair so near that it is as bright as can be, and a dark one so far off that the point is lost
in the offsets and the distance overflows. -/
theorem Mirrored.cancels_near_and_far :
    (ofList [⟨⟨0.53125, 0.25⟩, 2.5⟩, ⟨⟨0.46875, 0.25⟩, 2.5⟩,
      ⟨⟨1e200, 0.25⟩, -1e300⟩, ⟨⟨-1e200, 0.25⟩, -1e300⟩]).steeringAt ⟨0.5, 0.25⟩ = .zero := by
  have hnear : Light.Mirrors ⟨⟨0.53125, 0.25⟩, 2.5⟩ ⟨⟨0.46875, 0.25⟩, 2.5⟩ ⟨0.5, 0.25⟩ :=
    ⟨by decide, by decide⟩
  have hfar : Light.Mirrors ⟨⟨1e200, 0.25⟩, -1e300⟩ ⟨⟨-1e200, 0.25⟩, -1e300⟩ ⟨0.5, 0.25⟩ :=
    ⟨by decide +kernel, by decide +kernel⟩
  have hpairs := mirrored_cons_iff.mpr ⟨hnear, mirrored_cons_iff.mpr ⟨hfar, mirrored_nil⟩⟩
  refine (hpairs.cancels fun light hlight => ?_).1
  have hmem := List.mem_toArray.mp hlight
  simp only [List.mem_cons, List.not_mem_nil, or_false] at hmem
  rcases hmem with rfl | rfl | rfl | rfl <;> decide +kernel

end LightField

end Phototaxis
