import Mathlib
import Phototaxis.Proofs.Geometry.Distance
import Phototaxis.Proofs.Number.Opposite

/-!
# Equal and opposite vectors

Vectors are compared by coordinate, and as floats are: the sign of a zero does not matter. So a
vector is opposite to another, `v == -w`, if their coordinates are, and the laws for opposite floats
hold for vectors coordinate by coordinate. Opposite vectors have the same length in all bits, since
the coordinates have the same squares (`Vector2.length_of_opposite`). Whatever is decided by a
distance is therefore decided alike from both ends.
-/

namespace Phototaxis

open Number

namespace Vector2

variable {v v' w w' : Vector2} {c d : Float}

instance : BEq Vector2 := ⟨fun v w => v.x == w.x && v.y == w.y⟩

theorem beq_iff : v == w ↔ v.x == w.x ∧ v.y == w.y := by
  show (v.x == w.x && v.y == w.y) = true ↔ _
  rw [Bool.and_eq_true]

/-! ## Finite results -/

theorem isFinite_of_add (h : (v + w).isFinite) : v.isFinite ∧ w.isFinite := by
  obtain ⟨hx, hy⟩ := isFinite_iff.mp h
  obtain ⟨hvx, hwx⟩ := isFinite_of_imp isFinite_add hx
  obtain ⟨hvy, hwy⟩ := isFinite_of_imp isFinite_add hy
  exact ⟨isFinite_iff.mpr ⟨hvx, hvy⟩, isFinite_iff.mpr ⟨hwx, hwy⟩⟩

theorem isFinite_of_mul (h : (v * c).isFinite) : v.isFinite ∧ c.isFinite := by
  obtain ⟨hx, hy⟩ := isFinite_iff.mp h
  obtain ⟨hvx, hc⟩ := isFinite_of_imp isFinite_mul hx
  obtain ⟨hvy, -⟩ := isFinite_of_imp isFinite_mul hy
  exact ⟨isFinite_iff.mpr ⟨hvx, hvy⟩, hc⟩

theorem isFinite_of_div (h : (v / d).isFinite) : v.isFinite := by
  obtain ⟨hx, hy⟩ := isFinite_iff.mp h
  exact isFinite_iff.mpr ⟨Number.isFinite_of_div hx, Number.isFinite_of_div hy⟩

theorem isFinite_neg (v : Vector2) : (-v).isFinite = v.isFinite := by
  show ((-v.x).isFinite && (-v.y).isFinite) = (v.x.isFinite && v.y.isFinite)
  rw [Number.isFinite_neg, Number.isFinite_neg]

/-! ## Opposite vectors -/

theorem opposite_self (hv : v.isDefined) : -v == -v := by
  obtain ⟨hx, hy⟩ := isDefined_iff.mp hv
  exact beq_iff.mpr ⟨beq_self ((isNaN_neg v.x).trans hx), beq_self ((isNaN_neg v.y).trans hy)⟩

theorem isDefined_of_opposite (h : v == -w) : v.isDefined := by
  obtain ⟨hx, hy⟩ := beq_iff.mp h
  exact isDefined_iff.mpr ⟨(isNaN_eq_false_of_beq hx).1, (isNaN_eq_false_of_beq hy).1⟩

theorem opposite_neg (h : v == -w) : -v == -(-w) := by
  obtain ⟨hx, hy⟩ := beq_iff.mp h
  exact beq_iff.mpr ⟨Number.opposite_neg hx, Number.opposite_neg hy⟩

/-- **The offset to a place is opposite to the offset from it.** -/
theorem opposite_sub (hv : v.isFinite) (hw : w.isFinite) : v - w == -(w - v) := by
  obtain ⟨hvx, hvy⟩ := isFinite_iff.mp hv
  obtain ⟨hwx, hwy⟩ := isFinite_iff.mp hw
  exact beq_iff.mpr ⟨Number.opposite_sub hvx hwx, Number.opposite_sub hvy hwy⟩

theorem opposite_add (hv : v == -v') (hw : w == -w') (h : (v + w).isFinite) :
    v + w == -(v' + w') := by
  obtain ⟨hvx, hvy⟩ := beq_iff.mp hv
  obtain ⟨hwx, hwy⟩ := beq_iff.mp hw
  obtain ⟨hx, hy⟩ := isFinite_iff.mp h
  exact beq_iff.mpr ⟨Number.opposite_add hvx hwx hx, Number.opposite_add hvy hwy hy⟩

theorem opposite_mul (hv : v == -v') (hc : c == d) (h : (v * c).isFinite) :
    v * c == -(v' * d) := by
  obtain ⟨hvx, hvy⟩ := beq_iff.mp hv
  obtain ⟨hx, hy⟩ := isFinite_iff.mp h
  exact beq_iff.mpr ⟨Number.opposite_mul hvx hc hx, Number.opposite_mul hvy hc hy⟩

theorem opposite_div (hv : v == -v') (hd : 0.0 < d) (h : (v / d).isFinite) :
    v / d == -(v' / d) := by
  obtain ⟨hvx, hvy⟩ := beq_iff.mp hv
  obtain ⟨hx, hy⟩ := isFinite_iff.mp h
  exact beq_iff.mpr ⟨Number.opposite_div hvx hd hx, Number.opposite_div hvy hd hy⟩

/-- Opposite vectors cancel in a sum from the origin, which is left in all bits. -/
theorem zero_add_add_of_opposite (h : v == -w) (hv : v.isFinite) : zero + v + w = zero := by
  obtain ⟨hx, hy⟩ := beq_iff.mp h
  obtain ⟨hvx, hvy⟩ := isFinite_iff.mp hv
  show Vector2.mk _ _ = Vector2.mk _ _
  rw [Vector2.mk.injEq]
  exact ⟨Number.zero_add_add_of_opposite hx hvx, Number.zero_add_add_of_opposite hy hvy⟩

/-! ## Lengths -/

/-- **Opposite vectors are of the same length**, bit for bit. -/
theorem lengthSquared_of_opposite (h : v == -w) : v.lengthSquared = w.lengthSquared := by
  obtain ⟨hx, hy⟩ := beq_iff.mp h
  unfold lengthSquared
  rw [mul_self_of_opposite hx, mul_self_of_opposite hy]

theorem length_of_opposite (h : v == -w) : v.length = w.length :=
  congrArg Float.sqrt (lengthSquared_of_opposite h)

theorem lengthAtLeast_of_opposite (h : v == -w) (floor : Float) :
    v.lengthAtLeast floor = w.lengthAtLeast floor :=
  congrArg (maxNumber · floor) (length_of_opposite h)

end Vector2

end Phototaxis
