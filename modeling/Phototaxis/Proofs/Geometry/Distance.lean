import Phototaxis.Flock.PlaceIndex
import Phototaxis.Proofs.Number.SquareRoot
import Phototaxis.Vehicle.Surroundings

/-!
# Distances that are numbers

The length of a vector is a number exactly if both coordinates are, however large they
are: squares and their sums may overflow to infinity, but have no sign to cancel
(`Vector2.isNaN_length`). So a distance between two places is a number if the one is
finite and the other defined, and the distance of a place from itself is a number only
if the place is finite.

What the index searches is the widened radius, squared. A place that is not within it
is out of sight by the length as well, since rounding the root keeps the order
(`PlaceIndex.sight_lt_length`). This is where the radius has to be wider than the
sight: the root of the squared sight is not above the sight.
-/

namespace Phototaxis

open Number

namespace Vector2

variable {v w : Vector2}

theorem isDefined_iff : v.isDefined ↔ v.x.isNaN = false ∧ v.y.isNaN = false := by
  simp [isDefined]

theorem isFinite_iff : v.isFinite ↔ v.x.isFinite ∧ v.y.isFinite := by
  simp [isFinite]

theorem isDefined_of_isFinite (h : v.isFinite) : v.isDefined := by
  obtain ⟨hx, hy⟩ := isFinite_iff.mp h
  exact isDefined_iff.mpr ⟨isNaN_of_isFinite hx, isNaN_of_isFinite hy⟩

theorem isNaN_lengthSquared_of_undefined (h : v.x.isNaN ∨ v.y.isNaN) : v.lengthSquared.isNaN :=
  isNaN_add (h.imp (fun hx => isNaN_mul (.inl hx)) (fun hy => isNaN_mul (.inl hy)))

/-- The squared length of a vector of numbers is a positive number. -/
theorem signed_lengthSquared (h : v.isDefined) : Signed .positive (unpacked v.lengthSquared) := by
  obtain ⟨hx, hy⟩ := isDefined_iff.mp h
  unfold lengthSquared
  rw [unpacked_add, unpacked_mul, unpacked_mul]
  exact ((signed_mul_self (ne_notANumber_iff.mpr hx)).repacked.add
    (signed_mul_self (ne_notANumber_iff.mpr hy)).repacked).repacked

theorem isNaN_lengthSquared (h : v.isDefined) : v.lengthSquared.isNaN = false :=
  ne_notANumber_iff.mp (signed_lengthSquared h).ne_notANumber

theorem isDefined_of_lengthSquared (h : v.lengthSquared.isNaN = false) : v.isDefined := by
  rw [← Bool.not_eq_false]
  intro hv
  rw [isNaN_lengthSquared_of_undefined] at h
  · cases h
  · simpa [isDefined, Classical.or_iff_not_imp_left] using hv

/-- A squared length that does not overflow is one of a finite vector. -/
theorem isFinite_of_lengthSquared (h : v.lengthSquared.isFinite) : v.isFinite := by
  obtain ⟨hx, hy⟩ := isFinite_of_imp isFinite_add h
  exact isFinite_iff.mpr
    ⟨(isFinite_of_imp isFinite_mul hx).1, (isFinite_of_imp isFinite_mul hy).1⟩

/-- **A length is a number if both coordinates are, and only then.** -/
theorem isNaN_length : v.length.isNaN = !v.isDefined := by
  cases hv : v.isDefined with
  | true =>
    refine ne_notANumber_iff.mp ?_
    unfold length
    rw [unpacked_sqrt]
    exact (signed_lengthSquared hv).sqrt.repacked.ne_notANumber
  | false =>
    refine isNaN_sqrt (isNaN_lengthSquared_of_undefined ?_)
    simpa [isDefined, Classical.or_iff_not_imp_left] using hv

theorem isNaN_length_of_isDefined (h : v.isDefined) : v.length.isNaN = false := by
  rw [isNaN_length, h]
  rfl

/-! ## Offsets -/

/-- An offset that is defined is one between defined places. -/
theorem isDefined_of_sub (h : (v - w).isDefined) : v.isDefined ∧ w.isDefined := by
  obtain ⟨hx, hy⟩ := isDefined_iff.mp h
  obtain ⟨hvx, hwx⟩ := isNaN_eq_false_of_imp isNaN_sub hx
  obtain ⟨hvy, hwy⟩ := isNaN_eq_false_of_imp isNaN_sub hy
  exact ⟨isDefined_iff.mpr ⟨hvx, hvy⟩, isDefined_iff.mpr ⟨hwx, hwy⟩⟩

/-- A finite offset is one between finite places. -/
theorem isFinite_of_sub (h : (v - w).isFinite) : v.isFinite ∧ w.isFinite := by
  obtain ⟨hx, hy⟩ := isFinite_iff.mp h
  obtain ⟨hvx, hwx⟩ := isFinite_of_imp isFinite_sub hx
  obtain ⟨hvy, hwy⟩ := isFinite_of_imp isFinite_sub hy
  exact ⟨isFinite_iff.mpr ⟨hvx, hvy⟩, isFinite_iff.mpr ⟨hwx, hwy⟩⟩

/-- **Only a finite place has a distance to itself.** -/
theorem isFinite_of_sub_self (h : (v - v).isDefined) : v.isFinite := by
  obtain ⟨hx, hy⟩ := isDefined_iff.mp h
  rw [Bool.eq_false_iff] at hx hy
  refine isFinite_iff.mpr ⟨?_, ?_⟩ <;> rw [← Bool.not_eq_false]
  · exact fun hv => hx (isNaN_sub_self hv)
  · exact fun hv => hy (isNaN_sub_self hv)

/-- A defined place has an offset from every finite one. -/
theorem isDefined_sub (hv : v.isDefined) (hw : w.isFinite) : (v - w).isDefined := by
  obtain ⟨hx, hy⟩ := isDefined_iff.mp hv
  obtain ⟨hx', hy'⟩ := isFinite_iff.mp hw
  exact isDefined_iff.mpr ⟨not_isNaN_sub hx hx', not_isNaN_sub hy hy'⟩

/-! ## Sums and multiples -/

theorem isDefined_of_add (h : (v + w).isDefined) : v.isDefined ∧ w.isDefined := by
  obtain ⟨hx, hy⟩ := isDefined_iff.mp h
  obtain ⟨hvx, hwx⟩ := isNaN_eq_false_of_imp isNaN_add hx
  obtain ⟨hvy, hwy⟩ := isNaN_eq_false_of_imp isNaN_add hy
  exact ⟨isDefined_iff.mpr ⟨hvx, hvy⟩, isDefined_iff.mpr ⟨hwx, hwy⟩⟩

theorem isDefined_of_mul {s : Float} (h : (v * s).isDefined) : v.isDefined := by
  obtain ⟨hx, hy⟩ := isDefined_iff.mp h
  exact isDefined_iff.mpr ⟨(isNaN_eq_false_of_imp isNaN_mul hx).1,
    (isNaN_eq_false_of_imp isNaN_mul hy).1⟩

theorem isDefined_of_scaled {s : Float} (h : (s * v).isDefined) : v.isDefined := by
  obtain ⟨hx, hy⟩ := isDefined_iff.mp h
  exact isDefined_iff.mpr ⟨(isNaN_eq_false_of_imp isNaN_mul hx).2,
    (isNaN_eq_false_of_imp isNaN_mul hy).2⟩

theorem isDefined_of_div {s : Float} (h : (v / s).isDefined) : v.isDefined := by
  obtain ⟨hx, hy⟩ := isDefined_iff.mp h
  exact isDefined_iff.mpr ⟨(isNaN_eq_false_of_imp isNaN_div hx).1,
    (isNaN_eq_false_of_imp isNaN_div hy).1⟩

end Vector2

namespace PlaceIndex

open Surroundings (sight)

/-- The widened sight, squared, has a root above the sight. -/
theorem sight_lt_sqrt : sight < (widened sight * widened sight).sqrt := by
  decide +kernel

theorem nonneg_widened : 0.0 ≤ widened sight * widened sight := by
  decide

/-- **What the index leaves out is out of sight.** -/
theorem sight_lt_length {center place : Vector2}
    (h : within center (widened sight) place = false)
    (hn : (place - center).length.isNaN = false) : sight < (place - center).length := by
  have hsquare : (place - center).lengthSquared.isNaN = false := by
    rw [Bool.eq_false_iff] at hn ⊢
    exact fun hs => hn (isNaN_sqrt hs)
  have hle : ¬ (place - center).lengthSquared ≤ widened sight * widened sight :=
    of_decide_eq_false h
  -- the square is beyond the widened one, though the length is rounded once more
  have hlt := lt_of_not_le hsquare (by decide) hle
  exact lt_of_lt_of_le sight_lt_sqrt (sqrt_le_sqrt nonneg_widened (le_of_lt hlt))

end PlaceIndex

end Phototaxis
