import Mathlib
import Phototaxis.Geometry.Bounds
import Phototaxis.Proofs.Geometry.Distance
import Phototaxis.Proofs.Number.Bounds

/-!
# Bounds are not farther than what they are around

Bounds of places of numbers cover each of the places, in whatever order these were taken
in (`Bounds.covers_ofPlaces`). What is left is how far away the bounds are from a point.
The nearest point of them is found by moving the coordinates of the point into the
range, and no coordinate of a covered place is nearer. Rounding the offsets, their squares
and the sum keeps that order, so the distance that is computed is at most the one to the
place (`Bounds.distanceSquared_le`), and this also if either overflows.
-/

namespace Phototaxis

open Number

namespace Number

variable {x y : Float}

theorem abs_value_of_overflow (hx : x.isNaN = false) (h : x.isFinite = false) :
    |value x| = overflow := by
  obtain ⟨s, hu⟩ := (cases_of_overflow h).resolve_left (ne_notANumber_iff.mpr hx)
  rw [value, hu, exact, abs_mul, abs_factor, one_mul, abs_of_pos overflow_pos]

/-- No number is longer than an overflow. -/
theorem abs_value_le_overflow (hx : x.isNaN = false) : |value x| ≤ overflow := by
  cases h : x.isFinite with
  | true => exact (abs_value_lt h).le
  | false => exact (abs_value_of_overflow hx h).le

theorem le_of_overflow (hx : x.isNaN = false) (hy : 0.0 ≤ y) (h : y.isFinite = false) :
    x ≤ y := by
  have hyn := (isNaN_eq_false_of_le hy).2
  rw [le_iff_value hx hyn, ← abs_of_nonneg (value_nonneg hy), abs_value_of_overflow hyn h]
  exact (le_abs_self _).trans (abs_value_le_overflow hx)

end Number

namespace Vector2

variable {v w : Vector2}

theorem nonneg_lengthSquared (h : v.isDefined) : 0.0 ≤ v.lengthSquared :=
  nonneg_of_signed (signed_lengthSquared h)

/-- **A vector that is longer in no coordinate has no greater square**, overflows included. -/
theorem lengthSquared_le (hv : v.isDefined) (hw : w.isDefined)
    (hx : |value v.x| ≤ |value w.x|) (hy : |value v.y| ≤ |value w.y|) :
    v.lengthSquared ≤ w.lengthSquared := by
  cases hfinite : w.lengthSquared.isFinite with
  | false => exact le_of_overflow (isNaN_lengthSquared hv) (nonneg_lengthSquared hw) hfinite
  | true =>
    obtain ⟨hwx, hwy⟩ := isFinite_iff.mp (isFinite_of_lengthSquared hfinite)
    obtain ⟨hvxn, hvyn⟩ := isDefined_iff.mp hv
    have hvx := isFinite_of_abs_value_lt hvxn (hx.trans_lt (abs_value_lt hwx))
    have hvy := isFinite_of_abs_value_lt hvyn (hy.trans_lt (abs_value_lt hwy))
    obtain ⟨hwxx, hwyy⟩ := isFinite_of_imp isFinite_add hfinite
    have hxx : v.x * v.x ≤ w.x * w.x :=
      (isRounded_mul hvx hvx).le (isRounded_mul hwx hwx) (abs_le_iff_mul_self_le.mp hx)
    have hyy : v.y * v.y ≤ w.y * w.y :=
      (isRounded_mul hvy hvy).le (isRounded_mul hwy hwy) (abs_le_iff_mul_self_le.mp hy)
    have hvxx := isFinite_of_le (nonneg_mul_self hvx) hxx hwxx
    have hvyy := isFinite_of_le (nonneg_mul_self hvy) hyy hwyy
    refine (isRounded_add hvxx hvyy).le (isRounded_add hwxx hwyy) (add_le_add ?_ ?_)
    · exact (le_iff_value (isNaN_of_isFinite hvxx) (isNaN_of_isFinite hwxx)).mp hxx
    · exact (le_iff_value (isNaN_of_isFinite hvyy) (isNaN_of_isFinite hwyy)).mp hyy

end Vector2

namespace Bounds

variable {b : Bounds} {place center : Vector2} {places : List Vector2}
variable {low high c p x y : Float}

/-! ## The lesser and the greater coordinate -/

theorem lesser_le (hy : y.isNaN = false) : lesser x y ≤ y := by
  unfold lesser
  split
  · exact le_of_lt ‹_›
  · exact Number.le_refl hy

theorem lesser_le_of_le (h : x ≤ p) (hy : y.isNaN = false) : lesser x y ≤ p := by
  unfold lesser
  split
  · exact h
  · rename_i hnot
    exact le_trans (le_of_not_lt (isNaN_eq_false_of_le h).1 hy hnot) h

theorem le_greater (hy : y.isNaN = false) : y ≤ greater x y := by
  unfold greater
  split
  · exact le_of_lt ‹_›
  · exact Number.le_refl hy

theorem le_greater_of_le (h : p ≤ x) (hy : y.isNaN = false) : p ≤ greater x y := by
  unfold greater
  split
  · exact h
  · rename_i hnot
    exact le_trans h (le_of_not_lt hy (isNaN_eq_false_of_le h).2 hnot)

theorem isNaN_lesser (hx : x.isNaN = false) (hy : y.isNaN = false) :
    (lesser x y).isNaN = false := by
  unfold lesser
  split <;> assumption

theorem isNaN_greater (hx : x.isNaN = false) (hy : y.isNaN = false) :
    (greater x y).isNaN = false := by
  unfold greater
  split <;> assumption

/-- **A coordinate is moved into a range by no more than to any number there.** -/
theorem abs_moved_le (hp : Between low high p) (hpf : p.isFinite) (hc : c.isFinite) :
    (lesser high (greater low c)).isFinite ∧
      |value (lesser high (greater low c)) - value c| ≤ |value p - value c| := by
  obtain ⟨hlow, hhigh⟩ := hp
  obtain ⟨hlown, hpn⟩ := isNaN_eq_false_of_le hlow
  have hhighn := (isNaN_eq_false_of_le hhigh).2
  have hcn := isNaN_of_isFinite hc
  have hlowp := (le_iff_value hlown hpn).mp hlow
  have hphigh := (le_iff_value hpn hhighn).mp hhigh
  unfold greater
  split
  · -- below the range, it is moved up to the lower end
    rename_i hbelow
    have hclow := (lt_iff_value hcn hlown).mp hbelow
    rw [lesser, if_neg (not_lt_of_le (le_trans hlow hhigh))]
    refine ⟨isFinite_of_between hc hpf (le_of_lt hbelow) hlow, ?_⟩
    rw [abs_of_pos (sub_pos.mpr hclow), abs_of_pos (sub_pos.mpr (hclow.trans_le hlowp))]
    exact sub_le_sub_right hlowp _
  · unfold lesser
    split
    · -- above the range, down to the upper end
      rename_i habove
      have hhighc := (lt_iff_value hhighn hcn).mp habove
      refine ⟨isFinite_of_between hpf hc hhigh (le_of_lt habove), ?_⟩
      rw [abs_of_neg (sub_neg.mpr hhighc), abs_of_neg (sub_neg.mpr (hphigh.trans_lt hhighc))]
      exact neg_le_neg (sub_le_sub_right hphigh _)
    · refine ⟨hc, ?_⟩
      rw [sub_self, abs_zero]
      exact abs_nonneg _

/-- Nor does rounding the offset bring it farther away, and an overflow is the farthest. -/
theorem abs_value_moved_sub_le (hp : Between low high p) (hc : c.isFinite) :
    |value (lesser high (greater low c) - c)| ≤ |value (p - c)| := by
  obtain ⟨hlow, hpn⟩ := isNaN_eq_false_of_le hp.low_le
  have hhigh := (isNaN_eq_false_of_le hp.le_high).2
  cases hfinite : (p - c).isFinite with
  | true =>
    obtain ⟨hpf, -⟩ := isFinite_of_imp isFinite_sub hfinite
    obtain ⟨hmoved, hle⟩ := abs_moved_le hp hpf hc
    exact (isRounded_sub hmoved hc).abs_le_abs (isRounded_sub hpf hc) hle
  | false =>
    rw [abs_value_of_overflow (not_isNaN_sub hpn hc) hfinite]
    have hmoved := isNaN_lesser hhigh (isNaN_greater hlow (isNaN_of_isFinite hc))
    exact abs_value_le_overflow (not_isNaN_sub hmoved hc)

/-! ## What bounds cover -/

/-- Whether a place lies within the bounds, both coordinates being numbers. -/
structure Covers (b : Bounds) (place : Vector2) : Prop where
  x : Between b.lower.x b.upper.x place.x
  y : Between b.lower.y b.upper.y place.y

theorem Covers.isDefined (h : b.Covers place) : place.isDefined :=
  Vector2.isDefined_iff.mpr
    ⟨(isNaN_eq_false_of_le h.x.low_le).2, (isNaN_eq_false_of_le h.y.low_le).2⟩

/-- Bounds with one more place cover it, whatever they were before. -/
theorem covers_widen (h : place.isDefined) : (b.widen place).Covers place := by
  obtain ⟨hx, hy⟩ := Vector2.isDefined_iff.mp h
  exact ⟨⟨lesser_le hx, le_greater hx⟩, ⟨lesser_le hy, le_greater hy⟩⟩

theorem Covers.widen {other : Vector2} (h : b.Covers place) (hother : other.isDefined) :
    (b.widen other).Covers place := by
  obtain ⟨hx, hy⟩ := Vector2.isDefined_iff.mp hother
  exact ⟨⟨lesser_le_of_le h.x.low_le hx, le_greater_of_le h.x.le_high hx⟩,
    ⟨lesser_le_of_le h.y.low_le hy, le_greater_of_le h.y.le_high hy⟩⟩

theorem covers_foldl (hdefined : ∀ p ∈ places, p.isDefined) (h : place ∈ places ∨ b.Covers place) :
    (places.foldl widen b).Covers place := by
  induction places generalizing b with
  | nil => exact h.resolve_left List.not_mem_nil
  | cons first places ih =>
    obtain ⟨hfirst, hrest⟩ := List.forall_mem_cons.mp hdefined
    refine ih hrest ?_
    rcases h with hmem | hcovers
    · rcases List.mem_cons.mp hmem with rfl | hmem
      · exact .inr (covers_widen hfirst)
      · exact .inl hmem
    · exact .inr (hcovers.widen hfirst)

/-- **Bounds of places of numbers cover every one of them.** -/
theorem covers_ofPlaces (hdefined : ∀ p ∈ places, p.isDefined) (h : place ∈ places) :
    (ofPlaces places).Covers place :=
  covers_foldl hdefined (.inl h)

/-! ## Distances -/

theorem Covers.isDefined_nearest (h : b.Covers place) (hcenter : center.isFinite) :
    (b.nearest center).isDefined := by
  obtain ⟨hx, hy⟩ := Vector2.isDefined_iff.mp (Vector2.isDefined_of_isFinite hcenter)
  refine Vector2.isDefined_iff.mpr ⟨?_, ?_⟩
  · exact isNaN_lesser (isNaN_eq_false_of_le h.x.le_high).2
      (isNaN_greater (isNaN_eq_false_of_le h.x.low_le).1 hx)
  · exact isNaN_lesser (isNaN_eq_false_of_le h.y.le_high).2
      (isNaN_greater (isNaN_eq_false_of_le h.y.low_le).1 hy)

/-- **Bounds are no farther from a finite point than a place that they cover**, as distances are
computed. -/
theorem distanceSquared_le (h : b.Covers place) (hcenter : center.isFinite) :
    b.distanceSquared center ≤ (place - center).lengthSquared := by
  have hoffset := Vector2.isDefined_sub h.isDefined hcenter
  unfold distanceSquared
  split
  · exact Vector2.nonneg_lengthSquared hoffset
  · have hnearest := Vector2.isDefined_sub (h.isDefined_nearest hcenter) hcenter
    obtain ⟨hx, hy⟩ := Vector2.isFinite_iff.mp hcenter
    exact Vector2.lengthSquared_le hnearest hoffset (abs_value_moved_sub_le h.x hx)
      (abs_value_moved_sub_le h.y hy)

end Bounds

end Phototaxis
