import Mathlib
import Phototaxis.Proofs.Geometry.Distance
import Phototaxis.Proofs.Number.RootOfSquare

/-!
# Vectors within bounds

The coordinates of a vector are computed alike, so one bound does for both. What is in
sight is not far off in either coordinate (`Vector2.within_of_length`), and the unit
vectors that velocities are made of are bounded by one (`Vector2.within_ofAngle`).

A vector divided by its length is bounded by one as well, however it is rounded
(`Vector2.within_direction`). That takes a floor under the length, and a finite vector:
the floor is what guards against coincident places, and nothing guards against an offset
that overflows (`Vector2.isDefined_direction`).
-/

namespace Phototaxis

open Number

namespace Vector2

variable {v w : Vector2} {a b s : Float}

/-- Whether both coordinates are finite, and within a bound on both sides. -/
structure Within (bound : Float) (v : Vector2) : Prop where
  x : Number.Within bound v.x
  y : Number.Within bound v.y

namespace Within

theorem isFinite (h : v.Within a) : v.isFinite := isFinite_iff.mpr ⟨h.x.isFinite, h.y.isFinite⟩

theorem mono (h : v.Within a) (hab : a ≤ b) : v.Within b := ⟨h.x.mono hab, h.y.mono hab⟩

theorem add (hv : v.Within a) (hw : w.Within b) (h : (a + b).isFinite) : (v + w).Within (a + b) :=
  ⟨hv.x.add hw.x h, hv.y.add hw.y h⟩

theorem mul (hv : v.Within a) (hs : Number.Within b s) (h : (a * b).isFinite) :
    (v * s).Within (a * b) :=
  ⟨hv.x.mul hs h, hv.y.mul hs h⟩

theorem div (hv : v.Within a) (ha : a.isFinite) (hb : 0.0 < b) (hbs : b ≤ s)
    (h : (a / b).isFinite) (hbf : b.isFinite) : (v / s).Within (a / b) :=
  ⟨hv.x.div ha hb hbs h hbf, hv.y.div ha hb hbs h hbf⟩

theorem neg (hv : v.Within a) (ha : a.isFinite) : (-v).Within a := ⟨hv.x.neg ha, hv.y.neg ha⟩

theorem zero (ha : a.isFinite) (h0 : 0.0 ≤ a) : zero.Within a :=
  ⟨.zero h0 ha, .zero h0 ha⟩

end Within

/-! ## Lengths -/

theorem nonneg_length (h : v.isDefined) : 0.0 ≤ v.length := by
  refine nonneg_of_signed ?_
  unfold length
  rw [unpacked_sqrt]
  exact (signed_lengthSquared h).sqrt.repacked

theorem not_length_lt_zero : ¬ v.length < 0.0 := by
  intro hlt
  have hv := (isNaN_eq_false_of_lt hlt).1
  rw [isNaN_length, Bool.not_eq_false'] at hv
  exact not_lt_of_le (nonneg_length hv) hlt

/-- **What is in sight is near in both coordinates.** -/
theorem within_of_length (hv : v.isDefined) (h : ¬ Surroundings.sight < v.length) :
    v.Within 33.0 := by
  have hsigned := signed_lengthSquared hv
  have hsquare : v.lengthSquared ≤ 1024.0 := by
    by_contra hfar
    have hlt := lt_of_not_le (isNaN_lengthSquared hv) (by decide) hfar
    exact h (lt_of_lt_of_le (by decide +kernel : Surroundings.sight < (1024.0 : Float).sqrt)
      (sqrt_le_sqrt (by decide) (le_of_lt hlt)))
  have hfinite := isFinite_of_le (nonneg_of_signed hsigned) hsquare (by decide)
  obtain ⟨hx, hy⟩ := isFinite_iff.mp (isFinite_of_lengthSquared hfinite)
  obtain ⟨hxx, hyy⟩ := isFinite_of_imp isFinite_add hfinite
  have hnear : ∀ {c}, c * c ≤ 1024.0 → ¬ (33.0 : Float) * 33.0 ≤ c * c := fun hc hge =>
    absurd (le_trans hge hc) (by decide)
  have hsum := isRounded_add hxx hyy
  refine ⟨within_of_mul_self hx (by decide) (by decide) (hnear ?_),
    within_of_mul_self hy (by decide) (by decide) (hnear ?_)⟩
  · exact le_trans (mul_self_le_sum hxx hyy hsum) hsquare
  · rw [Rat.add_comm] at hsum
    exact le_trans (mul_self_le_sum hyy hxx hsum) hsquare

/-- A length with a floor is not below the floor. -/
theorem floor_le_lengthAtLeast {floor : Float} (hf : floor.isNaN = false) :
    floor ≤ v.lengthAtLeast floor := by
  unfold lengthAtLeast maxNumber
  split
  · rename_i hlt
    rw [hf, Bool.or_false, decide_eq_true_iff] at hlt
    exact le_of_lt hlt
  · exact Number.le_refl hf

theorem length_le_lengthAtLeast {floor : Float} (hv : v.isDefined) (hf : floor.isNaN = false) :
    v.length ≤ v.lengthAtLeast floor := by
  have hnumber := isNaN_length_of_isDefined hv
  unfold lengthAtLeast maxNumber
  split
  · exact Number.le_refl hnumber
  · rename_i hnot
    rw [hf, Bool.or_false, decide_eq_true_iff] at hnot
    exact le_of_not_lt hf hnumber hnot

/-! ## Directions -/

/-- Neither coordinate is longer than the vector, unless both are below a tenth. -/
theorem abs_le_lengthAtLeast (hv : v.isFinite) :
    |value v.x| ≤ value (v.lengthAtLeast 0.1) ∧ |value v.y| ≤ value (v.lengthAtLeast 0.1) := by
  have hdefined := isDefined_of_isFinite hv
  have hfloor : 0.1 ≤ v.lengthAtLeast 0.1 := floor_le_lengthAtLeast (by decide)
  have hlength : v.length ≤ v.lengthAtLeast 0.1 :=
    length_le_lengthAtLeast hdefined (by decide)
  have hcoordinate : ∀ {c : Float}, (value 0.1 < |value c| → |value c| ≤ value v.length) →
      |value c| ≤ value (v.lengthAtLeast 0.1) := by
    intro c hlong
    rcases lt_or_ge (value 0.1) |value c| with hlt | hle
    · obtain ⟨hn, hn'⟩ := isNaN_eq_false_of_le hlength
      exact (hlong hlt).trans ((le_iff_value hn hn').mp hlength)
    · obtain ⟨hn, hn'⟩ := isNaN_eq_false_of_le hfloor
      exact hle.trans ((le_iff_value hn hn').mp hfloor)
  obtain ⟨hx, hy⟩ := isFinite_iff.mp hv
  have hsum := signed_lengthSquared hdefined
  refine ⟨hcoordinate (le_sqrt_add hx hsum), hcoordinate ?_⟩
  unfold length lengthSquared at *
  rw [Number.add_comm] at hsum ⊢
  exact le_sqrt_add hy hsum

/-- **A direction is at most one in both coordinates**: the vector divided by its length, or by a
tenth if it is shorter. -/
theorem within_direction (hv : v.isFinite) : (v / v.lengthAtLeast 0.1).Within 1.0 := by
  have hpos : 0.0 < v.lengthAtLeast 0.1 :=
    lt_of_lt_of_le (by decide) (floor_le_lengthAtLeast (by decide))
  obtain ⟨hx, hy⟩ := isFinite_iff.mp hv
  exact ⟨.div_of_le hx hpos (abs_le_lengthAtLeast hv).1,
    .div_of_le hy hpos (abs_le_lengthAtLeast hv).2⟩

/-- **An overflow has no direction**: an infinite coordinate is divided by an infinite length. -/
theorem isDefined_direction (hv : v.isFinite = false) :
    (v / v.lengthAtLeast 0.1).isDefined = false := by
  rw [← Bool.not_eq_true]
  intro hdirection
  have hdefined := isDefined_of_div hdirection
  have hlong : (v.lengthAtLeast 0.1).isFinite = false := by
    rw [← Bool.not_eq_true] at hv ⊢
    refine fun hfinite => hv (isFinite_of_lengthSquared ?_)
    have hlength := isFinite_of_le (nonneg_length hdefined)
      (length_le_lengthAtLeast hdefined (by decide)) hfinite
    rw [← Bool.not_eq_false] at hlength ⊢
    exact mt isFinite_sqrt hlength
  obtain ⟨hx, hy⟩ := isDefined_iff.mp hdirection
  rw [Bool.eq_false_iff] at hx hy
  rw [isFinite, Bool.and_eq_false_iff] at hv
  rcases hv with hv | hv
  · exact hx (isNaN_div_of_overflow hv hlong)
  · exact hy (isNaN_div_of_overflow hv hlong)

theorem within_unitCoordinate {angle value : Float} (h : angle.isFinite) :
    Number.Within 1.0 (unitCoordinate angle value) := by
  unfold unitCoordinate
  split
  · exact .zero (by decide) (by decide)
  · rename_i hvalue
    rw [h, Bool.true_and, Bool.not_eq_true', Bool.not_eq_false, Bool.and_eq_true,
      decide_eq_true_iff, decide_eq_true_iff] at hvalue
    exact .of_le (by decide) (by decide) hvalue.1 hvalue.2

theorem within_ofAngle {angle : Float} (h : angle.isFinite) : (ofAngle angle).Within 1.0 :=
  ⟨within_unitCoordinate h, within_unitCoordinate h⟩

/-- The angle of a vector of numbers is at most half a turn. -/
theorem within_angle (h : v.isDefined) : Number.Within Angle.half v.angle := by
  unfold angle
  dsimp only
  split
  · exact .zero (by decide) (by decide)
  · rename_i hangle
    rw [h, Bool.true_and, Bool.not_eq_true', Bool.not_eq_false, Bool.and_eq_true,
      decide_eq_true_iff, decide_eq_true_iff] at hangle
    exact .of_le (by decide) (by decide) hangle.1 hangle.2

theorem isFinite_angle (h : v.isDefined) : v.angle.isFinite := (within_angle h).isFinite

end Vector2

end Phototaxis
