import Mathlib
import Phototaxis.Picture.Vehicle
import Phototaxis.Proofs.Number.Remainder
import Phototaxis.Scenario.Record

/-!
# Headings within one turn

A heading is shown as the fraction of a turn that it is past a whole number of turns, so it should
be shown as less than a whole turn. It is never shown as less than zero or more than a whole turn,
and it is rounded only once (`Angle.isRounded_wrap`). But the whole turn itself is reached, and in
degrees 360: the wrap of an angle just below zero is nearer to the whole turn than to any other
float.

The angles for which this happens are few. From the fourth radian on, angles are multiples of the
last place of a whole turn, and so is what they are past a whole number of turns; such a fraction
cannot be nearer to the whole turn than one place. So the angle is less than a turn itself, and
below zero by no more than half a place (`Angle.middle_le_iff`).
-/

namespace Phototaxis

open Number

namespace Angle

variable {x : Float}

/-- The last float before a whole turn. -/
def last : Float := 6.283185307179585

/-- Half of the last place of a whole turn, `2 ^ -51`. -/
def halfPlace : Float := 4.440892098500626e-16

/-- Whether an angle lies below zero by no more than half of the last place of a whole turn. -/
def IsSlight (x : Float) : Prop := -halfPlace ≤ x ∧ x < 0.0

instance (x : Float) : Decidable (IsSlight x) :=
  inferInstanceAs (Decidable (-halfPlace ≤ x ∧ x < 0.0))

/-! ## The numbers behind the floats -/

/-- The mantissa of a whole turn. -/
def mantissa : ℕ := 7074237752028440

theorem canonical_mantissa : Canonical mantissa (-50) := by
  constructor <;> decide

theorem value_whole : value whole = mantissa * 2 ^ (-50 : ℤ) := by
  decide +kernel

theorem value_whole_pos : 0 < value whole := value_pos (by decide)

theorem value_last : value last = (mantissa - 1) * 2 ^ (-50 : ℤ) := by
  decide +kernel

theorem value_halfPlace : value (-halfPlace) = -(1 / 2 * 2 ^ (-50 : ℤ)) := by
  decide +kernel

theorem isSlight_iff (hx : x.isFinite) :
    IsSlight x ↔ -(1 / 2 * 2 ^ (-50 : ℤ)) ≤ value x ∧ value x < 0 := by
  rw [IsSlight, le_iff_value (by decide) (isNaN_of_isFinite hx),
    lt_iff_value (isNaN_of_isFinite hx) rfl, value_halfPlace]
  exact Iff.rfl

/-! ## How near to a whole turn a fraction of it can be -/

theorem fraction_eq (x : Float) : value whole * Int.fract (value x / value whole)
    = value x - value whole * ⌊value x / value whole⌋ := by
  rw [Int.fract, mul_sub, mul_div_cancel₀ _ value_whole_pos.ne']

/-- A negative angle of less than a turn lacks as much of the turn as it is below zero. -/
theorem fraction_of_neg (h : -value whole ≤ value x) (h0 : value x < 0) :
    value whole * Int.fract (value x / value whole) = value x + value whole := by
  refine mul_fract_eq (k := -1) ?_ (by linarith) (by linarith)
  push_cast
  ring

/-- **A multiple of the last place of the turn stays one place away from the turn.** -/
theorem lt_middle_of_multiple {j : ℤ} (hj : value x = j * 2 ^ (-50 : ℤ)) :
    value whole * Int.fract (value x / value whole) < (mantissa - 1 / 2) * 2 ^ (-50 : ℤ) := by
  have hunit : (0 : ℚ) < 2 ^ (-50 : ℤ) := by positivity
  have hless := mul_lt_mul_of_pos_left (Int.fract_lt_one (value x / value whole)) value_whole_pos
  have hfraction := fraction_eq x
  generalize ⌊value x / value whole⌋ = k at hfraction
  generalize value whole * Int.fract (value x / value whole) = fraction at hless hfraction ⊢
  rw [hj, value_whole, show (j : ℚ) * 2 ^ (-50 : ℤ) - mantissa * 2 ^ (-50 : ℤ) * k
    = (j - mantissa * k : ℤ) * 2 ^ (-50 : ℤ) by push_cast; ring] at hfraction
  rw [mul_one, value_whole, hfraction, mul_lt_mul_iff_left₀ hunit] at hless
  rw [hfraction, mul_lt_mul_iff_left₀ hunit]
  have hplace : j - mantissa * k ≤ (mantissa : ℤ) - 1 := by
    have hint : j - mantissa * k < (mantissa : ℤ) := by exact_mod_cast hless
    omega
  calc ((j - mantissa * k : ℤ) : ℚ) ≤ ((mantissa - 1 : ℤ) : ℚ) := by exact_mod_cast hplace
    _ < mantissa - 1 / 2 := by
        push_cast
        linarith

/-- A float is a multiple of any place that is not beyond its last. -/
theorem exists_multiple {s : Float.Model.UnpackedFloat.Sign} {m : ℕ} {e q : ℤ} (h : q ≤ e) :
    ∃ j : ℤ, factor s * (m * 2 ^ e) = j * 2 ^ q := by
  refine ⟨s.apply (m <<< (e - q).toNat : ℕ), ?_⟩
  rw [apply_eq, Int.cast_natCast, mul_assoc, shiftLeft_mul_zpow m h]

/-- From the fourth radian on, floats are multiples of the last place of the turn. -/
theorem exists_multiple_of_large (hx : x.isFinite) (h : ¬ |value x| < 2 ^ 52 * 2 ^ (-50 : ℤ)) :
    ∃ j : ℤ, value x = j * 2 ^ (-50 : ℤ) := by
  rcases isFinite_cases hx with ⟨s, -, hv⟩ | ⟨s, m, e, -, -, hc, hv⟩
  · exact ⟨0, by rw [hv, Int.cast_zero, zero_mul]⟩
  · rw [hv, abs_signed] at h
    rw [hv]
    refine exists_multiple (not_lt.mp fun hlt => h ?_)
    calc (m : ℚ) * 2 ^ e ≤ m * 2 ^ (-51 : ℤ) :=
          mul_le_mul_of_nonneg_left (zpow_le_zpow_right₀ one_le_two (by omega)) m.cast_nonneg
      _ < 2 ^ 53 * 2 ^ (-51 : ℤ) :=
          mul_lt_mul_of_pos_right (by exact_mod_cast hc.lt) (by positivity)
      _ = 2 ^ 52 * 2 ^ (-50 : ℤ) := by norm_num

/-- **Only slight angles come so near to the whole turn** that they are rounded to it. -/
theorem middle_le_iff (hx : x.isFinite) :
    (mantissa - 1 / 2) * 2 ^ (-50 : ℤ) ≤ value whole * Int.fract (value x / value whole) ↔
      -(1 / 2 * 2 ^ (-50 : ℤ)) ≤ value x ∧ value x < 0 := by
  have hunit : (0 : ℚ) < 2 ^ (-50 : ℤ) := by positivity
  have hmantissa : (2 : ℚ) ^ 52 + 1 < mantissa := by norm_num [mantissa]
  have hwhole := value_whole
  constructor
  · intro hle
    have hsmall : |value x| < 2 ^ 52 * 2 ^ (-50 : ℤ) := by
      by_contra hlarge
      obtain ⟨j, hj⟩ := exists_multiple_of_large hx hlarge
      exact not_le.mpr (lt_middle_of_multiple hj) hle
    obtain ⟨hlow, hhigh⟩ := abs_lt.mp hsmall
    generalize (2 : ℚ) ^ (-50 : ℤ) = place at *
    have hless : 2 ^ 52 * place < (mantissa - 1 / 2) * place :=
      mul_lt_mul_of_pos_right (by linarith) hunit
    rcases lt_or_ge (value x) 0 with h0 | h0
    · rw [fraction_of_neg (by linarith) h0] at hle
      exact ⟨by linarith, h0⟩
    · rw [mul_fract_eq (k := 0) (by rw [Int.cast_zero, zero_mul, zero_add]) h0
        (by linarith)] at hle
      linarith
  · rintro ⟨hlow, h0⟩
    generalize (2 : ℚ) ^ (-50 : ℤ) = place at *
    have hturn : 1 / 2 * place < mantissa * place := mul_lt_mul_of_pos_right (by linarith) hunit
    rw [fraction_of_neg (by linarith) h0]
    linarith

/-! ## The wrap -/

/-- **An angle is wrapped by one rounding** of the fraction of a turn that it is past a whole number
of turns. -/
theorem isRounded_wrap (hx : x.isFinite) :
    IsRounded (value whole * Int.fract (value x / value whole)) (wrap x) :=
  isRounded_euclideanRemainder hx (by decide) value_whole_pos

theorem fraction_nonneg : 0 ≤ value whole * Int.fract (value x / value whole) :=
  mul_nonneg value_whole_pos.le (Int.fract_nonneg _)

theorem between_wrap (hx : x.isFinite) : Between 0.0 whole (wrap x) := by
  refine (isRounded_wrap hx).between rfl (by decide) fraction_nonneg ?_
  exact mul_le_of_le_one_right value_whole_pos.le (Int.fract_lt_one _).le

theorem isFinite_wrap (hx : x.isFinite) : (wrap x).isFinite :=
  (between_wrap hx).isFinite rfl (by decide)

/-- A slight angle is wrapped to the whole turn. -/
theorem whole_le_wrap (hx : x.isFinite) (h : IsSlight x) : whole ≤ wrap x := by
  have hrounded := isRounded_wrap hx
  rw [le_iff_value (by decide) hrounded.isNaN, value_whole]
  exact hrounded.le_value canonical_mantissa (by decide) (by decide)
    ((middle_le_iff hx).mpr ((isSlight_iff hx).mp h))

/-- **Any other angle is wrapped to less than that.** -/
theorem wrap_le_last (hx : x.isFinite) (h : ¬ IsSlight x) : wrap x ≤ last := by
  have hrounded := isRounded_wrap hx
  rw [le_iff_value hrounded.isNaN (by decide), value_last]
  refine hrounded.value_le fraction_nonneg canonical_mantissa (by decide) (not_le.mp ?_)
  exact mt (middle_le_iff hx).mp (mt (isSlight_iff hx).mpr h)

theorem wrap_lt_whole_iff (hx : x.isFinite) : wrap x < whole ↔ ¬ IsSlight x :=
  ⟨fun hlt h => not_lt_of_le (whole_le_wrap hx h) hlt,
    fun h => Number.lt_of_le_of_lt (wrap_le_last hx h) (by decide)⟩

/-! ## Degrees -/

/-- Degrees are ordered as the angles are. -/
theorem degrees_le_degrees {y : Float} (h : x ≤ y) (hx : x.isFinite) (hy : y.isFinite) :
    degrees x ≤ degrees y := by
  have hscale : (180.0 / half).isFinite := by decide
  refine (isRounded_mul hx hscale).le (isRounded_mul hy hscale) ?_
  refine mul_le_mul_of_nonneg_right ?_ (value_pos (by decide)).le
  exact (le_iff_value (isNaN_of_isFinite hx) (isNaN_of_isFinite hy)).mp h

end Angle

namespace VehiclePicture

variable {picture : VehiclePicture}

open Angle (IsSlight)

theorem between_shownDegrees (h : picture.heading.isFinite) :
    Between 0.0 360.0 picture.shownDegrees := by
  obtain ⟨h0, hle⟩ := Angle.between_wrap h
  have hfinite := Angle.isFinite_wrap h
  exact ⟨le_trans (by decide) (Angle.degrees_le_degrees h0 rfl hfinite),
    le_trans (Angle.degrees_le_degrees hle hfinite (by decide)) (by decide)⟩

theorem shownDegrees_lt_iff (h : picture.heading.isFinite) :
    picture.shownDegrees < 360.0 ↔ ¬ IsSlight picture.heading := by
  have hfinite := Angle.isFinite_wrap h
  constructor
  · intro hlt hslight
    have hwhole := Angle.degrees_le_degrees (Angle.whole_le_wrap h hslight) (by decide)
      hfinite
    exact not_lt_of_le (le_trans (by decide) hwhole) hlt
  · intro hslight
    have hlast := Angle.degrees_le_degrees (Angle.wrap_le_last h hslight) hfinite
      (by decide)
    exact Number.lt_of_le_of_lt hlast (by decide)

/-- **A heading is shown within one turn, except for the slightest turns to the right.** What is
shown of a finite heading is the fraction of a turn that it is past a whole number of turns, rounded
once. It is from zero to the whole turn, and from 0 to 360 in degrees; and it is less than the whole
turn, and less than 360 degrees, exactly if the heading is not one of those that lie below zero by
no more than `2 ^ -51`. -/
theorem shown_within_turn_iff (picture : VehiclePicture) (h : picture.heading.isFinite) :
    IsRounded (value Angle.whole * Int.fract (value picture.heading / value Angle.whole))
        picture.shownHeading ∧
      Between 0.0 Angle.whole picture.shownHeading ∧ Between 0.0 360.0 picture.shownDegrees ∧
      (picture.shownHeading < Angle.whole ↔ ¬ IsSlight picture.heading) ∧
      (picture.shownDegrees < 360.0 ↔ ¬ IsSlight picture.heading) :=
  ⟨Angle.isRounded_wrap h, Angle.between_wrap h, between_shownDegrees h,
    Angle.wrap_lt_whole_iff h, shownDegrees_lt_iff h⟩

/-- A heading below zero by one float more than half a place is shown within the turn. -/
theorem shown_within_turn_nearly :
    let picture : VehiclePicture := ⟨.numbering 0, .zero, -4.440892098500627e-16⟩
    picture.heading.isFinite ∧ picture.shownHeading < Angle.whole ∧
      picture.shownDegrees < 360.0 := by
  intro picture
  have hfinite : picture.heading.isFinite := by decide
  have hslight : ¬ IsSlight picture.heading := by decide
  obtain ⟨-, -, -, hheading, hdegrees⟩ := shown_within_turn_iff picture hfinite
  exact ⟨hfinite, hheading.mpr hslight, hdegrees.mpr hslight⟩

/-- **A vehicle that heads a little to the right of the x axis is shown at a whole turn**, and at
360 degrees. -/
theorem shown_at_whole_turn :
    ∃ vehicle, Vehicle.ofRecord "0 0 -1e-20 0 follower" = .ok vehicle ∧
      vehicle.heading.isFinite ∧
      ¬ (ofVehicle (.numbering 0) vehicle).shownHeading < Angle.whole ∧
      ¬ (ofVehicle (.numbering 0) vehicle).shownDegrees < 360.0 :=
  ⟨⟨.zero, -1e-20, 0.0, .follower⟩, rfl, by decide, by decide, by decide⟩

end VehiclePicture

end Phototaxis
