import Mathlib
import Phototaxis.Proofs.Number.Bounds
import Phototaxis.Proofs.Number.Magnitude

/-!
# Equal and opposite floats

Two floats are equal if they are numbers of one value (`beq_iff_value`). That is less than being
the same float, since the two zeros are equal. Nothing else is lost: two floats of one sign that
the same number is rounded to are one float (`IsRounded.eq_of_signed`).

A float is opposite to another if it is equal to the negation, `x == -y`. Rounding commutes with
negation, so sums of opposite summands are opposite, and so are products and quotients if one of
the operands is exchanged for an opposite one. An overflow among the operands could be of the wrong
sign, or spoil the result, which is why the results have to be finite here. Squares of opposite
floats are the same in all bits (`mul_self_of_opposite`), and a sum that cancels is the positive
zero, unless it is one of negative zeros (`add_of_opposite`).
-/

namespace Phototaxis.Number

open Float.Model (Format UnpackedFloat)
open Float.Model.UnpackedFloat

variable {x x' y y' d : Float} {r : ℚ} {s : Sign}

/-! ## Equal floats -/

theorem isNaN_eq_false_of_beq (h : x == y) : x.isNaN = false ∧ y.isNaN = false := by
  change ((unpacked x).compare (unpacked y) == some .eq) = true at h
  rw [beq_iff_eq] at h
  constructor <;> refine ne_notANumber_iff.mp (fun hn => ?_) <;> rw [hn] at h
  · cases h
  · cases hx : unpacked x <;> rw [hx] at h <;> cases h

/-- **Equal floats are numbers of one value.** -/
theorem beq_iff_value : x == y ↔ x.isNaN = false ∧ y.isNaN = false ∧ value x = value y := by
  have hcompare : ∀ hx : x.isNaN = false, ∀ hy : y.isNaN = false,
      (x == y ↔ value x = value y) := by
    intro hx hy
    change ((unpacked x).compare (unpacked y) == some .eq) = true ↔ _
    rw [compare_eq_compare_rank (ne_notANumber_iff.mpr hx) (ne_notANumber_iff.mpr hy),
      beq_iff_eq, Option.some_inj, compare_eq_iff_eq, le_antisymm_iff, le_antisymm_iff,
      ← le_iff hx hy, ← le_iff hy hx, le_iff_value hx hy, le_iff_value hy hx]
  constructor
  · intro h
    obtain ⟨hx, hy⟩ := isNaN_eq_false_of_beq h
    exact ⟨hx, hy, (hcompare hx hy).mp h⟩
  · rintro ⟨hx, hy, h⟩
    exact (hcompare hx hy).mpr h

/-- What one number is rounded to is equal. -/
theorem IsRounded.beq (hx : IsRounded r x) (hy : IsRounded r y) : x == y := by
  have hle : ∀ {x y}, IsRounded r x → IsRounded r y → value x ≤ value y :=
    fun hx hy => (le_iff_value hx.isNaN hy.isNaN).mp (hx.le hy le_rfl)
  exact beq_iff_value.mpr ⟨hx.isNaN, hy.isNaN, le_antisymm (hle hx hy) (hle hy hx)⟩

theorem Signed.eq_of_rank {u v : UnpackedFloat} (hu : Signed s u) (hv : Signed s v)
    (h : rank u = rank v) : u = v := by
  cases hu <;> cases hv <;> cases s <;> simp_all [rank]

/-- **A number is rounded to one float of each sign at most.** -/
theorem IsRounded.eq_of_signed (hx : IsRounded r x) (hy : IsRounded r y)
    (hsx : Signed s (unpacked x)) (hsy : Signed s (unpacked y)) : x = y := by
  have hle : ∀ {x y}, IsRounded r x → IsRounded r y →
      rank (unpacked x) ≤ rank (unpacked y) :=
    fun hx hy => (le_iff hx.isNaN hy.isNaN).mp (hx.le hy le_rfl)
  exact unpacked_inj.mp (hsx.eq_of_rank hsy (le_antisymm (hle hx hy) (hle hy hx)))

/-- Being finite is a matter of the value. -/
theorem isFinite_iff_value (hx : x.isNaN = false) : x.isFinite ↔ |value x| < overflow :=
  ⟨abs_value_lt, isFinite_of_abs_value_lt hx⟩

theorem isFinite_of_beq (h : x == y) (hx : x.isFinite) : y.isFinite := by
  obtain ⟨-, hy, hv⟩ := beq_iff_value.mp h
  rw [isFinite_iff_value hy, ← hv]
  exact abs_value_lt hx

/-! ## Opposite floats -/

theorem opposite_iff_value :
    x == -y ↔ x.isNaN = false ∧ y.isNaN = false ∧ value x = -value y := by
  rw [beq_iff_value, isNaN_neg, value_neg]

theorem opposite_symm (h : x == -y) : y == -x := by
  obtain ⟨hx, hy, hv⟩ := opposite_iff_value.mp h
  exact opposite_iff_value.mpr ⟨hy, hx, by rw [hv, neg_neg]⟩

theorem opposite_neg (h : x == -y) : -x == -(-y) := by
  obtain ⟨hx, hy, hv⟩ := opposite_iff_value.mp h
  refine opposite_iff_value.mpr ⟨(isNaN_neg x).trans hx, (isNaN_neg y).trans hy, ?_⟩
  rw [value_neg, value_neg, hv]

theorem isFinite_of_opposite (h : x == -y) (hx : x.isFinite) : y.isFinite :=
  (isFinite_neg y).symm.trans (isFinite_of_beq h hx)

/-- What opposite numbers are rounded to is opposite. -/
theorem IsRounded.opposite (hx : IsRounded r x) (hy : IsRounded (-r) y) : x == -y := by
  have hneg := hy.neg
  rw [neg_neg] at hneg
  exact hx.beq hneg

/-- **Exchanging the operands of a difference turns it round**, also where it overflows. -/
theorem opposite_sub (hx : x.isFinite) (hy : y.isFinite) : x - y == -(y - x) := by
  refine (isRounded_sub hx hy).opposite ?_
  rw [neg_sub]
  exact isRounded_sub hy hx

theorem opposite_add (hx : x == -x') (hy : y == -y') (h : (x + y).isFinite) :
    x + y == -(x' + y') := by
  obtain ⟨hxf, hyf⟩ := isFinite_of_imp isFinite_add h
  refine (isRounded_add hxf hyf).opposite ?_
  rw [(opposite_iff_value.mp hx).2.2, (opposite_iff_value.mp hy).2.2, neg_add, neg_neg, neg_neg]
  exact isRounded_add (isFinite_of_opposite hx hxf) (isFinite_of_opposite hy hyf)

theorem opposite_mul (hx : x == -x') (hy : y == y') (h : (x * y).isFinite) :
    x * y == -(x' * y') := by
  obtain ⟨hxf, hyf⟩ := isFinite_of_imp isFinite_mul h
  refine (isRounded_mul hxf hyf).opposite ?_
  rw [(opposite_iff_value.mp hx).2.2, (beq_iff_value.mp hy).2.2, neg_mul, neg_neg]
  exact isRounded_mul (isFinite_of_opposite hx hxf) (isFinite_of_beq hy hyf)

/-- A quotient is a product, with nothing if the divisor has overflowed. -/
theorem exists_isRounded_div (hd : 0.0 < d) :
    ∃ t : ℚ, ∀ x : Float, x.isFinite → IsRounded (value x * t) (x / d) := by
  cases hfinite : d.isFinite with
  | true =>
    refine ⟨(value d)⁻¹, fun x hx => ?_⟩
    rw [← div_eq_mul_inv]
    exact isRounded_div hx hfinite (value_pos hd).ne'
  | false =>
    refine ⟨0, fun x hx => ?_⟩
    rw [mul_zero]
    exact isRounded_div_overflow hx hfinite (isNaN_eq_false_of_lt hd).2

/-- Only what is finite has a finite quotient. -/
theorem isFinite_of_div (h : (x / d).isFinite) : x.isFinite := by
  rw [← Bool.not_eq_false]
  intro hx
  cases hd : d.isFinite with
  | true => exact Bool.false_ne_true ((isFinite_div hx hd).symm.trans h)
  | false =>
    exact Bool.false_ne_true ((isNaN_of_isFinite h).symm.trans (isNaN_div_of_overflow hx hd))

theorem beq_div (hx : x == x') (hd : 0.0 < d) (h : (x / d).isFinite) : x / d == x' / d := by
  obtain ⟨t, hquotient⟩ := exists_isRounded_div hd
  have hxf := isFinite_of_div h
  refine (hquotient x hxf).beq ?_
  rw [(beq_iff_value.mp hx).2.2]
  exact hquotient x' (isFinite_of_beq hx hxf)

theorem opposite_div (hx : x == -x') (hd : 0.0 < d) (h : (x / d).isFinite) :
    x / d == -(x' / d) := by
  obtain ⟨t, hquotient⟩ := exists_isRounded_div hd
  have hxf := isFinite_of_div h
  refine (hquotient x hxf).opposite ?_
  rw [(opposite_iff_value.mp hx).2.2, neg_mul, neg_neg]
  exact hquotient x' (isFinite_of_opposite hx hxf)

/-! ## Squares -/

/-- **Opposite floats have the same square**, bit for bit. -/
theorem mul_self_of_opposite (h : x == -y) : x * x = y * y := by
  obtain ⟨hx, hy, hv⟩ := opposite_iff_value.mp h
  have hsigned : ∀ {z : Float}, z.isNaN = false → Signed .positive (unpacked (z * z)) :=
    fun hz => (signed_mul_self (ne_notANumber_iff.mpr hz)).repacked
  cases hfinite : x.isFinite with
  | true =>
    have hyf := isFinite_of_opposite h hfinite
    refine (isRounded_mul hfinite hfinite).eq_of_signed ?_ (hsigned hx) (hsigned hy)
    rw [hv, neg_mul_neg]
    exact isRounded_mul hyf hyf
  | false =>
    -- infinities, whose squares are the positive one
    have hyf : y.isFinite = false := by
      rw [← Bool.not_eq_true] at hfinite ⊢
      exact mt (isFinite_of_opposite (opposite_symm h)) hfinite
    have hsquare : ∀ {z : Float}, z.isNaN = false → z.isFinite = false →
        unpacked (z * z) = .infinity .positive := by
      intro z hz hzf
      obtain ⟨t, hu⟩ := (cases_of_overflow hzf).resolve_left (ne_notANumber_iff.mpr hz)
      rw [unpacked_mul, hu]
      cases t <;> rfl
    exact unpacked_inj.mp ((hsquare hx hfinite).trans (hsquare hy hyf).symm)

/-! ## Sums that cancel -/

/-- **Opposite floats cancel** to the positive zero, unless the first is the negative one. -/
theorem add_of_opposite (h : x == -y) (hx : x.isFinite) (h0 : unpacked x ≠ .zero .negative) :
    x + y = 0.0 := by
  have hv := (opposite_iff_value.mp h).2.2
  have hz := unpacked_add x y
  have hzero : unpacked 0.0 = repacked (.zero .positive) := rfl
  rw [← unpacked_inj, hz, hzero]
  refine congrArg repacked ?_
  rcases isFinite_cases hx with ⟨s, hux, hvx⟩ | ⟨s, m, e, hm, hux, -, hvx⟩ <;>
    rcases isFinite_cases (isFinite_of_opposite h hx) with
      ⟨t, huy, hvy⟩ | ⟨t, m', e', hm', huy, -, hvy⟩ <;>
    rw [hux] at h0 ⊢ <;> rw [huy] <;> rw [hvx, hvy] at hv
  · cases s with
    | positive => cases t <;> rfl
    | negative => exact absurd rfl h0
  -- a zero and a float that is none are not opposite
  · have habs := abs_signed t m' e'
    rw [← abs_neg, ← hv, abs_zero] at habs
    exact absurd habs (mantissa_pos hm' e').ne
  · have habs := abs_signed s m e
    rw [hv, neg_zero, abs_zero] at habs
    exact absurd habs (mantissa_pos hm e).ne
  · have hsum := apply_add_apply s t m m' e e'
    rw [hv, neg_add_cancel] at hsum
    have hmantissa := (mul_eq_zero.mp hsum).resolve_right (zpow_ne_zero _ two_ne_zero)
    rw [Int.cast_eq_zero] at hmantissa
    simp only [UnpackedFloat.add, decreaseExponent, hmantissa]
    rfl

/-- The negative zero is lost in a sum with the positive one. -/
theorem unpacked_zero_add (hx : x.isFinite) : unpacked (0.0 + x) ≠ .zero .negative := by
  have hz := unpacked_add 0.0 x
  have hzero : unpacked 0.0 = .zero .positive := rfl
  rcases isFinite_cases hx with ⟨s, hux, -⟩ | ⟨s, m, e, hm, hux, hc, -⟩ <;>
    rw [hzero, hux] at hz <;> rw [hz]
  · cases s <;> exact nofun
  · change repacked (.finite s m e hm) ≠ _
    rw [repacked_canonical hc]
    exact nofun

/-- **A sum from zero over opposite floats is zero again**, the positive one. -/
theorem zero_add_add_of_opposite (h : x == -y) (hx : x.isFinite) : 0.0 + x + y = 0.0 := by
  have hsum : IsRounded (value x) (0.0 + x) := by
    have hadd := isRounded_add (x := 0.0) rfl hx
    rwa [value_zero, zero_add] at hadd
  have hfinite : (0.0 + x).isFinite := isFinite_of_beq ((isRounded_self hx).beq hsum) hx
  refine add_of_opposite (hsum.opposite ?_) hfinite (unpacked_zero_add hx)
  rw [← (opposite_iff_value.mp (opposite_symm h)).2.2]
  exact isRounded_self (isFinite_of_opposite h hx)

end Phototaxis.Number
