import Mathlib
import Phototaxis.Number.Literal
import Phototaxis.Proofs.Number.Bounds

/-!
# Decimals are rounded

A decimal `digits · 10 ^ exponent` is read as the float that it is rounded to, whatever
its digits and its exponent (`isRounded_nearest`). There are three ways to get there. Few
digits and a small power of ten are floats themselves, so that one product or quotient
of them is enough. In general the product or the quotient is computed with all its bits.
And far outside the range nothing is computed at all, since the number of digits tells
that the decimal vanishes or overflows.
-/

namespace Phototaxis.Number

open Float.Model (Format UnpackedFloat)
open Float.Model.UnpackedFloat

variable {x : Float} {r s v w : ℚ} {n : ℕ} {e : ℤ}

/-! ## What a number is rounded to -/

/-- Whether a number that is not negative is rounded to a value. -/
def RoundsTo (r v : ℚ) : Prop := ∃ k q, Rounds r k q ∧ (k : ℚ) * 2 ^ q = v

namespace RoundsTo

theorem mono (h : RoundsTo r v) (h' : RoundsTo s w) (hrs : r ≤ s) : v ≤ w := by
  obtain ⟨k, q, hk, rfl⟩ := h
  obtain ⟨l, p, hl, rfl⟩ := h'
  exact hk.mono hl hrs

/-- **A number is rounded to one value only.** -/
theorem unique (h : RoundsTo r v) (h' : RoundsTo r w) : v = w :=
  le_antisymm (h.mono h' le_rfl) (h'.mono h le_rfl)

/-- Whatever has few enough bits is rounded to itself. -/
theorem self (hn : n < 2 ^ 53) (he : -1074 ≤ e) : RoundsTo (n * 2 ^ e) (n * 2 ^ e) := by
  rcases n.eq_zero_or_pos with rfl | hpos
  · rw [Nat.cast_zero, zero_mul]
    exact ⟨0, -1074, .zero, by rw [Nat.cast_zero, zero_mul]⟩
  have hlog : n.log2 ≤ 52 := Nat.lt_succ_iff.mp ((Nat.log2_lt hpos.ne').mpr hn)
  have hle : lastPlace n e ≤ e := by
    unfold lastPlace
    omega
  have hshift := shiftLeft_mul_zpow n hle
  refine ⟨n <<< (e - lastPlace n e).toNat, lastPlace n e, ?_, hshift⟩
  have hnext : (n : ℚ) * 2 ^ e < (n + 1) * 2 ^ e :=
    mul_lt_mul_of_pos_right (lt_add_one _) (by positivity)
  refine ⟨le_max_right _ _, lt_of_lastPlace hnext, ?_, ?_⟩
  · exact or_iff_not_imp_left.mpr fun hlast => le_of_lastPlace le_rfl hpos.ne' hlast
  · rw [← hshift, mul_div_cancel_right₀ _ (by positivity), nearest_natCast]

/-- Every number is rounded to something. -/
theorem exists_of_nonneg (hr : 0 ≤ r) : ∃ v, RoundsTo r v := by
  rcases hr.eq_or_lt with rfl | hpos
  · exact ⟨_, 0, -1074, .zero, rfl⟩
  have hlo : (2 : ℚ) ^ Int.log 2 r ≤ r := by
    exact_mod_cast Int.zpow_log_le_self one_lt_two hpos
  have hhi : r < (2 : ℚ) ^ (Int.log 2 r + 1) := by
    exact_mod_cast Int.lt_zpow_succ_log_self one_lt_two r
  refine ⟨_, nearest (r / 2 ^ max (Int.log 2 r - 52) (-1074)), max (Int.log 2 r - 52) (-1074),
    ⟨le_max_right _ _, ?_, ?_, rfl⟩, rfl⟩
  · calc r < 2 ^ (Int.log 2 r + 1) := hhi
      _ ≤ 2 ^ (53 + max (Int.log 2 r - 52) (-1074)) :=
          zpow_le_zpow_right₀ one_le_two (by omega)
      _ = 2 ^ 53 * 2 ^ max (Int.log 2 r - 52) (-1074) := by
          rw [zpow_add₀ two_ne_zero]
          rfl
  · refine or_iff_not_imp_left.mpr fun hlast => ?_
    calc (2 : ℚ) ^ 52 * 2 ^ max (Int.log 2 r - 52) (-1074)
        = 2 ^ (52 + max (Int.log 2 r - 52) (-1074)) := by
          rw [zpow_add₀ two_ne_zero]
          rfl
      _ ≤ 2 ^ Int.log 2 r := zpow_le_zpow_right₀ one_le_two (by omega)
      _ ≤ r := hlo

/-- What is beyond all floats is rounded to something beyond all floats. -/
theorem overflow_le (h : RoundsTo r v) (hr : overflow ≤ r) : overflow ≤ v := by
  have hself : RoundsTo overflow overflow := by
    have hpow : ((2 ^ 52 : ℕ) : ℚ) * 2 ^ (972 : ℤ) = overflow := by
      rw [overflow, show (972 : ℤ) = (972 : ℕ) from rfl, zpow_natCast, Nat.cast_pow,
        Nat.cast_ofNat, ← pow_add]
    rw [← hpow]
    exact .self (by norm_num) (by norm_num)
  exact hself.mono h hr

end RoundsTo

/-- The value of what a number is rounded to. -/
theorem IsRounded.value_eq (h : IsRounded r x) (hr : 0 ≤ r) (hv : RoundsTo r v) :
    value x = min v overflow := by
  obtain ⟨k, q, hk, hvalue⟩ := h.exists_rounds
  rw [abs_of_nonneg hr] at hk
  rw [hvalue, if_neg (not_lt.mpr hr), one_mul, hv.unique ⟨k, q, hk, rfl⟩]

theorem isRounded_of_value (hx : x.isNaN = false) (hr : 0 ≤ r) (hv : RoundsTo r v)
    (hvalue : value x = min v overflow) : IsRounded r x := by
  obtain ⟨k, q, hk, rfl⟩ := hv
  refine ⟨hx, k, q, ?_, ?_⟩
  · rwa [abs_of_nonneg hr]
  · rw [hvalue, if_neg (not_lt.mpr hr), one_mul]

/-! ## Few digits and small powers of ten -/

theorem isRounded_toFloat (n : UInt64) : IsRounded n.toNat n.toFloat := by
  have hz : unpacked n.toFloat
      = repacked (UnpackedFloat.normalize .binary64 n.toNat 0 .positive) := rfl
  have h := isRounded_of_normalize hz
  rwa [zpow_zero, mul_one, Int.cast_natCast] at h

theorem isFinite_of_value_eq (hx : x.isNaN = false) (h : value x = r) (hr : 0 ≤ r)
    (hlt : r < overflow) : x.isFinite :=
  isFinite_of_abs_value_lt hx (by rwa [h, abs_of_nonneg hr])

/-- A natural number of 53 bits is a float. -/
theorem value_toFloat (hn : n < 2 ^ 53) :
    n.toUInt64.toFloat.isFinite ∧ value n.toUInt64.toFloat = n := by
  have hrounded := isRounded_toFloat n.toUInt64
  rw [show n.toUInt64.toNat = n from Nat.mod_eq_of_lt (hn.trans (by decide))] at hrounded
  have hself : RoundsTo n n := by
    have h := RoundsTo.self hn (e := 0) (by decide)
    rwa [zpow_zero, mul_one] at h
  have hlt : (n : ℚ) < overflow := by
    have h := Canonical.lt_overflow (m := 2 ^ 53 - 1) (e := 0)
      ⟨by norm_num, by norm_num, by norm_num, .inl (by norm_num)⟩
    rw [zpow_zero, mul_one] at h
    refine lt_of_le_of_lt ?_ h
    exact_mod_cast Nat.le_pred_of_lt hn
  have hvalue : value n.toUInt64.toFloat = n := by
    rw [hrounded.value_eq n.cast_nonneg hself, min_eq_left hlt.le]
  exact ⟨isFinite_of_value_eq hrounded.isNaN hvalue n.cast_nonneg hlt, hvalue⟩

/-- The powers of ten up to the twenty-second are floats. -/
theorem value_powerOfTen : ∀ e : Fin 23,
    (Float.exactlyRepresentablePowersOfTen[e]).isFinite ∧
      value Float.exactlyRepresentablePowersOfTen[e] = 10 ^ e.val := by
  decide +kernel

theorem isRounded_small (hn : n < 2 ^ 53) (e : Fin 23) :
    IsRounded (n * 10 ^ e.val) (n.toUInt64.toFloat * Float.exactlyRepresentablePowersOfTen[e]) ∧
      IsRounded (n / 10 ^ e.val)
        (n.toUInt64.toFloat / Float.exactlyRepresentablePowersOfTen[e]) := by
  obtain ⟨hfinite, hvalue⟩ := value_toFloat hn
  obtain ⟨hfinite', hvalue'⟩ := value_powerOfTen e
  have hproduct := isRounded_mul hfinite hfinite'
  have hquotient := isRounded_div hfinite hfinite' (by rw [hvalue']; positivity)
  rw [hvalue, hvalue'] at hproduct hquotient
  exact ⟨hproduct, hquotient⟩

/-! ## Any number of digits -/

/-- The product with a power of ten, or the quotient by one, is computed with all bits that
matter. The bounds of the exponent are those beyond which it is not computed. -/
theorem isRounded_ofModel (hn : 0 < n) (hhi : e ≤ 2048) (hlo : -(2048 + n.log2 : ℤ) ≤ e) :
    IsRounded (n * 10 ^ e) (Float.ofModel (Float.Model.ofScientific n e)) := by
  have hz : unpacked (Float.ofModel (Float.Model.ofScientific n e))
      = repacked (UnpackedFloat.ofScientific .binary64 n e) := rfl
  have hexponent : (2 : ℤ) ^ Format.binary64.exponentBits = 2048 := rfl
  unfold UnpackedFloat.ofScientific at hz
  rw [dif_neg hn.ne', if_neg (by rw [hexponent]; exact not_lt.mpr hhi),
    if_neg (by rw [hexponent]; exact not_lt.mpr hlo)] at hz
  split at hz
  · next he =>
    obtain ⟨k, rfl⟩ := Int.eq_ofNat_of_zero_le he
    have hvalue : factor .positive * (((n <<< 53 : ℕ) : ℚ) * 2 ^ (-53 : ℤ))
        * (factor .positive * (((10 ^ k : ℕ) : ℚ) * 2 ^ (0 : ℤ))) = n * 10 ^ (k : ℤ) := by
      rw [Nat.shiftLeft_eq]
      push_cast
      simp only [factor]
      field_simp
      norm_num
    rw [← hvalue]
    refine isRounded_of_mul hz ?_
    -- the bits that are written in front alone fill the mantissa
    have hfull : 2 ^ 53 ≤ (n <<< 53) * 10 ^ k := by
      rw [Nat.shiftLeft_eq, Nat.mul_right_comm]
      exact Nat.le_mul_of_pos_left _ (by positivity)
    have hlog := (Nat.le_log2 (by omega)).mpr hfull
    show (-53 + 0 : ℤ) ≤ lastPlace ((n <<< 53) * 10 ^ k) (-53 + 0)
    unfold lastPlace
    omega
  · next he =>
    obtain ⟨k, hk⟩ := Int.eq_ofNat_of_zero_le (Int.neg_nonneg.mpr (not_le.mp he).le)
    have hvalue : factor .positive * ((n : ℚ) * 2 ^ (0 : ℤ))
        / (factor .positive * (((10 ^ (-e).toNat : ℕ) : ℚ) * 2 ^ (0 : ℤ))) = n * 10 ^ e := by
      rw [show e = -(k : ℤ) by omega, neg_neg, Int.toNat_natCast, zpow_neg, zpow_natCast]
      push_cast
      simp only [factor, mul_one, one_mul]
      rfl
    rw [← hvalue]
    exact isRounded_of_div hz

/-- A decimal with its exponent given by sign and magnitude. -/
theorem isRounded_ofScientific (hn : 0 < n) (negative : Bool) {k : ℕ}
    (hhi : (if negative then -(k : ℤ) else k) ≤ 2048)
    (hlo : -(2048 + n.log2 : ℤ) ≤ if negative then -(k : ℤ) else k) :
    IsRounded (n * 10 ^ (if negative then -(k : ℤ) else k)) (Float.ofScientific n negative k) := by
  by_cases h : n < 2 ^ 53 ∧ k ≤ 22
  · obtain ⟨hproduct, hquotient⟩ := isRounded_small h.1 ⟨k, Nat.lt_succ_of_le h.2⟩
    rw [Float.ofScientific, dif_pos h]
    cases negative with
    | true =>
      rw [if_pos rfl, zpow_neg, zpow_natCast, ← div_eq_mul_inv]
      exact hquotient
    | false =>
      rw [if_neg Bool.false_ne_true, zpow_natCast]
      exact hproduct
  · have hexponent : (if negative then Int.negOfNat k else Int.ofNat k)
        = if negative then -(k : ℤ) else k := by
      cases k <;> rfl
    rw [Float.ofScientific, dif_neg h]
    dsimp only
    rw [hexponent]
    exact isRounded_ofModel hn hhi hlo

/-- **Every positive natural number is at least one as a float**, and be it an overflow. -/
theorem one_le_ofNat (hn : 0 < n) : 1.0 ≤ Float.ofNat n := by
  have h := isRounded_ofScientific hn false (k := 0) (by decide) (by simp)
  rw [if_neg Bool.false_ne_true, Nat.cast_zero, zpow_zero, mul_one] at h
  refine (isRounded_self rfl).le h ?_
  rw [value_one]
  exact_mod_cast hn

theorem nonneg_ofNat (n : ℕ) : 0.0 ≤ Float.ofNat n := by
  rcases n.eq_zero_or_pos with rfl | hpos
  · decide
  · exact le_trans (by decide) (one_le_ofNat hpos)

/-! ## Decimals of any size -/

/-- The number of digits tells the size of a number. -/
theorem length_toString_bounds (hn : 0 < n) :
    (10 : ℚ) ^ ((toString n).length - 1 : ℤ) ≤ n ∧ (n : ℚ) < 10 ^ ((toString n).length : ℤ) := by
  rw [Nat.toString_eq_ofList_toDigits, String.length_ofList]
  have hlength : 0 < (Nat.toDigits 10 n).length := Nat.length_toDigits_pos
  have hbound : ∀ {k}, 0 < k → ((Nat.toDigits 10 n).length ≤ k ↔ n < 10 ^ k) :=
    Nat.length_toDigits_le_iff (by decide)
  generalize (Nat.toDigits 10 n).length = l at hlength hbound
  obtain ⟨k, rfl⟩ := Nat.exists_eq_add_one_of_ne_zero hlength.ne'
  refine ⟨?_, ?_⟩
  · rw [Nat.cast_add_one, add_sub_cancel_right, zpow_natCast]
    rcases k.eq_zero_or_pos with rfl | hk
    · rw [pow_zero]
      exact_mod_cast hn
    · have hge := mt (hbound hk).mpr (Nat.not_le.mpr (Nat.lt_succ_self k))
      exact_mod_cast Nat.not_lt.mp hge
  · rw [zpow_natCast]
    exact_mod_cast (hbound hlength).mp le_rfl

theorem length_toString_le (n : ℕ) : (toString n).length ≤ n.log2 + 1 := by
  rw [Nat.toString_eq_ofList_toDigits, String.length_ofList,
    Nat.length_toDigits_le_iff (by decide) (Nat.succ_pos _)]
  exact Nat.lt_log2_self.trans_le (Nat.pow_le_pow_left (by decide) _)

theorem pow_two_le_pow_ten : (2 : ℚ) ^ 1075 ≤ 10 ^ 400 := by
  calc (2 : ℚ) ^ 1075 ≤ 2 ^ (3 * 400) := pow_le_pow_right₀ one_le_two (by norm_num)
    _ = (2 ^ 3) ^ 400 := pow_mul ..
    _ ≤ 10 ^ 400 := pow_le_pow_left₀ (by norm_num) (by norm_num) 400

/-- What is less than half of the least float vanishes. -/
theorem isRounded_of_lt (hr : 0 ≤ r) (h : r < 2 ^ (-1075 : ℤ)) : IsRounded r 0.0 := by
  have hhalf : r / 2 ^ (-1074 : ℤ) < 1 / 2 := by
    rw [div_lt_iff₀ (by positivity)]
    calc r < 2 ^ (-1075 : ℤ) := h
      _ = 1 / 2 * 2 ^ (-1074 : ℤ) := by
          rw [show (-1075 : ℤ) = -1074 - 1 by norm_num, zpow_sub_one₀ two_ne_zero]
          ring
  have hfloor : ⌊r / 2 ^ (-1074 : ℤ)⌋₊ = 0 := Nat.floor_eq_zero.mpr (by linarith)
  have hnearest : nearest (r / 2 ^ (-1074 : ℤ)) = 0 := by
    rw [nearest, hfloor, Nat.cast_zero, sub_zero, if_pos hhalf]
  have hrounds : RoundsTo r 0 := by
    refine ⟨0, -1074, ⟨le_rfl, ?_, .inl rfl, hnearest.symm⟩, by rw [Nat.cast_zero, zero_mul]⟩
    rw [div_lt_iff₀ (by positivity)] at hhalf
    refine hhalf.trans (mul_lt_mul_of_pos_right (by norm_num) (by positivity))
  exact isRounded_of_value rfl hr hrounds
    (value_zero.trans (min_eq_left overflow_pos.le).symm)

/-- What is beyond all floats overflows. -/
theorem isRounded_infinity (h : overflow ≤ r) : IsRounded r (1.0 / 0.0) := by
  have hr : 0 ≤ r := overflow_pos.le.trans h
  obtain ⟨v, hv⟩ := RoundsTo.exists_of_nonneg hr
  have hinfinity : value (1.0 / 0.0) = overflow := by
    have hunpacked : unpacked (1.0 / 0.0) = .infinity .positive := rfl
    rw [value, hunpacked, exact, factor, one_mul]
  refine isRounded_of_value (by decide) hr hv ?_
  rw [hinfinity, min_eq_right (hv.overflow_le h)]

/-- **A decimal is read as what it is rounded to.** -/
theorem isRounded_nearest (digits : ℕ) (exponent : ℤ) :
    IsRounded (digits * 10 ^ exponent) (Literal.nearest digits exponent) := by
  rcases digits.eq_zero_or_pos with rfl | hpos
  · rw [Nat.cast_zero, zero_mul]
    exact isRounded_self (x := 0.0) rfl
  obtain ⟨hlo, hhi⟩ := length_toString_bounds hpos
  have hscale : (0 : ℚ) < 10 ^ exponent := by positivity
  unfold Literal.nearest
  dsimp only
  split_ifs with hlow hhigh
  · rw [Bool.or_eq_true, beq_iff_eq, decide_eq_true_iff] at hlow
    refine isRounded_of_lt (by positivity) ?_
    calc digits * (10 : ℚ) ^ exponent
        < 10 ^ ((toString digits).length : ℤ) * 10 ^ exponent :=
          mul_lt_mul_of_pos_right hhi hscale
      _ = 10 ^ ((toString digits).length + exponent) := (zpow_add₀ (by norm_num) _ _).symm
      _ ≤ 10 ^ (-400 : ℤ) := zpow_le_zpow_right₀ (by norm_num) (by omega)
      _ ≤ 2 ^ (-1075 : ℤ) := by
          rw [zpow_neg, zpow_neg]
          exact inv_anti₀ (by positivity) (by exact_mod_cast pow_two_le_pow_ten)
  · refine isRounded_infinity ?_
    calc overflow ≤ 10 ^ (400 : ℤ) := by
          rw [overflow]
          calc (2 : ℚ) ^ 1024 ≤ 2 ^ 1075 := pow_le_pow_right₀ one_le_two (by norm_num)
            _ ≤ 10 ^ 400 := pow_two_le_pow_ten
      _ ≤ 10 ^ ((toString digits).length - 1 + exponent : ℤ) :=
          zpow_le_zpow_right₀ (by norm_num) (by omega)
      _ = 10 ^ ((toString digits).length - 1 : ℤ) * 10 ^ exponent := zpow_add₀ (by norm_num) _ _
      _ ≤ digits * 10 ^ exponent := mul_le_mul_of_nonneg_right hlo hscale.le
  · rw [Bool.or_eq_true, beq_iff_eq, decide_eq_true_iff, not_or] at hlow
    have hsign : (if decide (exponent < 0) = true then -(exponent.natAbs : ℤ) else exponent.natAbs)
        = exponent := by
      split_ifs with h <;> rw [decide_eq_true_iff] at h <;> omega
    have hdigits := length_toString_le digits
    have h := isRounded_ofScientific hpos (decide (exponent < 0)) (k := exponent.natAbs)
    rw [hsign] at h
    exact h (by omega) (by omega)

end Phototaxis.Number
