import Mathlib
import Phototaxis.Number.Remainder
import Phototaxis.Proofs.Number.Bits
import Phototaxis.Proofs.Number.Meaning
import Phototaxis.Proofs.Number.Shortest

/-!
# The remainder is exact, the wrap is rounded once

The remainder of two floats needs no more bits than they have. Both are written down in units
of the lesser of their exponents, so that one of the two mantissas is not shifted and keeps its
53 bits: if it is the divisor, the remainder is below it, and if it is the dividend, the
remainder is not above it. So nothing is rounded (`exists_remainder`).

The remainder has the sign of the dividend. Where it is below zero the modulus is added, and
that sum is rounded. So what comes out is the fraction of the modulus that is left over, rounded
once (`isRounded_euclideanRemainder`), and rounding may take it up to the modulus itself: a float
with an even mantissa is reached exactly from the middle between it and the float below
(`IsRounded.le_value`, `IsRounded.value_le`).
-/

namespace Phototaxis

open Number
open Float.Model.UnpackedFloat

namespace Number

variable {x y : Float} {r : ℚ} {m : ℕ} {e : ℤ} {s : Sign}

/-! ## Floats by sign and magnitude -/

/-- Whether a float is finite, with a given sign and magnitude. -/
structure IsExactly (s : Sign) (r : ℚ) (x : Float) : Prop where
  isFinite : x.isFinite
  signed : Signed s (unpacked x)
  value_eq : value x = factor s * r

theorem isExactly_of_zero (hx : unpacked x = .zero s) : IsExactly s 0 x := by
  refine ⟨isFinite_iff.mpr (.inl ⟨s, hx⟩), hx ▸ .zero, ?_⟩
  rw [value, hx, exact, mul_zero]

theorem isExactly_of_finite {hm : 0 < m} (hx : unpacked x = .finite s m e hm) :
    IsExactly s (m * 2 ^ e) x := by
  refine ⟨isFinite_iff.mpr (.inr ⟨s, m, e, hm, hx⟩), hx ▸ .finite m e hm, ?_⟩
  rw [value, hx, exact]

/-- **A finite float is a signed dyadic fraction**, of no more than 53 bits and within the range of
exponents. -/
theorem exists_dyadic (hx : x.isFinite) : ∃ s m e, m < 2 ^ 53 ∧ -1074 ≤ e ∧ e ≤ 971 ∧
    Magnitude.of x = .finite (Magnitude.isNegative s) ⟨m, e⟩ ∧ IsExactly s (m * 2 ^ e) x := by
  rw [Magnitude.of_eq]
  rcases isFinite_cases hx with ⟨s, hu, -⟩ | ⟨s, m, e, hm, hu, hc, -⟩ <;> rw [hu]
  · refine ⟨s, 0, -1074, by norm_num, le_rfl, by norm_num, rfl, ?_⟩
    rw [Nat.cast_zero, zero_mul]
    exact isExactly_of_zero hu
  · exact ⟨s, m, e, hc.lt, hc.exponent_ge, hc.exponent_le, rfl, isExactly_of_finite hu⟩

/-! ## Dyadic fractions that are floats -/

/-- A mantissa that is moved to its last place is canonical. -/
theorem canonical_shiftLeft (hm : 0 < m) (he : lastPlace m e ≤ e) (he' : lastPlace m e ≤ 971) :
    Canonical (m <<< (e - lastPlace m e).toNat) (lastPlace m e) := by
  have hvalue := shiftLeft_mul_zpow m he
  have hlt : (m : ℚ) * 2 ^ e < 2 ^ 53 * 2 ^ lastPlace m e :=
    lt_of_lastPlace (mul_lt_mul_of_pos_right (lt_add_one _) (by positivity))
  rw [← hvalue] at hlt
  refine ⟨?_, le_max_right _ _, he', or_iff_not_imp_right.mpr fun hlast => ?_⟩
  · exact_mod_cast lt_of_mul_lt_mul_right hlt (by positivity)
  · have hle := le_of_lastPlace le_rfl hm.ne' hlast
    rw [← hvalue] at hle
    exact_mod_cast le_of_mul_le_mul_right hle (by positivity)

/-- The bits of a float, read as a number, tell mantissa and exponent. -/
theorem Canonical.eq_of_count {m' : ℕ} {e' : ℤ} (hc : Canonical m e) (hc' : Canonical m' e')
    (h : m + (e + 1074) * 2 ^ 52 = m' + (e' + 1074) * 2 ^ 52) : m = m' ∧ e = e' := by
  obtain ⟨hlt, hge, -, hnormal⟩ := hc
  obtain ⟨hlt', hge', -, hnormal'⟩ := hc'
  omega

end Number

namespace Dyadic

variable {m n bits : ℕ} {e q : ℤ}

/-- The float of a canonical fraction is made of the bits that count up to it. -/
theorem isExactly_ofBits (s : Sign) (hc : Canonical m e)
    (hbits : (bits : ℤ) = m + (e + 1074) * 2 ^ 52) :
    IsExactly s (m * 2 ^ e)
      (Float.ofBits (UInt64.ofNat ((if Magnitude.isNegative s then 1 <<< 63 else 0) + bits))) := by
  have hlt : bits < infinityBits := by
    obtain ⟨hlt, hge, hle, -⟩ := hc
    unfold infinityBits
    omega
  generalize hword : UInt64.ofNat ((if Magnitude.isNegative s then 1 <<< 63 else 0) + bits) = word
  have hnat : word.toNat = (if Magnitude.isNegative s then 2 ^ 63 else 0) + bits := by
    unfold infinityBits at hlt
    rw [← hword, UInt64.toNat_ofNat']
    cases s
    · exact Nat.mod_eq_of_lt (by simp [Magnitude.isNegative]; omega)
    · exact Nat.mod_eq_of_lt (by simp [Magnitude.isNegative]; omega)
  have hsign : decide (2 ^ 63 ≤ word.toNat) = Magnitude.isNegative s := by
    unfold infinityBits at hlt
    rw [hnat]
    cases s
    · exact decide_eq_true (by simp [Magnitude.isNegative])
    · exact decide_eq_false (by simp [Magnitude.isNegative]; omega)
  have hcount : word.toNat % 2 ^ 63 = bits := by
    unfold infinityBits at hlt
    rw [hnat]
    split_ifs <;> omega
  obtain ⟨m', e', hc', hcount', hmagnitude⟩ := magnitude_ofBits_signed (hcount ▸ hlt)
  rw [hcount, hbits] at hcount'
  obtain ⟨rfl, rfl⟩ := hc.eq_of_count hc' hcount'
  rw [hsign] at hmagnitude
  rcases unpacked_ofBits_of_magnitude hc hmagnitude with ⟨rfl, hu⟩ | ⟨hm, hu⟩
  · rw [Nat.cast_zero, zero_mul]
    exact isExactly_of_zero hu
  · exact isExactly_of_finite hu

/-- **A fraction of no more than 53 bits, within the range of exponents, is a float.** -/
theorem isExactly_toFloat (hm : m < 2 ^ 53) (he : -1074 ≤ e) (he' : e ≤ 971)
    (s : Sign) : IsExactly s (m * 2 ^ e) (toFloat ⟨m, e⟩ (Magnitude.isNegative s)) := by
  have hlog : m.log2 ≤ 52 := by
    rcases m.eq_zero_or_pos with rfl | hpos
    · rw [Nat.log2_zero]
      exact Nat.zero_le _
    · exact Nat.lt_succ_iff.mp ((Nat.log2_lt hpos.ne').mpr hm)
  have hplace : max (-1074) (e + m.log2 - 52) = lastPlace m e := by
    unfold lastPlace
    omega
  have hle : lastPlace m e ≤ e := by
    unfold lastPlace
    omega
  unfold toFloat
  dsimp only
  rw [hplace, show (lastPlace m e - e).toNat = 0 by omega, Nat.shiftRight_zero,
    show -(lastPlace m e - e) = e - lastPlace m e by omega]
  rcases m.eq_zero_or_pos with rfl | hpos
  · have hnone : (0 : ℕ) < leastNormal := by decide
    have hzero := @isExactly_ofBits 0 0 (-1074) s ⟨by norm_num, le_rfl, by norm_num, .inr rfl⟩
      (by norm_num)
    rw [Nat.zero_shiftLeft, if_pos hnone, Nat.cast_zero, zero_mul]
    rwa [Nat.cast_zero, zero_mul] at hzero
  · have hc := canonical_shiftLeft hpos hle (by omega)
    rw [← shiftLeft_mul_zpow m hle]
    refine isExactly_ofBits s hc ?_
    obtain ⟨hlt, hge, hle', hnormal⟩ := hc
    unfold leastNormal
    generalize m <<< (e - lastPlace m e).toNat = n at *
    generalize lastPlace m e = q at *
    split_ifs <;> omega

end Dyadic

namespace Number

variable {x y : Float} {r : ℚ} {m : ℕ} {e : ℤ} {s : Sign}

/-! ## The remainder -/

/-- **The remainder is exact.** It is what is left of the dividend once the divisor is taken away
as often as it fits, and it has the sign of the dividend. -/
theorem exists_remainder (hx : x.isFinite) (hy : y.isFinite) (hy0 : value y ≠ 0) :
    ∃ (s : Sign) (n : ℕ) (rest : ℚ), IsExactly s (n * |value y| + rest) x ∧
      IsExactly s rest (remainder x y) ∧ 0 ≤ rest ∧ rest < |value y| := by
  obtain ⟨s, m, e, hm, he, he', hmagnitude, hxv⟩ := exists_dyadic hx
  obtain ⟨t, m', e', hm', hle, hle', hmagnitude', hyv⟩ := exists_dyadic hy
  have habs : |value y| = m' * 2 ^ e' := by rw [hyv.value_eq, abs_signed]
  have hpos : 0 < m' := Nat.pos_of_ne_zero fun h0 => hy0 (by
    rw [hyv.value_eq, h0, Nat.cast_zero, zero_mul, mul_zero])
  have hdividend := shiftLeft_mul_zpow m (min_le_left e e')
  have hdivisor := shiftLeft_mul_zpow m' (min_le_right e e')
  have hremainder : remainder x y = Dyadic.toFloat ⟨(m <<< (e - min e e').toNat) %
      (m' <<< (e' - min e e').toNat), min e e'⟩ (Magnitude.isNegative s) := by
    unfold remainder
    rw [hmagnitude, hmagnitude']
    dsimp only
    rw [if_neg (by rw [beq_iff_eq]; exact hpos.ne')]
  -- the one of the two that keeps its bits bounds the remainder
  have hlt : (m <<< (e - min e e').toNat) % (m' <<< (e' - min e e').toNat) < 2 ^ 53 := by
    rcases le_total e e' with h | h
    · rw [min_eq_left h, Int.sub_self, Int.toNat_zero, Nat.shiftLeft_zero]
      exact (Nat.mod_le _ _).trans_lt hm
    · rw [min_eq_right h, Int.sub_self, Int.toNat_zero, Nat.shiftLeft_zero]
      exact (Nat.mod_lt _ hpos).trans hm'
  rw [habs, ← hdivisor, hremainder]
  rw [← hdividend] at hxv
  generalize hN : m <<< (e - min e e').toNat = dividend at hxv hlt ⊢
  generalize hD : m' <<< (e' - min e e').toNat = divisor at hlt ⊢
  have hdivisor_pos : 0 < divisor := by
    rw [← hD, Nat.shiftLeft_eq]
    positivity
  refine ⟨s, dividend / divisor, (dividend % divisor : ℕ) * 2 ^ min e e', ?_,
    Dyadic.isExactly_toFloat hlt (le_min he hle) ((min_le_left e e').trans he') s,
    by positivity, ?_⟩
  · have hsplit : (dividend : ℚ) = divisor * (dividend / divisor : ℕ)
        + (dividend % divisor : ℕ) := by
      exact_mod_cast (Nat.div_add_mod dividend divisor).symm
    convert hxv using 1
    rw [hsplit]
    ring
  · refine mul_lt_mul_of_pos_right ?_ (by positivity)
    exact_mod_cast Nat.mod_lt dividend hdivisor_pos

/-- What is left over of a number of moduli, as a fraction of the modulus. -/
theorem mul_fract_eq {a d rest : ℚ} {k : ℤ} (h : a = k * d + rest) (h0 : 0 ≤ rest)
    (hlt : rest < d) : d * Int.fract (a / d) = rest := by
  have hd : 0 < d := h0.trans_lt hlt
  have hfract : Int.fract (a / d) = rest / d := by
    rw [Int.fract_eq_iff]
    refine ⟨div_nonneg h0 hd.le, (div_lt_one hd).mpr hlt, k, ?_⟩
    rw [h, add_div, mul_div_cancel_right₀ _ hd.ne', add_sub_cancel_right]
  rw [hfract, mul_div_cancel₀ _ hd.ne']

/-- **A wrap is the fraction of the modulus that is left over, rounded once.** -/
theorem isRounded_euclideanRemainder (hx : x.isFinite) (hy : y.isFinite) (hpos : 0 < value y) :
    IsRounded (value y * Int.fract (value x / value y)) (euclideanRemainder x y) := by
  obtain ⟨s, n, rest, hxv, hr, h0, hlt⟩ := exists_remainder hx hy hpos.ne'
  rw [abs_of_pos hpos] at hxv hlt
  have hnegative : remainder x y < 0.0 ↔ value (remainder x y) < 0 :=
    lt_iff_value (isNaN_of_isFinite hr.isFinite) rfl
  have hself := isRounded_self hr.isFinite
  have hsum := isRounded_add hr.isFinite hy
  have hvalue := hxv.value_eq
  rw [hr.value_eq] at hnegative hself hsum
  unfold euclideanRemainder
  dsimp only
  cases s with
  | positive =>
    rw [factor, one_mul] at hvalue hnegative hself
    have hwhole : value x = (n : ℤ) * value y + rest := by
      rw [hvalue, Int.cast_natCast]
    rw [if_neg (by rw [hnegative]; exact not_lt.mpr h0), mul_fract_eq hwhole h0 hlt]
    exact hself
  | negative =>
    rw [factor, neg_one_mul] at hvalue hnegative hself hsum
    rcases h0.eq_or_lt with rfl | h0
    -- a whole number of moduli below zero leaves nothing
    · have hwhole : value x = (-n : ℤ) * value y + 0 := by
        rw [hvalue]
        push_cast
        ring
      rw [if_neg (by rw [hnegative, neg_zero]; exact lt_irrefl 0), mul_fract_eq hwhole le_rfl hpos]
      rwa [neg_zero] at hself
    · have hwhole : value x = (-n - 1 : ℤ) * value y + (-rest + value y) := by
        rw [hvalue]
        push_cast
        ring
      rw [if_pos (by rw [hnegative]; exact neg_lt_zero.mpr h0),
        mul_fract_eq hwhole (by linarith) (by linarith)]
      exact hsum

/-! ## Where rounding reaches a float -/

/-- **A float with an even mantissa is reached from the middle on**, the middle between it and the
float below. -/
theorem IsRounded.le_value (hx : IsRounded r x) (hc : Canonical m e) (heven : m % 2 = 0)
    (hm : 2 ^ 52 < m) (hr : (m - 1 / 2) * 2 ^ e ≤ r) : (m : ℚ) * 2 ^ e ≤ value x := by
  have hunit : (0 : ℚ) < 2 ^ e := by positivity
  have hfull : (2 : ℚ) ^ 52 + 1 ≤ m := by exact_mod_cast hm
  have hlt : (m : ℚ) < 2 ^ 53 := by exact_mod_cast hc.lt
  have hmiddle : RoundsTo ((m - 1 / 2) * 2 ^ e) (m * 2 ^ e) := by
    refine ⟨m, e, ⟨hc.exponent_ge, mul_lt_mul_of_pos_right (by linarith) hunit,
      .inr (mul_le_mul_of_nonneg_right (by linarith) hunit.le), ?_⟩, rfl⟩
    rw [mul_div_cancel_right₀ _ hunit.ne']
    exact (nearest_eq (by linarith) (by linarith) (by linarith) fun hodd => by omega).symm
  have h0 : 0 ≤ r := (mul_nonneg (by linarith) hunit.le).trans hr
  obtain ⟨v, hv⟩ := RoundsTo.exists_of_nonneg h0
  rw [hx.value_eq h0 hv]
  exact le_min (hmiddle.mono hv hr) hc.lt_overflow.le

/-- Before the middle, rounding stays at the float below. -/
theorem IsRounded.value_le (hx : IsRounded r x) (h0 : 0 ≤ r) (hc : Canonical m e)
    (hm : 2 ^ 52 < m) (hr : r < (m - 1 / 2) * 2 ^ e) : value x ≤ (m - 1) * 2 ^ e := by
  obtain ⟨k, rfl⟩ : ∃ k, m = k + 1 := Nat.exists_eq_add_one_of_ne_zero (by omega)
  have hunit : (0 : ℚ) < 2 ^ e := by positivity
  have hfull : (2 : ℚ) ^ 52 ≤ k := by exact_mod_cast Nat.le_of_lt_succ hm
  have hlt : (k : ℚ) + 1 < 2 ^ 53 := by exact_mod_cast hc.lt
  rw [Nat.cast_add_one] at hr ⊢
  rw [add_sub_cancel_right]
  have hbelow : RoundsTo (max r (k * 2 ^ e)) (k * 2 ^ e) := by
    have hle : (k : ℚ) * 2 ^ e ≤ max r (k * 2 ^ e) := le_max_right _ _
    have hhalf : max r (k * 2 ^ e) < (k + 1 / 2) * 2 ^ e :=
      max_lt (by linarith) (mul_lt_mul_of_pos_right (by linarith) hunit)
    refine ⟨k, e, ⟨hc.exponent_ge, ?_, .inr ?_, ?_⟩, rfl⟩
    · exact hhalf.trans (mul_lt_mul_of_pos_right (by linarith) hunit)
    · exact (mul_le_mul_of_nonneg_right hfull hunit.le).trans hle
    · rw [← le_div_iff₀ hunit] at hle
      rw [← div_lt_iff₀ hunit] at hhalf
      exact (nearest_eq (by linarith) hhalf.le (by linarith) fun _ => ⟨by linarith, hhalf⟩).symm
  obtain ⟨v, hv⟩ := RoundsTo.exists_of_nonneg h0
  rw [hx.value_eq h0 hv]
  exact (min_le_left _ _).trans (hv.mono hbelow (le_max_left _ _))

end Number

end Phototaxis
