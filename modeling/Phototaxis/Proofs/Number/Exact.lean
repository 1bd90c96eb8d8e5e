import Mathlib
import Phototaxis.Proofs.Number.Rounding

/-!
# Operations as rounded exact results

The sum, the product and the quotient of two finite floats are what the exact result is
rounded to (`isRounded_add`, `isRounded_mul`, `isRounded_div`), and so is their difference,
being the sum with a negation, which is exact. Rounding commutes with negation
(`IsRounded.neg`). Since rounding is monotone and comparing floats is comparing values, an
inequality between exact results becomes one between floats (`IsRounded.le`).
-/

namespace Phototaxis.Number

open Float.Model (Format UnpackedFloat totalExponent)
open Float.Model.UnpackedFloat

/-- The exact value of a float. -/
def value (x : Float) : ℚ := exact (unpacked x)

/-- Whether a float is what a number is rounded to. -/
structure IsRounded (r : ℚ) (x : Float) : Prop where
  isNaN : x.isNaN = false
  exists_rounds : ∃ k q, Rounds |r| k q ∧
    value x = (if r < 0 then -1 else 1) * min ((k : ℚ) * 2 ^ q) overflow

variable {x y z : Float} {r : ℚ} {m : ℕ} {e : ℤ} {a : Accuracy} {s t : Sign}

/-! ## Signs and magnitudes -/

theorem abs_factor (s : Sign) : |factor s| = 1 := by
  cases s <;> simp [factor]

theorem factor_mul (s t : Sign) : factor (s * t) = factor s * factor t := by
  cases s <;> cases t <;> simp [factor]

theorem factor_div (s t : Sign) : factor (s / t) = factor s * factor t := by
  cases s <;> cases t <;> simp [factor] <;> rfl

theorem factor_neg (s : Sign) : factor (-s) = -factor s := by
  cases s <;> rfl

theorem abs_signed (s : Sign) (m : ℕ) (e : ℤ) :
    |factor s * ((m : ℚ) * 2 ^ e)| = m * 2 ^ e := by
  rw [abs_mul, abs_factor, one_mul, abs_of_nonneg (by positivity)]

theorem apply_eq (s : Sign) (n : ℤ) : ((s.apply n : ℤ) : ℚ) = factor s * n := by
  cases s <;> simp [factor, Sign.apply]

/-! ## Results that are rounded -/

/-- A sign beside the magnitude is the sign of the number, unless the number is zero. -/
theorem factor_mul_eq (hr : r = factor s * |r|) {v : ℚ} (hv : r = 0 → v = 0) :
    factor s * v = (if r < 0 then -1 else 1) * v := by
  rcases eq_or_ne r 0 with h0 | h0
  · rw [hv h0, mul_zero, mul_zero]
  · have hpos := abs_pos.mpr h0
    cases s with
    | negative =>
      rw [if_pos (by rw [hr]; simpa [factor] using h0)]
      rfl
    | positive =>
      rw [if_neg (by rw [hr]; simp [factor])]
      rfl

theorem Rounds.eq_zero {k : ℕ} {q : ℤ} (h : Rounds 0 k q) : k = 0 := by
  rw [h.eq_nearest, zero_div]
  exact nearest_natCast 0

/-- Leading bits that stand for a number are rounded to it. -/
theorem isRounded_of_stands (hz : unpacked z = repacked (roundWithAccuracy .binary64 s m e a))
    (hr : r = factor s * |r|) (h : Stands m a (|r| / 2 ^ e)) (he : e ≤ lastPlace m e) :
    IsRounded r z := by
  obtain ⟨k, q, hrounds, hexact⟩ := exact_repacked_roundWithAccuracy s h he
  refine ⟨isNaN_of_signed hz (signed_roundWithAccuracy ..), k, q, hrounds, ?_⟩
  rw [value, hz, hexact]
  refine factor_mul_eq hr (fun h0 => ?_)
  rw [h0, abs_zero] at hrounds
  rw [hrounds.eq_zero, Nat.cast_zero, zero_mul, min_eq_left overflow_pos.le]

/-- What fits the format is rounded to itself. -/
theorem isRounded_of_canonical {h : 0 < m} (hz : unpacked z = repacked (.finite s m e h))
    (hc : Canonical m e) : IsRounded (factor s * (m * 2 ^ e)) z := by
  have habs := abs_signed s m e
  refine ⟨isNaN_of_signed hz (.finite ..), m, e, ?_, ?_⟩
  · rw [habs]
    exact .self hc
  · rw [value, hz, exact_repacked_finite hc.lt hc.exponent_ge hc.normal]
    refine factor_mul_eq (by rw [habs]) (fun h0 => ?_)
    rw [← abs_eq_zero, habs] at h0
    rw [h0, min_eq_left overflow_pos.le]

theorem isRounded_of_zero (hz : unpacked z = repacked (.zero s)) : IsRounded 0 z := by
  refine ⟨isNaN_of_signed hz .zero, 0, -1074, ?_, ?_⟩
  · rw [abs_zero]
    exact .zero
  · have hvalue : value z = 0 := by
      rw [value, hz]
      cases s <;> rfl
    rw [hvalue, if_neg (lt_irrefl 0), Nat.cast_zero, zero_mul, min_eq_left overflow_pos.le,
      mul_zero]

/-! ## Finite floats and their negations -/

theorem isFinite_cases (h : x.isFinite) : (∃ s, unpacked x = .zero s ∧ value x = 0) ∨
    ∃ s m e hm, unpacked x = .finite s m e hm ∧ Canonical m e ∧
      value x = factor s * (m * 2 ^ e) := by
  rcases isFinite_iff.mp h with ⟨s, hx⟩ | ⟨s, m, e, hm, hx⟩
  · exact .inl ⟨s, hx, by rw [value, hx, exact]⟩
  · exact .inr ⟨s, m, e, hm, hx, canonical_of_unpacked hx, by rw [value, hx, exact]⟩

/-- A finite float is rounded to itself. -/
theorem isRounded_self (hx : x.isFinite) : IsRounded (value x) x := by
  rcases isFinite_cases hx with ⟨s, -, hv⟩ | ⟨s, m, e, hm, -, hc, hv⟩
  · refine ⟨isNaN_of_isFinite hx, 0, -1074, ?_, ?_⟩
    · rw [hv, abs_zero]
      exact .zero
    · rw [hv, Nat.cast_zero, zero_mul, min_eq_left overflow_pos.le, mul_zero]
  · refine ⟨isNaN_of_isFinite hx, m, e, ?_, ?_⟩
    · rw [hv, abs_signed]
      exact .self hc
    · rw [hv, min_eq_left hc.lt_overflow.le]
      refine factor_mul_eq (by rw [abs_signed]) (fun h0 => ?_)
      rwa [← abs_eq_zero, abs_signed] at h0

/-- Nothing is lost in packing a negation. -/
theorem unpacked_neg (x : Float) : unpacked (-x) = (unpacked x).neg := by
  have hz : unpacked (-x) = repacked (unpacked x).neg := rfl
  rw [hz]
  cases hx : unpacked x with
  | notANumber => rfl
  | infinity s => exact repacked_infinity (-s)
  | zero s => cases s <;> rfl
  | finite s m e hm => exact repacked_canonical (canonical_of_unpacked hx)

theorem isNaN_neg (x : Float) : (-x).isNaN = x.isNaN := by
  show (unpacked (-x)).isNaN = (unpacked x).isNaN
  rw [unpacked_neg]
  cases unpacked x <;> rfl

theorem isFinite_neg (x : Float) : (-x).isFinite = x.isFinite := by
  show (unpacked (-x)).isFinite = (unpacked x).isFinite
  rw [unpacked_neg]
  cases unpacked x <;> rfl

/-- **A negation is the exact one**, also of an overflow. -/
theorem value_neg (x : Float) : value (-x) = -value x := by
  have hfactor : ∀ (s : Sign) (v : ℚ), factor (-s) * v = -(factor s * v) := fun s v => by
    rw [factor_neg, neg_mul]
  rw [value, value, unpacked_neg]
  cases unpacked x with
  | notANumber => exact neg_zero.symm
  | infinity s => exact hfactor s _
  | zero s => exact neg_zero.symm
  | finite s m e hm => exact hfactor s _

/-- **Rounding commutes with negation**: ties, overflows and what is too small are the same on both
sides of zero. -/
theorem IsRounded.neg (h : IsRounded r x) : IsRounded (-r) (-x) := by
  obtain ⟨k, q, hk, hvalue⟩ := h.exists_rounds
  refine ⟨(isNaN_neg x).trans h.isNaN, k, q, by rwa [abs_neg], ?_⟩
  rw [value_neg, hvalue]
  rcases lt_trichotomy r 0 with hr | rfl | hr
  · rw [if_pos hr, if_neg (neg_pos.mpr hr).not_gt, neg_one_mul, neg_neg, one_mul]
  · -- the sign of nothing does not matter
    rw [abs_zero] at hk
    rw [hk.eq_zero, Nat.cast_zero, zero_mul, min_eq_left overflow_pos.le, mul_zero, mul_zero,
      neg_zero]
  · rw [if_neg hr.not_gt, if_pos (neg_lt_zero.mpr hr), neg_one_mul, one_mul]

/-! ## Products -/

/-- A product of mantissas has all bits that the format keeps. -/
theorem Canonical.mul_le_lastPlace {m' : ℕ} {e' : ℤ} (hc : Canonical m e) (hc' : Canonical m' e')
    (hm : 0 < m) (hm' : 0 < m') : e + e' ≤ lastPlace (m * m') (e + e') := by
  have hge := hc.exponent_ge
  have hge' := hc'.exponent_ge
  unfold lastPlace
  by_cases hfull : 2 ^ 52 ≤ m * m'
  · have hlog := (Nat.le_log2 (Nat.mul_pos hm hm').ne').mpr hfull
    omega
  -- neither mantissa is full, so both exponents are the least
  · have hlt : m < 2 ^ 52 := by
      by_contra hm52
      exact hfull ((Nat.not_lt.mp hm52).trans (Nat.le_mul_of_pos_right m hm'))
    have hlt' : m' < 2 ^ 52 := by
      by_contra hm52
      exact hfull ((Nat.not_lt.mp hm52).trans (Nat.le_mul_of_pos_left m' hm))
    have he := hc.normal.resolve_left (Nat.not_le.mpr hlt)
    have he' := hc'.normal.resolve_left (Nat.not_le.mpr hlt')
    omega

/-- Mantissas with enough bits are multiplied exactly, and rounded. -/
theorem isRounded_of_mul {m' : ℕ} {e' : ℤ} {hm : 0 < m} {hm' : 0 < m'} (hz : unpacked z
      = repacked (UnpackedFloat.mul .binary64 (.finite s m e hm) (.finite t m' e' hm')))
    (he : e + e' ≤ lastPlace (m * m') (e + e')) :
    IsRounded (factor s * (m * 2 ^ e) * (factor t * (m' * 2 ^ e'))) z := by
  have habs : |factor s * (m * 2 ^ e) * (factor t * (m' * 2 ^ e'))|
      = ((m * m' : ℕ) : ℚ) * 2 ^ (e + e') := by
    rw [abs_mul, abs_signed, abs_signed, zpow_add₀ two_ne_zero]
    push_cast
    ring
  refine isRounded_of_stands hz ?_ ?_ he
  · rw [habs, factor_mul, zpow_add₀ two_ne_zero]
    push_cast
    ring
  · rw [habs, mul_div_cancel_right₀ _ (by positivity)]
    rfl

/-- **A product is the exact product, rounded.** -/
theorem isRounded_mul (hx : x.isFinite) (hy : y.isFinite) :
    IsRounded (value x * value y) (x * y) := by
  have hz := unpacked_mul x y
  rcases isFinite_cases hx with ⟨s, hx, hvx⟩ | ⟨s, m, e, hm, hx, hc, hvx⟩ <;>
    rcases isFinite_cases hy with ⟨s', hy, hvy⟩ | ⟨s', m', e', hm', hy, hc', hvy⟩ <;>
    rw [hx, hy] at hz <;> rw [hvx, hvy]
  · rw [zero_mul]
    exact isRounded_of_zero hz
  · rw [zero_mul]
    exact isRounded_of_zero hz
  · rw [mul_zero]
    exact isRounded_of_zero hz
  · exact isRounded_of_mul hz (hc.mul_le_lastPlace hc' hm hm')

/-! ## Sums -/

/-- Moving a mantissa to a lesser exponent does not change the number. -/
theorem shiftLeft_mul_zpow (m : ℕ) {e q : ℤ} (h : q ≤ e) :
    ((m <<< (e - q).toNat : ℕ) : ℚ) * 2 ^ q = m * 2 ^ e := by
  obtain ⟨n, hn⟩ := Int.eq_ofNat_of_zero_le (Int.sub_nonneg.mpr h)
  rw [hn, Int.toNat_natCast, Nat.shiftLeft_eq]
  push_cast
  rw [mul_assoc, ← zpow_natCast, ← zpow_add₀ two_ne_zero]
  congr 2
  omega

theorem lastPlace_shift (hm : 0 < m) (e : ℤ) (n : ℕ) :
    lastPlace (m <<< n) (e - n) = lastPlace m e := by
  have hlog : (m <<< n).log2 = m.log2 + n := by
    rw [Nat.log2_eq_iff (by rw [Nat.shiftLeft_eq]; positivity), Nat.shiftLeft_eq]
    constructor
    · rw [Nat.pow_add]
      exact Nat.mul_le_mul_right _ (Nat.log2_self_le hm.ne')
    · rw [show m.log2 + n + 1 = m.log2 + 1 + n by omega, Nat.pow_add]
      exact Nat.mul_lt_mul_of_pos_right Nat.lt_log2_self (Nat.two_pow_pos n)
  unfold lastPlace
  rw [hlog]
  push_cast
  omega

/-- A number with few enough bits to be written down is rounded whatever its exponent. -/
theorem isRounded_of_round (hz : unpacked z = repacked (UnpackedFloat.round .binary64 s m e))
    (hm : 0 < m) (hr : r = factor s * (m * 2 ^ e)) : IsRounded r z := by
  have habs : |r| = m * 2 ^ e := by
    rw [hr, abs_signed]
  unfold UnpackedFloat.round at hz
  rw [targetExponent_eq] at hz
  simp only [decreaseExponent] at hz
  generalize hn : (e - lastPlace m e).toNat = n at hz
  refine isRounded_of_stands hz (by rw [habs, hr]) ?_ ?_
  · have hshift : ((m <<< n : ℕ) : ℚ) = m * 2 ^ e / 2 ^ (e - n) := by
      rw [eq_div_iff (by positivity), Nat.shiftLeft_eq, zpow_sub₀ two_ne_zero, zpow_natCast]
      push_cast
      field_simp
    rw [habs, ← hshift]
    rfl
  · rw [lastPlace_shift hm]
    omega

theorem isRounded_of_normalize {n : ℤ}
    (hz : unpacked z = repacked (UnpackedFloat.normalize .binary64 n e .positive)) :
    IsRounded (n * 2 ^ e) z := by
  unfold UnpackedFloat.normalize at hz
  split at hz <;> rename_i hn
  · have hneg := Int.compare_eq_lt.mp hn
    refine isRounded_of_round hz (by omega) ?_
    have hcast : (((-n).toNat : ℕ) : ℚ) = -n := by
      exact_mod_cast Int.toNat_of_nonneg (by omega : 0 ≤ -n)
    rw [hcast, factor]
    ring
  · rw [Int.compare_eq_eq.mp hn, Int.cast_zero, zero_mul]
    exact isRounded_of_zero hz
  · have hpos := Int.compare_eq_gt.mp hn
    refine isRounded_of_round hz (by omega) ?_
    have hcast : ((n.toNat : ℕ) : ℚ) = n := by
      exact_mod_cast Int.toNat_of_nonneg hpos.le
    rw [hcast, factor, one_mul]

/-- Mantissas at the lesser exponent are added exactly. -/
theorem apply_add_apply (s t : Sign) (m m' : ℕ) (e e' : ℤ) :
    ((s.apply ((m <<< (e - min e e').toNat : ℕ) : ℤ) +
        t.apply ((m' <<< (e' - min e e').toNat : ℕ) : ℤ) : ℤ) : ℚ) * 2 ^ min e e'
      = factor s * (m * 2 ^ e) + factor t * (m' * 2 ^ e') := by
  rw [Int.cast_add, add_mul, apply_eq, apply_eq, mul_assoc, mul_assoc, Int.cast_natCast,
    Int.cast_natCast, shiftLeft_mul_zpow m (min_le_left e e'),
    shiftLeft_mul_zpow m' (min_le_right e e')]

/-- **A sum is the exact sum, rounded.** -/
theorem isRounded_add (hx : x.isFinite) (hy : y.isFinite) :
    IsRounded (value x + value y) (x + y) := by
  have hz := unpacked_add x y
  rcases isFinite_cases hx with ⟨s, hx, hvx⟩ | ⟨s, m, e, hm, hx, hc, hvx⟩ <;>
    rcases isFinite_cases hy with ⟨s', hy, hvy⟩ | ⟨s', m', e', hm', hy, hc', hvy⟩ <;>
    rw [hx, hy] at hz <;> rw [hvx, hvy]
  · rw [add_zero]
    cases s <;> cases s' <;> exact isRounded_of_zero hz
  · rw [zero_add]
    exact isRounded_of_canonical hz hc'
  · rw [add_zero]
    exact isRounded_of_canonical hz hc
  · rw [← apply_add_apply]
    exact isRounded_of_normalize hz

/-! ## Differences -/

theorem unpacked_sub_eq (u v : UnpackedFloat) :
    UnpackedFloat.sub .binary64 u v = UnpackedFloat.add .binary64 u v.neg := by
  cases u with
  | notANumber => rfl
  | infinity s => cases v <;> rfl
  | zero s => cases v <;> rfl
  | finite s m e h =>
    cases v with
    | finite t m' e' h' =>
      have happly : ∀ n : ℤ, (-t).apply n = -t.apply n := fun n => by
        cases t
        · exact (neg_neg n).symm
        · rfl
      simp only [UnpackedFloat.sub, UnpackedFloat.add, UnpackedFloat.neg, happly,
        Int.sub_eq_add_neg]
    | _ => rfl

/-- **A difference is the sum with the negation.** -/
protected theorem sub_eq_add_neg (x y : Float) : x - y = x + -y := by
  have h : UnpackedFloat.sub .binary64 (unpacked x) (unpacked y)
      = UnpackedFloat.add .binary64 (unpacked x) (unpacked (-y)) := by
    rw [unpacked_neg, unpacked_sub_eq]
  exact congrArg (fun u => Float.ofModel (Float.Model.pack u)) h

theorem isRounded_sub (hx : x.isFinite) (hy : y.isFinite) :
    IsRounded (value x - value y) (x - y) := by
  rw [Number.sub_eq_add_neg, sub_eq_add_neg, ← value_neg]
  exact isRounded_add hx ((isFinite_neg y).trans hy)

/-! ## Quotients -/

/-- The leading bits of a quotient, with the note on the remainder, stand for the quotient. -/
theorem stands_of_fraction (n : ℕ) {d : ℕ} (hd : 0 < d) :
    Stands (n / d) (accuracyOfFraction (n % d) d) (n / d : ℚ) := by
  have hd' : (0 : ℚ) < d := by exact_mod_cast hd
  have hdivision : (n : ℚ) = d * (n / d : ℕ) + (n % d : ℕ) := by
    exact_mod_cast (Nat.div_add_mod n d).symm
  have hsplit : (n / d : ℚ) = (n / d : ℕ) + (n % d : ℕ) / d := by
    rw [hdivision]
    field_simp
  have hlt : ((n % d : ℕ) : ℚ) / d < 1 := by
    rw [div_lt_one hd']
    exact_mod_cast Nat.mod_lt n hd
  rw [hsplit]
  unfold accuracyOfFraction
  generalize n % d = rest at hlt ⊢
  split
  · rename_i hrest
    simp [Stands, hrest]
  · rename_i hrest
    have hpos : (0 : ℚ) < rest / d := by
      have hrest' : (0 : ℚ) < rest := by exact_mod_cast Nat.pos_of_ne_zero hrest
      positivity
    -- twice the remainder tells on which side of the middle the quotient lies
    cases hcompare : compare (2 * rest) d with
    | lt =>
      have htwice : (2 * rest : ℚ) < d := by exact_mod_cast Nat.compare_eq_lt.mp hcompare
      have hless : (rest : ℚ) / d < 1 / 2 := by
        rw [div_lt_iff₀ hd']
        linarith
      exact ⟨by linarith, by linarith⟩
    | eq =>
      have htwice : (2 * rest : ℚ) = d := by exact_mod_cast Nat.compare_eq_eq.mp hcompare
      have hhalf : (rest : ℚ) / d = 1 / 2 := by
        rw [div_eq_iff hd'.ne']
        linarith
      show _ = _
      rw [hhalf]
    | gt =>
      have htwice : (d : ℚ) < 2 * rest := by exact_mod_cast Nat.compare_eq_gt.mp hcompare
      have hmore : (1 : ℚ) / 2 < rest / d := by
        rw [lt_div_iff₀ hd']
        linarith
      exact ⟨by linarith, by linarith⟩

/-- The leading bits of a quotient are as many as the format keeps. -/
theorem div_le_lastPlace {m' : ℕ} (hm : 0 < m) (hm' : 0 < m') {d t : ℤ} (hd : t ≤ d)
    (ht : t ≤ max (m.log2 + d - m'.log2 - 53 : ℤ) (-1074)) :
    t ≤ lastPlace ((m <<< (d - t).toNat) / m') t := by
  unfold lastPlace
  by_cases hlow : t ≤ -1074
  · omega
  obtain ⟨n, hn⟩ := Int.eq_ofNat_of_zero_le (Int.sub_nonneg.mpr hd)
  have hbits : m'.log2 + 1 + 52 ≤ m.log2 + n := by omega
  have hfull : 2 ^ 52 ≤ (m <<< n) / m' := by
    rw [Nat.le_div_iff_mul_le hm', Nat.shiftLeft_eq]
    calc 2 ^ 52 * m' ≤ 2 ^ 52 * 2 ^ (m'.log2 + 1) :=
          Nat.mul_le_mul_left _ Nat.lt_log2_self.le
      _ = 2 ^ (m'.log2 + 1 + 52) := by rw [← Nat.pow_add, Nat.add_comm 52]
      _ ≤ 2 ^ (m.log2 + n) := Nat.pow_le_pow_right (by decide) hbits
      _ = 2 ^ m.log2 * 2 ^ n := Nat.pow_add ..
      _ ≤ m * 2 ^ n := Nat.mul_le_mul_right _ (Nat.log2_self_le hm.ne')
  have hlog := (Nat.le_log2 (by omega)).mpr hfull
  rw [hn, Int.toNat_natCast]
  omega

/-- Mantissas of any length are divided exactly, and the quotient is rounded. -/
theorem isRounded_of_div {m' : ℕ} {e' : ℤ} {hm : 0 < m} {hm' : 0 < m'} (hz : unpacked z
      = repacked (UnpackedFloat.div .binary64 (.finite s m e hm) (.finite t m' e' hm'))) :
    IsRounded (factor s * (m * 2 ^ e) / (factor t * (m' * 2 ^ e'))) z := by
  simp only [UnpackedFloat.div, divCore] at hz
  generalize hp : min (e - e') (Format.binary64.targetExponent
    (totalExponent m e - totalExponent m' e')) = p at hz
  have hd : p ≤ e - e' := by omega
  have hm'' : (0 : ℚ) < m' := by exact_mod_cast hm'
  have habs : |factor s * (m * 2 ^ e) / (factor t * (m' * 2 ^ e'))|
      = m * 2 ^ e / (m' * 2 ^ e') := by
    rw [abs_div, abs_signed, abs_signed]
  refine isRounded_of_stands hz ?_ ?_ (div_le_lastPlace hm hm' hd ?_)
  · rw [habs, factor_div]
    cases t <;> simp only [factor] <;> field_simp
  · have hshift : m * 2 ^ e / (m' * 2 ^ e') / 2 ^ p
        = ((m <<< (e - e' - p).toNat : ℕ) : ℚ) / m' := by
      have hpow := shiftLeft_mul_zpow m hd
      rw [zpow_sub₀ two_ne_zero] at hpow
      field_simp
      field_simp at hpow
      linarith
    rw [habs, hshift]
    exact stands_of_fraction _ hm'
  · simp only [Format.targetExponent, totalExponent, Format.mantissaBits, Format.minExponent]
      at hp
    omega

/-- **A quotient is the exact quotient, rounded.** -/
theorem isRounded_div (hx : x.isFinite) (hy : y.isFinite) (h0 : value y ≠ 0) :
    IsRounded (value x / value y) (x / y) := by
  have hz := unpacked_div x y
  rcases isFinite_cases hy with ⟨s', hy, hvy⟩ | ⟨s', m', e', hm', hy, hc', hvy⟩
  · exact absurd hvy h0
  rcases isFinite_cases hx with ⟨s, hx, hvx⟩ | ⟨s, m, e, hm, hx, hc, hvx⟩ <;>
    rw [hx, hy] at hz <;> rw [hvx, hvy]
  · rw [zero_div]
    exact isRounded_of_zero hz
  · exact isRounded_of_div hz

/-- Divided by an overflow, everything finite vanishes. -/
theorem isRounded_div_overflow (hx : x.isFinite) (hy : y.isFinite = false)
    (hn : y.isNaN = false) : IsRounded 0 (x / y) := by
  have hz := unpacked_div x y
  obtain ⟨t, hy⟩ := (cases_of_overflow hy).resolve_left (ne_notANumber_iff.mpr hn)
  rcases isFinite_iff.mp hx with ⟨s, hx⟩ | ⟨s, m, e, hm, hx⟩ <;> rw [hx, hy] at hz <;>
    exact isRounded_of_zero hz

/-! ## The order of the values -/

theorem Canonical.lt_of_lex {m' : ℕ} {e' : ℤ} (hc : Canonical m e) (hc' : Canonical m' e')
    (h : e < e' ∨ e = e' ∧ m < m') : (m : ℚ) * 2 ^ e < m' * 2 ^ e' := by
  rcases h with hlt | ⟨rfl, hlt⟩
  · have hfull : 2 ^ 52 ≤ m' := hc'.normal.resolve_right (by have := hc.exponent_ge; omega)
    calc (m : ℚ) * 2 ^ e < 2 ^ 53 * 2 ^ e := by
          refine mul_lt_mul_of_pos_right ?_ (by positivity)
          exact_mod_cast hc.lt
      _ = 2 ^ 52 * 2 ^ (e + 1) := by
          rw [zpow_add_one₀ two_ne_zero]
          ring
      _ ≤ 2 ^ 52 * 2 ^ e' := by
          refine mul_le_mul_of_nonneg_left ?_ (by positivity)
          exact zpow_le_zpow_right₀ one_le_two hlt
      _ ≤ m' * 2 ^ e' := by
          refine mul_le_mul_of_nonneg_right ?_ (by positivity)
          exact_mod_cast hfull
  · refine mul_lt_mul_of_pos_right ?_ (by positivity)
    exact_mod_cast hlt

/-- A finite value is below the overflow. -/
theorem abs_value_lt (h : x.isFinite) : |value x| < overflow := by
  rcases isFinite_cases h with ⟨s, hx, hv⟩ | ⟨s, m, e, hm, hx, hc, hv⟩
  · rw [hv, abs_zero]
    exact overflow_pos
  · rw [hv, abs_signed]
    exact hc.lt_overflow

theorem mantissa_pos (hm : 0 < m) (e : ℤ) : (0 : ℚ) < m * 2 ^ e := by
  have hm' : (0 : ℚ) < m := by exact_mod_cast hm
  positivity

/-- The value of a given rank. -/
def ofRank (p : ℤ ×ₗ ℤ ×ₗ ℤ) : ℚ :=
  if (ofLex p).1 = 2 then overflow else if (ofLex p).1 = -2 then -overflow
  else (ofLex (ofLex p).2).2 * 2 ^ ((ofLex p).1 * (ofLex (ofLex p).2).1)

theorem exact_eq_ofRank {u : UnpackedFloat} (hu : u ≠ .notANumber) : exact u = ofRank (rank u) := by
  cases u with
  | notANumber => exact absurd rfl hu
  | infinity s => cases s <;> simp [exact, ofRank, rank, factor]
  | zero s => simp [exact, ofRank, rank]
  | finite s m e h => cases s <;> simp [exact, ofRank, rank, factor]

/-- Where the values of one kind of floats lie; the kinds are numbered as in the rank. -/
inductive Band : ℤ → ℚ → Prop
  | bottom : Band (-2) (-overflow)
  | below {r : ℚ} (hlo : -overflow < r) (hhi : r < 0) : Band (-1) r
  | zero : Band 0 0
  | above {r : ℚ} (hlo : 0 < r) (hhi : r < overflow) : Band 1 r
  | top : Band 2 overflow

theorem Band.lt {k k' : ℤ} {r' : ℚ} (h : Band k r) (h' : Band k' r') (hlt : k < k') : r < r' := by
  have hover := overflow_pos
  cases h <;> cases h' <;> first | omega | linarith

theorem band_value (hx : x.isNaN = false) : Band (ofLex (rank (unpacked x))).1 (value x) := by
  unfold value
  cases hu : unpacked x with
  | notANumber => exact absurd hu (ne_notANumber_iff.mpr hx)
  | infinity s =>
    cases s with
    | negative =>
      rw [exact, factor, neg_one_mul]
      exact .bottom
    | positive =>
      rw [exact, factor, one_mul]
      exact .top
  | zero s => exact .zero
  | finite s m e hm =>
    have hpos := mantissa_pos hm e
    have hlt := (canonical_of_unpacked hu).lt_overflow
    cases s with
    | negative =>
      rw [exact, factor, neg_one_mul]
      exact .below (neg_lt_neg hlt) (neg_lt_zero.mpr hpos)
    | positive =>
      rw [exact, factor, one_mul]
      exact .above hpos hlt

/-- Of one kind, only finite floats of one sign are told apart by the rest of the rank. -/
theorem finite_of_kind {u v : UnpackedFloat} (hkind : (ofLex (rank u)).1 = (ofLex (rank v)).1)
    (hrest : (ofLex (rank u)).2 < (ofLex (rank v)).2) :
    ∃ s m e hm m' e' hm', u = .finite s m e hm ∧ v = .finite s m' e' hm' := by
  rcases u with (_ | _) | _ | _ | ⟨_ | _, m, e, hm⟩ <;>
    rcases v with (_ | _) | _ | _ | ⟨_ | _, m', e', hm'⟩ <;>
      simp [rank] at hkind hrest ⊢
  all_goals exact ⟨hm, hm'⟩

/-- **Values are ordered as ranks are.** -/
theorem value_lt_of_rank (hx : x.isNaN = false) (hy : y.isNaN = false)
    (h : rank (unpacked x) < rank (unpacked y)) : value x < value y := by
  rcases Prod.Lex.lt_iff.mp h with hkind | ⟨hkind, hrest⟩
  · exact (band_value hx).lt (band_value hy) hkind
  · obtain ⟨s, m, e, hm, m', e', hm', hux, huy⟩ := finite_of_kind hkind hrest
    have hc := canonical_of_unpacked hux
    have hc' := canonical_of_unpacked huy
    rw [hux, huy] at hrest
    rw [value, value, hux, huy]
    cases s with
    | negative =>
      rw [exact, exact, factor, neg_one_mul, neg_one_mul, neg_lt_neg_iff]
      simp only [rank, ofLex_toLex, Prod.Lex.toLex_lt_toLex, neg_lt_neg_iff, neg_inj] at hrest
      exact hc'.lt_of_lex hc (by omega)
    | positive =>
      rw [exact, exact, factor, one_mul, one_mul]
      simp only [rank, ofLex_toLex, Prod.Lex.toLex_lt_toLex] at hrest
      exact hc.lt_of_lex hc' (by omega)

/-- **Comparing numbers is comparing values.** -/
theorem le_iff_value (hx : x.isNaN = false) (hy : y.isNaN = false) :
    x ≤ y ↔ value x ≤ value y := by
  rw [le_iff hx hy]
  constructor
  · intro h
    rcases h.lt_or_eq with hlt | heq
    · exact (value_lt_of_rank hx hy hlt).le
    · refine le_of_eq ?_
      rw [value, value, exact_eq_ofRank (ne_notANumber_iff.mpr hx),
        exact_eq_ofRank (ne_notANumber_iff.mpr hy), heq]
  · intro h
    by_contra hlt
    exact (value_lt_of_rank hy hx (not_le.mp hlt)).not_ge h

theorem lt_iff_value (hx : x.isNaN = false) (hy : y.isNaN = false) :
    x < y ↔ value x < value y := by
  rw [← not_le, ← le_iff_value hy hx]
  exact ⟨fun h hle => not_lt_of_le hle h, lt_of_not_le hy hx⟩

/-- **An inequality between exact results becomes one between floats.** -/
theorem IsRounded.le {r' : ℚ} (hx : IsRounded r x) (hy : IsRounded r' y) (h : r ≤ r') :
    x ≤ y := by
  rw [le_iff_value hx.isNaN hy.isNaN]
  obtain ⟨k, q, hk, hvx⟩ := hx.exists_rounds
  obtain ⟨l, p, hl, hvy⟩ := hy.exists_rounds
  have hover := overflow_pos
  have hkpos : 0 ≤ min ((k : ℚ) * 2 ^ q) overflow := le_min (by positivity) hover.le
  have hlpos : 0 ≤ min ((l : ℚ) * 2 ^ p) overflow := le_min (by positivity) hover.le
  rw [hvx, hvy]
  split_ifs with hr hr'
  -- below zero the order of the magnitudes is turned round
  · have hmag := min_le_min_right overflow
      (hl.mono hk (by rw [abs_of_neg hr, abs_of_neg hr']; exact neg_le_neg h))
    linarith
  · linarith
  · linarith
  · have hmag := min_le_min_right overflow
      (hk.mono hl (by rw [abs_of_nonneg (not_lt.mp hr), abs_of_nonneg (by linarith)]; exact h))
    linarith

protected theorem add_le_add_right (h : x ≤ y) (hx : x.isFinite) (hy : y.isFinite)
    (hz : z.isFinite) : x + z ≤ y + z := by
  refine (isRounded_add hx hz).le (isRounded_add hy hz) (add_le_add ?_ le_rfl)
  exact (le_iff_value (isNaN_of_isFinite hx) (isNaN_of_isFinite hy)).mp h

protected theorem sub_le_sub_right (h : x ≤ y) (hx : x.isFinite) (hy : y.isFinite)
    (hz : z.isFinite) : x - z ≤ y - z := by
  refine (isRounded_sub hx hz).le (isRounded_sub hy hz) (sub_le_sub_right ?_ _)
  exact (le_iff_value (isNaN_of_isFinite hx) (isNaN_of_isFinite hy)).mp h

end Phototaxis.Number
