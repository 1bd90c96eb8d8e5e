import Mathlib
import Phototaxis.Proofs.Number.Bounds

/-!
# The root of a square

A vector is divided by its length to get a direction, and the direction should not be
longer than one. So the length must not be less than a coordinate, although both the
square and the root are rounded. It is not (`le_sqrt_mul_self`): a square of a
float with the mantissa `m` loses at most half a unit in its last place when it is
rounded, which is less than `m` units of what the root is taken from, and what lies
above `m * (m - 1)` has its nearest root at `m` or beyond.
-/

namespace Phototaxis.Number

open Float.Model.UnpackedFloat

variable {x y : Float} {m n k : ℕ} {e q : ℤ} {s : Sign} {r : ℚ}

theorem sub_half_le_nearest (r : ℚ) : r - 1 / 2 ≤ nearest r := by
  have hlt := Nat.lt_floor_add_one r
  unfold nearest
  split_ifs <;> push_cast <;> linarith

/-- What lies above `m * (m - 1)` has its nearest root at `m` or beyond. -/
theorem le_nearestRoot (h : m * m < n + m) : m ≤ nearestRoot n := by
  have hlo : n.sqrt * n.sqrt ≤ n := Nat.sqrt_le n
  have hhi : n < (n.sqrt + 1) * (n.sqrt + 1) := Nat.lt_succ_sqrt n
  unfold nearestRoot
  generalize n.sqrt = root at hlo hhi ⊢
  by_contra hlt
  split at hlt
  · obtain ⟨d, rfl⟩ := Nat.exists_eq_add_of_le (Nat.succ_le_of_lt (Nat.lt_of_not_le hlt))
    have hnear : n ≤ root * root + root := by omega
    nlinarith
  · obtain ⟨d, rfl⟩ := Nat.exists_eq_add_of_le (Nat.succ_le_of_lt (Nat.lt_of_not_le hlt))
    nlinarith

theorem zpow_double (e : ℤ) : (2 : ℚ) ^ e * 2 ^ e = 2 ^ (2 * e) := by
  rw [← zpow_add₀ two_ne_zero, two_mul]

/-- The unit of a square is known up to one place. -/
theorem Rounds.exponent_of_square (h : Rounds (m * m * 2 ^ (2 * e)) k q) (hm : 2 ^ 52 ≤ m)
    (hm' : m < 2 ^ 53) (he : -500 ≤ e) : q = 2 * e + 52 ∨ q = 2 * e + 53 := by
  have hlo : (2 : ℚ) ^ 52 ≤ m := by exact_mod_cast hm
  have hhi : (m : ℚ) < 2 ^ 53 := by exact_mod_cast hm'
  have hB : (0 : ℚ) < 2 ^ (2 * e) := by positivity
  have hmin : 104 + 2 * e < 53 + q := by
    refine (zpow_lt_zpow_iff_right₀ (one_lt_two : (1 : ℚ) < 2)).mp ?_
    rw [zpow_add₀ two_ne_zero, zpow_add₀ two_ne_zero]
    refine lt_of_le_of_lt ?_ h.lt
    refine mul_le_mul_of_nonneg_right ?_ hB.le
    calc (2 : ℚ) ^ (104 : ℤ) = 2 ^ 52 * 2 ^ 52 := by norm_num
      _ ≤ m * m := mul_le_mul hlo hlo (by positivity) (by positivity)
  have hmax : 52 + q < 106 + 2 * e := by
    refine (zpow_lt_zpow_iff_right₀ (one_lt_two : (1 : ℚ) < 2)).mp ?_
    rw [zpow_add₀ two_ne_zero, zpow_add₀ two_ne_zero]
    refine lt_of_le_of_lt (h.normal.resolve_left (by omega)) ?_
    refine mul_lt_mul_of_pos_right ?_ hB
    calc (m : ℚ) * m < 2 ^ 53 * 2 ^ 53 := mul_lt_mul'' hhi hhi (by positivity) (by positivity)
      _ = 2 ^ (106 : ℤ) := by norm_num
  omega

/-- Half a unit of the square is less than the root, in units of what the root is taken from. -/
theorem Rounds.unit_of_square (h : Rounds (m * m * 2 ^ (2 * e)) k q) (hm : 2 ^ 52 ≤ m)
    (hm' : m < 2 ^ 53) (he : -500 ≤ e) :
    (2 : ℚ) ^ 52 * 2 ^ (2 * e) ≤ 2 ^ q ∧ (2 : ℚ) ^ q / 2 < m * 2 ^ (2 * e) := by
  have hB : (0 : ℚ) < 2 ^ (2 * e) := by positivity
  have hlo : (2 : ℚ) ^ 52 ≤ m := by exact_mod_cast hm
  rcases h.exponent_of_square hm hm' he with rfl | rfl
  · have hpow : (2 : ℚ) ^ (2 * e + 52) = 2 ^ 52 * 2 ^ (2 * e) := by
      rw [zpow_add₀ two_ne_zero, mul_comm]
      rfl
    rw [hpow]
    refine ⟨le_rfl, ?_⟩
    calc (2 : ℚ) ^ 52 * 2 ^ (2 * e) / 2 < 2 ^ 52 * 2 ^ (2 * e) := half_lt_self (by positivity)
      _ ≤ m * 2 ^ (2 * e) := mul_le_mul_of_nonneg_right hlo hB.le
  -- a square of full length is not that of the least full mantissa
  · have hpow : (2 : ℚ) ^ (2 * e + 53) = 2 ^ 53 * 2 ^ (2 * e) := by
      rw [zpow_add₀ two_ne_zero, mul_comm]
      rfl
    have hfull : (2 : ℚ) ^ 52 < m := by
      have hnormal := h.normal.resolve_left (by omega)
      rw [hpow, ← mul_assoc] at hnormal
      have hsquare := le_of_mul_le_mul_right hnormal hB
      by_contra hle
      have hm52 : (m : ℚ) ≤ 2 ^ 52 := not_lt.mp hle
      have hless := mul_le_mul hm52 hm52 (by positivity) (by positivity)
      norm_num at hsquare hless
      linarith
    rw [hpow]
    constructor
    · refine mul_le_mul_of_nonneg_right ?_ hB.le
      norm_num
    · calc (2 : ℚ) ^ 53 * 2 ^ (2 * e) / 2 = 2 ^ 52 * 2 ^ (2 * e) := by ring
        _ < (m : ℚ) * 2 ^ (2 * e) := mul_lt_mul_of_pos_right hfull hB

/-- **A rounded square loses less than its root.** -/
theorem Rounds.lt_of_square (h : Rounds (m * m * 2 ^ (2 * e)) k q) (hm : 2 ^ 52 ≤ m)
    (hm' : m < 2 ^ 53) (he : -500 ≤ e) :
    (m * m - m : ℚ) * 2 ^ (2 * e) < k * 2 ^ q ∧ (2 : ℚ) ^ 104 * 2 ^ (2 * e) ≤ k * 2 ^ q := by
  obtain ⟨hunit, hhalf⟩ := h.unit_of_square hm hm' he
  have hq := h.exponent_of_square hm hm' he
  have hk : (2 : ℚ) ^ 52 ≤ k := by exact_mod_cast h.ge_of_normal (by omega)
  have hloss : (m * m * 2 ^ (2 * e) : ℚ) - 2 ^ q / 2 ≤ k * 2 ^ q := by
    have hnear := sub_half_le_nearest ((m * m * 2 ^ (2 * e) : ℚ) / 2 ^ q)
    rw [← h.eq_nearest] at hnear
    have hpos : (0 : ℚ) < 2 ^ q := by positivity
    calc (m * m * 2 ^ (2 * e) : ℚ) - 2 ^ q / 2
        = (m * m * 2 ^ (2 * e) / 2 ^ q - 1 / 2) * 2 ^ q := by field_simp
      _ ≤ k * 2 ^ q := mul_le_mul_of_nonneg_right hnear hpos.le
  constructor
  · calc (m * m - m : ℚ) * 2 ^ (2 * e) = m * m * 2 ^ (2 * e) - m * 2 ^ (2 * e) := by ring
      _ < m * m * 2 ^ (2 * e) - 2 ^ q / 2 := by linarith
      _ ≤ k * 2 ^ q := hloss
  · calc (2 : ℚ) ^ 104 * 2 ^ (2 * e) = 2 ^ 52 * (2 ^ 52 * 2 ^ (2 * e)) := by ring
      _ ≤ (k : ℚ) * 2 ^ q := mul_le_mul hk hunit (by positivity) (by positivity)

/-- The value of a root that may be carried. -/
theorem exact_carried (root : ℕ) (q : ℤ) (h : 0 < root) (hle : root ≤ 2 ^ 53) :
    exact (carried root q h) = root * 2 ^ q := by
  unfold carried
  split
  · rw [exact, factor, one_mul]
  · obtain rfl : root = 2 ^ 53 := by omega
    rw [exact, factor, one_mul, zpow_add_one₀ two_ne_zero]
    push_cast
    ring

theorem Canonical.radicand_mul (hc : Canonical m e) (hm : 0 < m) :
    (radicand m e : ℚ) * 2 ^ (2 * rootExponent m e) = m * 2 ^ e := by
  obtain ⟨-, -, hle, -⟩ := hc.rootExponent_bounds hm
  obtain ⟨n, hn⟩ := Int.eq_ofNat_of_zero_le (Int.sub_nonneg.mpr hle)
  unfold radicand
  rw [hn, Int.toNat_natCast]
  push_cast
  rw [mul_assoc, ← zpow_natCast, ← zpow_add₀ two_ne_zero]
  congr 2
  omega

/-- The root of what lies above `m * (m - 1)` units of an even power is at least `m` units. -/
theorem le_nearestRoot_of_lt (hk : 0 < k) (hc : Canonical k q) (hm : m ≤ 2 ^ 53)
    (hless : (m * m - m : ℚ) * 2 ^ (2 * e) < k * 2 ^ q)
    (hfull : (2 : ℚ) ^ 104 * 2 ^ (2 * e) ≤ k * 2 ^ q) :
    (m : ℚ) * 2 ^ e ≤ nearestRoot (radicand k q) * 2 ^ rootExponent k q := by
  rw [← hc.radicand_mul hk] at hless hfull
  have hroot := (hc.root_bounds hk).1
  have hbits : (radicand k q : ℚ) < 2 ^ 106 := by exact_mod_cast (hc.radicand_bounds hk).2
  generalize rootExponent k q = p at hless hfull ⊢
  generalize radicand k q = n at hless hfull hroot hbits ⊢
  have hexp : 104 + 2 * e < 106 + 2 * p := by
    refine (zpow_lt_zpow_iff_right₀ (one_lt_two : (1 : ℚ) < 2)).mp ?_
    rw [zpow_add₀ two_ne_zero, zpow_add₀ two_ne_zero]
    exact hfull.trans_lt (mul_lt_mul_of_pos_right hbits (by positivity))
  rcases (show e ≤ p by omega).lt_or_eq with hlt | rfl
  · calc (m : ℚ) * 2 ^ e ≤ 2 ^ 53 * 2 ^ e := by
          refine mul_le_mul_of_nonneg_right ?_ (by positivity)
          exact_mod_cast hm
      _ = 2 ^ 52 * 2 ^ (e + 1) := by
          rw [zpow_add_one₀ two_ne_zero]
          ring
      _ ≤ nearestRoot n * 2 ^ p := by
          refine mul_le_mul ?_ (zpow_le_zpow_right₀ one_le_two hlt) (by positivity) (by positivity)
          exact_mod_cast hroot
  · refine mul_le_mul_of_nonneg_right ?_ (by positivity)
    have habove := lt_of_mul_lt_mul_right hless (by positivity)
    have hnat : m * m < n + m := by
      rw [sub_lt_iff_lt_add] at habove
      exact_mod_cast habove
    exact_mod_cast le_nearestRoot hnat

/-- **The root of a square is not less than the float**, unless the square is among the least
floats. -/
theorem le_sqrt_mul_self {hm : 0 < m} (hx : unpacked x = .finite s m e hm) (hfull : 2 ^ 52 ≤ m)
    (he : -500 ≤ e) (hxx : (x * x).isFinite) : |value x| ≤ value (x * x).sqrt := by
  have hc := canonical_of_unpacked hx
  have hxf : x.isFinite := isFinite_iff.mpr (.inr ⟨s, m, e, hm, hx⟩)
  have hvx : |value x| = m * 2 ^ e := by rw [value, hx, exact, abs_signed]
  have hexact : value x * value x = m * m * 2 ^ (2 * e) := by
    rw [← abs_mul_abs_self, hvx, ← zpow_double]
    ring
  -- the square, as a rounded number
  obtain ⟨k, q, hrounds, hsquare⟩ := (isRounded_mul hxf hxf).exists_rounds
  rw [if_neg (not_lt.mpr (mul_self_nonneg _)), one_mul] at hsquare
  rw [abs_of_nonneg (mul_self_nonneg _), hexact] at hrounds
  obtain ⟨hless, hlarge⟩ := hrounds.lt_of_square hfull hc.lt he
  have hvalue : value (x * x) = k * 2 ^ q := by
    rcases min_choice ((k : ℚ) * 2 ^ q) overflow with hmin | hmin
    · rw [hsquare, hmin]
    · have hlt := abs_value_lt hxx
      rw [hsquare, hmin, abs_of_pos overflow_pos] at hlt
      exact absurd hlt (lt_irrefl _)
  rw [← hvalue] at hless hlarge
  -- and as a float
  have hpos : 0 < value (x * x) :=
    (show (0 : ℚ) < 2 ^ 104 * 2 ^ (2 * e) by positivity).trans_le hlarge
  rcases isFinite_cases hxx with ⟨t, -, hv⟩ | ⟨t, k', q', hk', hu, hc', hv⟩
  · rw [hv] at hpos
    exact absurd hpos (lt_irrefl _)
  · cases t with
    | negative =>
      have hmant := mantissa_pos hk' q'
      rw [hv, factor] at hpos
      linarith
    | positive =>
      rw [factor, one_mul] at hv
      rw [hv] at hless hlarge
      rw [hvx, value, unpacked_sqrt_finite hu, exact_carried _ _ _ (hc'.root_bounds hk').2]
      exact le_nearestRoot_of_lt hk' hc' hc.lt.le hless hlarge

theorem value_tenth : (2 : ℚ) ^ (-10 : ℤ) < value 0.1 := by
  decide +kernel

/-- A float that is not small has a full mantissa. -/
theorem exists_full (hx : x.isFinite) (hlarge : value 0.1 < |value x|) :
    ∃ s m e, ∃ hm : 0 < m, unpacked x = .finite s m e hm ∧ 2 ^ 52 ≤ m ∧ -500 ≤ e := by
  have htenth := value_tenth
  rcases isFinite_cases hx with ⟨s, -, hv⟩ | ⟨s, m, e, hm, hu, hc, hv⟩
  · have hpos : (0 : ℚ) < 2 ^ (-10 : ℤ) := by positivity
    rw [hv, abs_zero] at hlarge
    linarith
  · rw [hv, abs_signed] at hlarge
    have hexp : -10 < 53 + e := by
      refine (zpow_lt_zpow_iff_right₀ (one_lt_two : (1 : ℚ) < 2)).mp ?_
      rw [zpow_add₀ two_ne_zero]
      refine (htenth.trans hlarge).trans (mul_lt_mul_of_pos_right ?_ (by positivity))
      exact_mod_cast hc.lt
    exact ⟨s, m, e, hm, hu, hc.normal.resolve_right (by omega), by omega⟩

/-- **A coordinate that is not small is not longer than the vector.** -/
theorem le_sqrt_add (hx : x.isFinite) (hsum : Signed .positive (unpacked (x * x + y * y)))
    (hlarge : value 0.1 < |value x|) : |value x| ≤ value (x * x + y * y).sqrt := by
  cases hfinite : (x * x + y * y).isFinite with
  | true =>
    obtain ⟨hxx, hyy⟩ := isFinite_of_imp isFinite_add hfinite
    obtain ⟨s, m, e, hm, hu, hfull, he⟩ := exists_full hx hlarge
    have hroot := sqrt_le_sqrt (nonneg_mul_self hx)
      (mul_self_le_sum hxx hyy (isRounded_add hxx hyy))
    obtain ⟨hn, hn'⟩ := isNaN_eq_false_of_le hroot
    exact (le_sqrt_mul_self hu hfull he hxx).trans ((le_iff_value hn hn').mp hroot)
  | false =>
    -- a square that overflows has a root that does
    obtain ⟨s, hu⟩ := (cases_of_overflow hfinite).resolve_left hsum.ne_notANumber
    rw [hu] at hsum
    cases hsum
    have hroot : value (x * x + y * y).sqrt = overflow := by
      rw [value, unpacked_sqrt_infinity hu, exact, factor, one_mul]
    rw [hroot]
    exact (abs_value_lt hx).le

end Phototaxis.Number
