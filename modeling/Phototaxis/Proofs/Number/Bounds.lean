import Mathlib
import Phototaxis.Proofs.Number.Exact

/-!
# Bounds that operations keep

Whether a computation can overflow is settled by bounds: if the operands are within
certain floats on both sides, the result is within what the operation makes of these
floats (`Within.add`, `Within.mul`, `Within.div`). The bounds are computed with the same
rounded operations as everything else, so a bound on a whole expression is the value of
that expression at the bounds, and needs only be looked at.

This also bounds sums of any length. A sum of small floats that has grown large enough
does not grow any further: what is added is rounded away. So the large bound plus the
small one is the large bound again.
-/

namespace Phototaxis.Number

open Float.Model (Format UnpackedFloat)
open Float.Model.UnpackedFloat

variable {a b x y z : Float} {r r' : ℚ}

/-- **Rounding keeps the order of magnitudes.** -/
theorem IsRounded.abs_le_abs (hx : IsRounded r x) (hy : IsRounded r' y) (h : |r| ≤ |r'|) :
    |value x| ≤ |value y| := by
  have habs : ∀ {r z}, IsRounded r z →
      ∃ k q, Rounds |r| k q ∧ |value z| = min ((k : ℚ) * 2 ^ q) overflow := by
    intro r z hz
    obtain ⟨k, q, hk, hv⟩ := hz.exists_rounds
    have hpos : 0 ≤ min ((k : ℚ) * 2 ^ q) overflow := le_min (by positivity) overflow_pos.le
    refine ⟨k, q, hk, ?_⟩
    rw [hv, abs_mul, abs_of_nonneg hpos]
    split_ifs <;> simp
  obtain ⟨k, q, hk, hvx⟩ := habs hx
  obtain ⟨l, p, hl, hvy⟩ := habs hy
  rw [hvx, hvy]
  exact min_le_min_right overflow (hk.mono hl h)

theorem isFinite_of_abs_value_lt (hx : x.isNaN = false) (h : |value x| < overflow) :
    x.isFinite := by
  rw [isFinite_iff]
  cases hu : unpacked x with
  | notANumber => exact absurd hu (ne_notANumber_iff.mpr hx)
  | infinity s =>
    rw [value, hu, exact, abs_mul, abs_factor, one_mul, abs_of_pos overflow_pos] at h
    exact absurd h (lt_irrefl _)
  | zero s => exact .inl ⟨s, rfl⟩
  | finite s m e hm => exact .inr ⟨s, m, e, hm, rfl⟩

theorem value_zero : value 0.0 = 0 := rfl

theorem value_one : value 1.0 = 1 := by
  decide +kernel

theorem value_nonneg (h : 0.0 ≤ x) : 0 ≤ value x := by
  obtain ⟨h0, hx⟩ := isNaN_eq_false_of_le h
  rw [← value_zero]
  exact (le_iff_value h0 hx).mp h

theorem value_pos (h : 0.0 < x) : 0 < value x := by
  obtain ⟨h0, hx⟩ := isNaN_eq_false_of_lt h
  rw [← value_zero]
  exact value_lt_of_rank h0 hx ((lt_iff h0 hx).mp h)

/-- What lies between finite floats is finite. -/
theorem isFinite_of_between (ha : a.isFinite) (hb : b.isFinite) (h : a ≤ x) (h' : x ≤ b) :
    x.isFinite := by
  obtain ⟨han, hx⟩ := isNaN_eq_false_of_le h
  refine isFinite_of_abs_value_lt hx (abs_lt.mpr ⟨?_, ?_⟩)
  · exact (abs_lt.mp (abs_value_lt ha)).1.trans_le ((le_iff_value han hx).mp h)
  · exact ((le_iff_value hx (isNaN_of_isFinite hb)).mp h').trans_lt
      (abs_lt.mp (abs_value_lt hb)).2

/-- A summand that is not negative makes no sum less. -/
theorem le_add_of_value_nonneg (hx : x.isFinite) (hy : y.isFinite) (h : 0 ≤ value y) : x ≤ y + x :=
  (isRounded_self hx).le (isRounded_add hy hx) (le_add_of_nonneg_left h)

theorem value_sub_nonneg (h : x ≤ y) (hx : x.isFinite) (hy : y.isFinite) :
    0 ≤ value (y - x) := by
  refine value_nonneg ((isRounded_self rfl).le (isRounded_sub hy hx) ?_)
  rw [value_zero, sub_nonneg]
  exact (le_iff_value (isNaN_of_isFinite hx) (isNaN_of_isFinite hy)).mp h

/-- Whether a float is finite, and within a bound on both sides. -/
structure Within (b x : Float) : Prop where
  isFinite : x.isFinite
  abs_le : |value x| ≤ value b

instance (b x : Float) : Decidable (Within b x) :=
  decidable_of_iff (x.isFinite ∧ |value x| ≤ value b) ⟨fun h => ⟨h.1, h.2⟩, fun h => ⟨h.1, h.2⟩⟩

namespace Within

theorem nonneg (h : Within b x) : 0 ≤ value b := (abs_nonneg _).trans h.abs_le

/-- What is rounded from less is within what is rounded from more. -/
theorem of_isRounded (hx : IsRounded r x) (hb : IsRounded r' b) (h : |r| ≤ r')
    (hfinite : b.isFinite) : Within b x := by
  have hr' : 0 ≤ r' := (abs_nonneg r).trans h
  have hb' : 0 ≤ value b := by
    obtain ⟨k, q, -, hv⟩ := hb.exists_rounds
    rw [hv, if_neg (not_lt.mpr hr'), one_mul]
    exact le_min (by positivity) overflow_pos.le
  have hle : |value x| ≤ value b :=
    (hx.abs_le_abs hb (h.trans_eq (abs_of_nonneg hr').symm)).trans_eq (abs_of_nonneg hb')
  refine ⟨isFinite_of_abs_value_lt hx.isNaN (hle.trans_lt ?_), hle⟩
  exact (le_abs_self _).trans_lt (abs_value_lt hfinite)

theorem mono (h : Within a x) (hab : a ≤ b) : Within b x := by
  obtain ⟨ha, hb⟩ := isNaN_eq_false_of_le hab
  exact ⟨h.isFinite, h.abs_le.trans ((le_iff_value ha hb).mp hab)⟩

/-- What is not below zero is within its upper bounds. -/
theorem of_nonneg (h0 : 0.0 ≤ x) (h : x ≤ b) (hb : b.isFinite) : Within b x := by
  obtain ⟨hx, hb'⟩ := isNaN_eq_false_of_le h
  refine ⟨isFinite_of_le h0 h hb, ?_⟩
  rw [abs_of_nonneg (value_nonneg h0)]
  exact (le_iff_value hx hb').mp h

theorem zero (h0 : 0.0 ≤ b) (hb : b.isFinite) : Within b 0.0 :=
  .of_nonneg (Number.le_refl rfl) h0 hb

/-- A bound is within itself. -/
theorem self (h0 : 0.0 ≤ b) (hb : b.isFinite) : Within b b :=
  .of_nonneg h0 (Number.le_refl (isNaN_of_isFinite hb)) hb

theorem add (hx : Within a x) (hy : Within b y) (h : (a + b).isFinite) :
    Within (a + b) (x + y) := by
  obtain ⟨ha, hb⟩ := isFinite_of_imp isFinite_add h
  refine of_isRounded (isRounded_add hx.isFinite hy.isFinite) (isRounded_add ha hb) ?_ h
  exact (abs_add_le _ _).trans (add_le_add hx.abs_le hy.abs_le)

theorem mul (hx : Within a x) (hy : Within b y) (h : (a * b).isFinite) :
    Within (a * b) (x * y) := by
  obtain ⟨ha, hb⟩ := isFinite_of_imp isFinite_mul h
  refine of_isRounded (isRounded_mul hx.isFinite hy.isFinite) (isRounded_mul ha hb) ?_ h
  rw [abs_mul]
  exact mul_le_mul hx.abs_le hy.abs_le (abs_nonneg _) hx.nonneg

/-- A quotient is the greater, the less it is divided by; divided by an overflow it vanishes. -/
theorem div (hx : Within a x) (ha : a.isFinite) (hb : 0.0 < b) (hby : b ≤ y)
    (h : (a / b).isFinite) (hbf : b.isFinite) : Within (a / b) (x / y) := by
  obtain ⟨hbn, hyn⟩ := isNaN_eq_false_of_le hby
  have hbpos := value_pos hb
  have hle := (le_iff_value hbn hyn).mp hby
  have hquotient := isRounded_div ha hbf hbpos.ne'
  cases hy : y.isFinite with
  | true =>
    refine of_isRounded (isRounded_div hx.isFinite hy (hbpos.trans_le hle).ne') hquotient ?_ h
    rw [abs_div, abs_of_pos (hbpos.trans_le hle)]
    exact div_le_div₀ hx.nonneg hx.abs_le hbpos hle
  | false =>
    refine of_isRounded (r := 0) (isRounded_div_overflow hx.isFinite hy hyn) hquotient ?_ h
    rw [abs_zero]
    exact div_nonneg hx.nonneg hbpos.le

/-- A quotient by what is not less is at most one. -/
theorem div_of_le (hx : x.isFinite) (hy : 0.0 < y) (hle : |value x| ≤ value y) :
    Within 1.0 (x / y) := by
  have hpos := value_pos hy
  have hquotient := isRounded_self (x := 1.0) rfl
  cases hfinite : y.isFinite with
  | true =>
    refine of_isRounded (isRounded_div hx hfinite hpos.ne') hquotient ?_ rfl
    rw [value_one, abs_div, abs_of_pos hpos]
    exact (div_le_one hpos).mpr hle
  | false =>
    have hvanished := isRounded_div_overflow hx hfinite (isNaN_eq_false_of_lt hy).2
    refine of_isRounded hvanished hquotient ?_ rfl
    rw [value_one, abs_zero]
    exact zero_le_one

theorem neg (hx : Within b x) (hb : b.isFinite) : Within b (-x) := by
  refine of_isRounded (isRounded_self hx.isFinite).neg (isRounded_self hb) ?_ hb
  rw [abs_neg]
  exact hx.abs_le

theorem sub (hx : Within a x) (hy : Within b y) (h : (a + b).isFinite) :
    Within (a + b) (x - y) := by
  rw [Number.sub_eq_add_neg]
  exact hx.add (hy.neg (isFinite_of_imp isFinite_add h).2) h

/-- What lies between a bound and its negation is within the bound. -/
theorem of_le (hb : b.isFinite) (h0 : 0.0 ≤ b) (hlo : -b ≤ x) (hhi : x ≤ b) : Within b x := by
  obtain ⟨hneg, hx⟩ := isNaN_eq_false_of_le hlo
  have hhi' := (le_iff_value hx (isNaN_of_isFinite hb)).mp hhi
  have hlo' := (le_iff_value hneg hx).mp hlo
  have hnegation : |value (-b)| ≤ |value b| :=
    (isRounded_self hb).neg.abs_le_abs (isRounded_self hb) (abs_neg _).le
  rw [abs_of_nonneg (value_nonneg h0)] at hnegation
  have hle : |value x| ≤ value b :=
    abs_le'.mpr ⟨hhi', neg_le.mp ((neg_le_of_abs_le hnegation).trans hlo')⟩
  refine ⟨isFinite_of_abs_value_lt hx (hle.trans_lt ?_), hle⟩
  exact (le_abs_self _).trans_lt (abs_value_lt hb)

end Within

/-! ## Between two floats -/

/-- Whether a float is in a range, ends included. -/
structure Between (low high x : Float) : Prop where
  low_le : low ≤ x
  le_high : x ≤ high

/-- **What is rounded from between two floats is between them.** -/
theorem IsRounded.between (hx : IsRounded r x) (ha : a.isFinite) (hb : b.isFinite)
    (hlow : value a ≤ r) (hhigh : r ≤ value b) : Between a b x :=
  ⟨(isRounded_self ha).le hx hlow, hx.le (isRounded_self hb) hhigh⟩

theorem Between.isFinite (h : Between a b x) (ha : a.isFinite) (hb : b.isFinite) : x.isFinite :=
  isFinite_of_between ha hb h.low_le h.le_high

theorem Between.value_bounds (h : Between a b x) : value a ≤ value x ∧ value x ≤ value b := by
  obtain ⟨ha, hx⟩ := isNaN_eq_false_of_le h.low_le
  obtain ⟨-, hb⟩ := isNaN_eq_false_of_le h.le_high
  exact ⟨(le_iff_value ha hx).mp h.low_le, (le_iff_value hx hb).mp h.le_high⟩

/-! ## Not below zero -/

theorem unpacked_of_overflow (h0 : 0.0 ≤ x) (h : x.isFinite = false) :
    unpacked x = .infinity .positive := by
  rw [← Bool.not_eq_true, isFinite_iff, not_or] at h
  rcases cases_of_nonneg h0 with ⟨s, hx⟩ | ⟨m, e, hm, hx⟩ | hx
  · exact absurd ⟨s, hx⟩ h.1
  · exact absurd ⟨_, m, e, hm, hx⟩ h.2
  · exact hx

/-- A sum of floats that are not below zero is not either, overflows included. -/
theorem nonneg_add (hx : 0.0 ≤ x) (hy : 0.0 ≤ y) : 0.0 ≤ x + y := by
  have hinfinite : ∀ {z}, unpacked z = .infinity .positive → 0.0 ≤ z := fun hz =>
    nonneg_of_signed (hz ▸ .infinity)
  cases hxf : x.isFinite with
  | true =>
    cases hyf : y.isFinite with
    | true =>
      refine (isRounded_self rfl).le (isRounded_add hxf hyf) ?_
      rw [value_zero]
      exact add_nonneg (value_nonneg hx) (value_nonneg hy)
    | false =>
      exact hinfinite ((unpacked_add_overflow hxf hyf).trans (unpacked_of_overflow hy hyf))
  | false =>
    have hux := unpacked_of_overflow hx hxf
    refine hinfinite ?_
    cases hyf : y.isFinite with
    | true =>
      rw [Number.add_comm]
      exact (unpacked_add_overflow hyf hxf).trans hux
    | false =>
      rw [unpacked_add, hux, unpacked_of_overflow hy hyf]
      rfl

/-- So is a quotient by a finite float above zero. -/
theorem nonneg_div (hx : 0.0 ≤ x) (hy : 0.0 < y) (hyf : y.isFinite) : 0.0 ≤ x / y := by
  cases hxf : x.isFinite with
  | true =>
    refine (isRounded_self rfl).le (isRounded_div hxf hyf (value_pos hy).ne') ?_
    rw [value_zero]
    exact div_nonneg (value_nonneg hx) (value_pos hy).le
  | false =>
    have hy0 := value_pos hy
    refine nonneg_of_signed ?_
    rw [unpacked_div, unpacked_of_overflow hx hxf]
    rcases cases_of_nonneg (le_of_lt hy) with ⟨s, huy⟩ | ⟨m, e, hm, huy⟩ | huy
    · rw [value, huy] at hy0
      exact absurd hy0 (lt_irrefl 0)
    · rw [huy]
      exact Signed.infinity.repacked
    · change (unpacked y).isFinite = true at hyf
      rw [huy] at hyf
      cases hyf

/-! ## The greatest float -/

/-- The greatest finite float. -/
def greatest : Float := 1.7976931348623157e308

theorem value_greatest : value greatest = (2 ^ 53 - 1) * 2 ^ (971 : ℤ) := by
  decide +kernel

/-- Every finite float is within the greatest. -/
theorem within_greatest (h : x.isFinite) : Within greatest x := by
  refine ⟨h, ?_⟩
  rw [value_greatest]
  rcases isFinite_cases h with ⟨s, -, hv⟩ | ⟨s, m, e, hm, -, hc, hv⟩
  · rw [hv, abs_zero]
    positivity
  · rw [hv, abs_signed]
    have hmant : (m : ℚ) ≤ 2 ^ 53 - 1 := by
      rw [le_sub_iff_add_le]
      exact_mod_cast hc.lt
    exact mul_le_mul hmant (zpow_le_zpow_right₀ one_le_two hc.exponent_le) (by positivity)
      (by norm_num)

/-! ## Squares -/

theorem nonneg_mul_self (hx : x.isFinite) : 0.0 ≤ x * x := by
  refine (isRounded_self rfl).le (isRounded_mul hx hx) ?_
  rw [value_zero]
  exact mul_self_nonneg _

theorem mul_self_mono (h0 : 0.0 ≤ x) (h : x ≤ y) (hy : y.isFinite) : x * x ≤ y * y := by
  have hx := isFinite_of_le h0 h hy
  refine (isRounded_mul hx hx).le (isRounded_mul hy hy) ?_
  have hle := (le_iff_value (isNaN_of_isFinite hx) (isNaN_of_isFinite hy)).mp h
  exact mul_self_le_mul_self (value_nonneg h0) hle

theorem mul_self_le_sum {s : Float} (hxx : (x * x).isFinite) (hyy : (y * y).isFinite)
    (hs : IsRounded (value (x * x) + value (y * y)) s) : x * x ≤ s := by
  obtain ⟨hy, -⟩ := isFinite_of_imp isFinite_mul hyy
  refine (isRounded_self hxx).le hs ?_
  exact le_add_of_nonneg_right (value_nonneg (nonneg_mul_self hy))

/-- A float whose square is less than that of another is within the other. -/
theorem within_of_mul_self (hx : x.isFinite) (hb : b.isFinite) (h0 : 0.0 ≤ b)
    (h : ¬ b * b ≤ x * x) : Within b x := by
  refine ⟨hx, ?_⟩
  by_contra hlt
  refine h ((isRounded_mul hb hb).le (isRounded_mul hx hx) ?_)
  have habs : |value b| ≤ |value x| := by
    rw [abs_of_nonneg (value_nonneg h0)]
    exact (not_le.mp hlt).le
  exact abs_le_iff_mul_self_le.mp habs

end Phototaxis.Number
