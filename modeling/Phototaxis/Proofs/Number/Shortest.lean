import Mathlib
import Phototaxis.Number.Shortest
import Phototaxis.Proofs.Number.Decimal

/-!
# The shortest decimal is rounded to the float it was found for

The search for the shortest decimal tests its candidates in natural arithmetic: a
candidate passes if it lies in the interval of numbers that are rounded to the float
(`Dyadic.readsBack_iff`). Below a power of two the interval is only half as wide, since
the floats are twice as dense there; but a number that far below is rounded up to the
power of two all the same (`Dyadic.Covers.roundsTo`).

So every decimal that the search may come up with is rounded to the float
(`Dyadic.roundsTo_shortest`). This does not depend on how many grids are looked at: should
none of them have a hit, the value itself is written.
-/

namespace Phototaxis

open Number

/-! ## Nearest integers by intervals -/

/-- What lies within half of an integer is nearest to it; at the ends only if it is even. -/
theorem Number.nearest_eq {t : ℚ} {m : ℕ} (hlo : (m : ℚ) - 1 / 2 ≤ t) (hhi : t ≤ m + 1 / 2)
    (ht : 0 ≤ t) (hodd : m % 2 = 1 → (m : ℚ) - 1 / 2 < t ∧ t < m + 1 / 2) : nearest t = m := by
  unfold nearest
  rcases le_or_gt (m : ℚ) t with hle | hlt
  · rw [(Nat.floor_eq_iff ht).mpr ⟨hle, by linarith⟩]
    split_ifs with h₁ h₂
    · rfl
    · linarith
    · rcases Nat.mod_two_eq_zero_or_one m with hm | hm
      · rw [hm, Nat.add_zero]
      · linarith [(hodd hm).2]
  · obtain ⟨k, rfl⟩ : ∃ k, m = k + 1 :=
      Nat.exists_eq_add_one_of_ne_zero fun h => by
        rw [h, Nat.cast_zero] at hlt
        linarith
    push_cast at hlo hlt hodd
    rw [(Nat.floor_eq_iff ht).mpr ⟨by linarith, hlt⟩]
    split_ifs with h₁ h₂
    · linarith
    · rfl
    · rcases Nat.mod_two_eq_zero_or_one k with hk | hk
      · linarith [(hodd (by omega)).1]
      · rw [hk]

/-- The value of a dyadic fraction. -/
def Dyadic.toRat (x : Dyadic) : ℚ := x.mantissa * 2 ^ x.exponent

/-- The value of a decimal. -/
def Decimal.toRat (d : Decimal) : ℚ := d.digits * 10 ^ d.exponent

namespace Dyadic

variable {x : Dyadic} {grid power scale : ℤ} {r : ℚ}

/-! ## Ratios -/

theorem pow_toNat {a : ℚ} (ha : a ≠ 0) (e : ℤ) : a ^ e.toNat = a ^ e * a ^ (-e).toNat := by
  rw [← zpow_natCast, ← zpow_natCast a (-e).toNat, ← zpow_add₀ ha]
  congr 1
  omega

theorem ratio_snd_pos (x : Dyadic) (power : ℤ) : 0 < (x.ratio power).2 :=
  Nat.mul_pos (Nat.pow_pos (by decide)) (Nat.pow_pos (by decide))

/-- The ratio is the value times the power of ten. -/
theorem ratio_fst (x : Dyadic) (power : ℤ) :
    ((x.ratio power).1 : ℚ) = x.toRat * 10 ^ power * (x.ratio power).2 := by
  show ((x.mantissa * 2 ^ x.exponent.toNat * 10 ^ power.toNat : ℕ) : ℚ)
    = x.toRat * 10 ^ power * ((2 ^ (-x.exponent).toNat * 10 ^ (-power).toNat : ℕ) : ℚ)
  push_cast
  rw [pow_toNat two_ne_zero, pow_toNat (a := 10) (by norm_num), toRat]
  ring

/-! ## The interval around a float -/

/-- How far below a float the numbers begin that are rounded to it, in units of its last place. -/
def reach (x : Dyadic) : ℚ := if x.narrowBelow then 1 / 4 else 1 / 2

/-- Whether a number lies in the interval around a float; the ends belong to it if the mantissa is
even. -/
structure Covers (x : Dyadic) (r : ℚ) : Prop where
  le : x.mantissa - x.reach ≤ r / 2 ^ x.exponent
  ge : r / 2 ^ x.exponent ≤ x.mantissa + 1 / 2
  inside : x.mantissa % 2 = 1 →
    x.mantissa - x.reach < r / 2 ^ x.exponent ∧ r / 2 ^ x.exponent < x.mantissa + 1 / 2

theorem cast_compare {m n : ℕ} {u v c : ℚ} (hc : 0 < c) (hm : (m : ℚ) = c * u)
    (hn : (n : ℚ) = c * v) : (m ≤ n ↔ u ≤ v) ∧ (m < n ↔ u < v) := by
  constructor
  · rw [← Nat.cast_le (α := ℚ), hm, hn, mul_le_mul_iff_right₀ hc]
  · rw [← Nat.cast_lt (α := ℚ), hm, hn, mul_lt_mul_iff_right₀ hc]

/-- **The test in natural arithmetic tells what lies in the interval.** It compares the number with
the ends of the interval, all of them multiplied by the same. -/
theorem readsBack_iff (hx : 0 < x.mantissa) (candidate : ℕ) :
    x.readsBack candidate grid = true ↔ x.Covers (candidate * 10 ^ grid) := by
  have hunit := ratio_fst ⟨1, x.exponent⟩ (-grid)
  have hsnd : (0 : ℚ) < ((⟨1, x.exponent⟩ : Dyadic).ratio (-grid)).2 := by
    exact_mod_cast ratio_snd_pos ⟨1, x.exponent⟩ (-grid)
  unfold readsBack
  dsimp only
  generalize (⟨1, x.exponent⟩ : Dyadic).ratio (-grid) = unit at hunit hsnd ⊢
  rw [toRat, Nat.cast_one, one_mul] at hunit
  have hc : (0 : ℚ) < 4 * unit.1 := by
    rw [hunit]
    positivity
  have hlow : (((4 * x.mantissa - if x.narrowBelow then 1 else 2) * unit.1 : ℕ) : ℚ)
      = 4 * unit.1 * (x.mantissa - x.reach) := by
    rw [Nat.cast_mul, Nat.cast_sub (by split_ifs <;> omega), reach]
    split_ifs <;> push_cast <;> ring
  have hpoint : ((4 * candidate * unit.2 : ℕ) : ℚ)
      = 4 * unit.1 * (candidate * 10 ^ grid / 2 ^ x.exponent) := by
    rw [hunit, zpow_neg]
    push_cast
    field_simp
  have hhigh : (((4 * x.mantissa + 2) * unit.1 : ℕ) : ℚ)
      = 4 * unit.1 * (x.mantissa + 1 / 2) := by
    push_cast
    ring
  obtain ⟨hle, hlt⟩ := cast_compare hc hlow hpoint
  obtain ⟨hge, hgt⟩ := cast_compare hc hpoint hhigh
  split
  · next heven =>
    rw [beq_iff_eq] at heven
    rw [Bool.and_eq_true, decide_eq_true_iff, decide_eq_true_iff, hle, hge]
    exact ⟨fun h => ⟨h.1, h.2, fun hodd => by omega⟩, fun h => ⟨h.le, h.ge⟩⟩
  · next hodd =>
    rw [beq_iff_eq] at hodd
    rw [Bool.and_eq_true, decide_eq_true_iff, decide_eq_true_iff, hlt, hgt]
    exact ⟨fun h => ⟨h.1.le, h.2.le, fun _ => h⟩, fun h => h.inside (by omega)⟩

/-- What lies less than a quarter below a power of two is rounded up to it: half of the unit that
numbers below the power have. -/
theorem roundsTo_of_lt {q : ℤ} (hq : -1074 < q) (hlo : 2 ^ 52 - 1 / 4 ≤ r / 2 ^ q)
    (hlt : r / 2 ^ q < 2 ^ 52) : RoundsTo r (2 ^ 52 * 2 ^ q) := by
  have hhalf : r / 2 ^ (q - 1) = 2 * (r / 2 ^ q) := by
    rw [zpow_sub_one₀ two_ne_zero]
    field_simp
  refine ⟨2 ^ 53, q - 1, ⟨by omega, ?_, .inr ?_, ?_⟩, ?_⟩
  · rw [← div_lt_iff₀ (by positivity), hhalf]
    linarith
  · rw [← le_div_iff₀ (by positivity), hhalf]
    linarith
  · rw [hhalf]
    refine (nearest_eq ?_ ?_ (by linarith) fun hodd => absurd hodd (by decide)).symm <;>
      push_cast <;> linarith
  · rw [zpow_sub_one₀ two_ne_zero]
    push_cast
    ring

/-- **What lies in the interval is rounded to the float.** -/
theorem Covers.roundsTo (h : x.Covers r) (hx : 0 < x.mantissa)
    (hc : Canonical x.mantissa x.exponent) : RoundsTo r x.toRat := by
  obtain ⟨m, q⟩ := x
  obtain ⟨hlo, hhi, hinside⟩ := h
  dsimp only at hlo hhi hinside hx hc
  have hq : (0 : ℚ) < 2 ^ q := by positivity
  have hm : (1 : ℚ) ≤ m := by exact_mod_cast hx
  have hm' : (m : ℚ) + 1 ≤ 2 ^ 53 := by exact_mod_cast hc.lt
  have hreach : reach ⟨m, q⟩ ≤ 1 / 2 := by
    unfold reach
    split_ifs <;> norm_num
  by_cases hnormal : q = -1074 ∨ (2 : ℚ) ^ 52 * 2 ^ q ≤ r
  -- the unit of the number is the unit of the float
  · have hlt : r < 2 ^ 53 * 2 ^ q := by
      rw [← div_lt_iff₀ hq]
      linarith
    refine ⟨m, q, ⟨hc.exponent_ge, hlt, hnormal, ?_⟩, rfl⟩
    refine (nearest_eq (by linarith) hhi (by linarith) fun hodd => ?_).symm
    exact ⟨by linarith [(hinside hodd).1], (hinside hodd).2⟩
  -- the number lies below a power of two, and its unit is half as large
  · rw [not_or, not_le, ← div_lt_iff₀ hq] at hnormal
    obtain ⟨hq', hlt⟩ := hnormal
    have hfull : 2 ^ 52 ≤ m := hc.normal.resolve_right hq'
    obtain rfl : m = 2 ^ 52 := by
      refine le_antisymm (Nat.le_of_lt_succ ?_) hfull
      have hm'' : (m : ℚ) < 2 ^ 52 + 1 := by linarith
      exact_mod_cast hm''
    have hlow : -1074 < q := lt_of_le_of_ne hc.exponent_ge (Ne.symm hq')
    have hnarrow : narrowBelow ⟨2 ^ 52, q⟩ = true := by
      rw [narrowBelow, Bool.and_eq_true, decide_eq_true_iff]
      exact ⟨rfl, hlow⟩
    rw [reach, if_pos hnarrow] at hlo
    push_cast at hlo
    rw [toRat, Nat.cast_pow, Nat.cast_ofNat]
    exact roundsTo_of_lt hlow hlo hlt

/-! ## The search -/

theorem readsBack_of_neighbor? {candidate : ℕ} (h : x.neighbor? grid = some candidate) :
    x.readsBack candidate grid = true := by
  unfold neighbor? at h
  dsimp only at h
  split at h
  · next h₁ h₂ =>
    split at h <;> cases h
    · exact h₁
    · exact h₂
  · next h₁ h₂ =>
    cases h
    exact h₁
  · next h₁ h₂ =>
    cases h
    exact h₂
  · exact nomatch h

theorem toRat_exactDecimal (x : Dyadic) : x.exactDecimal.toRat = x.toRat := by
  unfold exactDecimal
  split
  · next h =>
    obtain ⟨k, hk⟩ := Int.eq_ofNat_of_zero_le h
    rw [Decimal.toRat, toRat, hk, Int.toNat_natCast, Nat.shiftLeft_eq, zpow_zero, mul_one,
      zpow_natCast]
    push_cast
    rfl
  · next h =>
    obtain ⟨k, hk⟩ := Int.eq_ofNat_of_zero_le (Int.neg_nonneg.mpr (not_le.mp h).le)
    show ((x.mantissa * 5 ^ (-x.exponent).toNat : ℕ) : ℚ) * 10 ^ x.exponent
      = x.mantissa * 2 ^ x.exponent
    rw [show x.exponent = -(k : ℤ) by omega, neg_neg, Int.toNat_natCast, zpow_neg, zpow_neg,
      zpow_natCast, zpow_natCast, show (10 : ℚ) = 5 * 2 by norm_num, mul_pow]
    push_cast
    field_simp

/-- **Whatever the search comes up with is rounded to the float.** -/
theorem roundsTo_firstHit (hx : 0 < x.mantissa) (hc : Canonical x.mantissa x.exponent)
    (count tries : ℕ) : RoundsTo (x.firstHit scale count tries).toRat x.toRat := by
  induction tries generalizing count with
  | zero =>
    rw [firstHit, toRat_exactDecimal]
    exact .self hc.lt hc.exponent_ge
  | succ tries ih =>
    rw [firstHit]
    split
    · next digits hdigits =>
      have hcovers := ((readsBack_iff hx digits).mp (readsBack_of_neighbor? hdigits)).roundsTo hx hc
      split
      -- a one and zeros only
      · next hpower =>
        have hdigits : (digits : ℚ) * 10 ^ (scale - count) = 10 ^ scale := by
          rw [beq_iff_eq.mp hpower]
          show ((10 ^ count : ℕ) : ℚ) * 10 ^ (scale - count) = 10 ^ scale
          rw [Nat.cast_pow, ← zpow_natCast, Nat.cast_ofNat, ← zpow_add₀ (by norm_num)]
          congr 1
          omega
        rw [Decimal.toRat, Nat.cast_one, one_mul, ← hdigits]
        exact hcovers
      · exact hcovers
    · exact ih (count + 1)

/-- **The shortest decimal is rounded to the float.** -/
theorem roundsTo_shortest (hc : Canonical x.mantissa x.exponent) :
    RoundsTo x.shortest.toRat x.toRat := by
  unfold shortest
  split
  · next h =>
    rw [beq_iff_eq] at h
    rw [Decimal.toRat, toRat, h, Nat.cast_zero, zero_mul, zero_mul]
    exact ⟨0, -1074, .zero, by rw [Nat.cast_zero, zero_mul]⟩
  · next h => exact roundsTo_firstHit (Nat.pos_of_ne_zero (mt beq_iff_eq.mpr h)) hc 1 17

end Dyadic

end Phototaxis
