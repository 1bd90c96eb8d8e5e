import Mathlib
import Phototaxis.Number.Literal
import Phototaxis.Proofs.Number.Decimal
import Phototaxis.Proofs.Number.Opposite

/-!
# What a literal says

A decimal says the float that it is rounded to, with the sign that it is written with. Nothing
is left open by that: two floats of one sign that the same number is rounded to are one float
(`IsRounded.eq_of_signed`), and the sign is what tells the zeros apart, be they written as
zeros or too small to be anything else.

The reader gives exactly what the literal says (`Literal.toFloat_eq_iff`).
-/

namespace Phototaxis

namespace Number

open Float.Model (Format UnpackedFloat)
open Float.Model.UnpackedFloat

variable {x y : Float} {r : ℚ} {s : Sign} {n : ℕ} {e : ℤ}

/-! ## Signs -/

theorem Signed.neg (h : Signed s (unpacked x)) : Signed (-s) (unpacked (-x)) := by
  have hneg : Signed (-s) (unpacked x).neg := by
    generalize unpacked x = u at h
    cases h with
    | infinity => exact .infinity
    | zero => exact .zero
    | finite m e hm => exact .finite m e hm
  exact hneg.repacked

/-- A float above zero is an infinity or a fraction. -/
theorem signed_of_value_pos (hx : x.isNaN = false) (h : 0 < value x) :
    Signed .positive (unpacked x) := by
  have hnonneg : ∀ {t : Sign} {a : ℚ}, 0 ≤ a → 0 < factor t * a → t = .positive := by
    intro t a ha hpos
    cases t with
    | positive => rfl
    | negative =>
      rw [factor, neg_one_mul] at hpos
      linarith
  rw [value] at h
  cases hu : unpacked x with
  | notANumber => exact absurd hu (ne_notANumber_iff.mpr hx)
  | infinity t =>
    rw [hu, exact] at h
    rw [hnonneg overflow_pos.le h]
    exact .infinity
  | zero t =>
    rw [hu, exact] at h
    exact absurd h (lt_irrefl _)
  | finite t m e hm =>
    rw [hu, exact] at h
    rw [hnonneg (mantissa_pos hm e).le h]
    exact .finite m e hm

theorem exists_finite_of_value_pos (hx : x.isFinite) (h : 0 < value x) :
    ∃ m e hm, unpacked x = .finite .positive m e hm := by
  have hsigned := signed_of_value_pos (isNaN_of_isFinite hx) h
  rcases isFinite_cases hx with ⟨t, -, hv⟩ | ⟨t, m, e, hm, hu, -, -⟩
  · rw [hv] at h
    exact absurd h (lt_irrefl _)
  · rw [hu] at hsigned
    cases hsigned
    exact ⟨m, e, hm, hu⟩

/-- Products and quotients of floats above zero have no minus sign, however small they are. -/
theorem signed_mul_div (hx : x.isFinite) (hy : y.isFinite) (hx0 : 0 < value x)
    (hy0 : 0 < value y) :
    Signed .positive (unpacked (x * y)) ∧ Signed .positive (unpacked (x / y)) := by
  obtain ⟨m, e, hm, hux⟩ := exists_finite_of_value_pos hx hx0
  obtain ⟨m', e', hm', huy⟩ := exists_finite_of_value_pos hy hy0
  rw [unpacked_mul, unpacked_div, hux, huy]
  exact ⟨Signed.repacked (signed_roundWithAccuracy ..),
    Signed.repacked (signed_roundWithAccuracy ..)⟩

theorem signed_ofScientific_unpacked (n : ℕ) (e : ℤ) :
    Signed .positive (UnpackedFloat.ofScientific .binary64 n e) := by
  unfold UnpackedFloat.ofScientific
  split_ifs
  · exact .zero
  · exact .infinity
  · exact .zero
  · exact signed_roundWithAccuracy ..
  · exact signed_roundWithAccuracy ..

theorem signed_ofScientific (hn : 0 < n) (negative : Bool) (k : ℕ) :
    Signed .positive (unpacked (Float.ofScientific n negative k)) := by
  unfold Float.ofScientific
  split
  · next h =>
    obtain ⟨hfinite, hvalue⟩ := value_toFloat h.1
    obtain ⟨hfinite', hvalue'⟩ := value_powerOfTen ⟨k, Nat.lt_succ_of_le h.2⟩
    obtain ⟨hproduct, hquotient⟩ := signed_mul_div hfinite hfinite'
      (by rw [hvalue]; exact_mod_cast hn) (by rw [hvalue']; positivity)
    cases negative with
    | true => exact hquotient
    | false => exact hproduct
  · exact (signed_ofScientific_unpacked n _).repacked

theorem signed_nearest (digits : ℕ) (exponent : ℤ) :
    Signed .positive (unpacked (Literal.nearest digits exponent)) := by
  unfold Literal.nearest
  dsimp only
  split_ifs with hlow hhigh
  · exact .zero
  · exact .infinity
  · rw [Bool.or_eq_true, beq_iff_eq, not_or] at hlow
    exact signed_ofScientific (Nat.pos_of_ne_zero hlow.1) _ _

end Number

namespace Literal

open Number
open Float.Model.UnpackedFloat

variable {literal : Literal} {x : Float}

/-- The sign of a literal, by whether it is written with a minus sign. -/
def sign (negative : Bool) : Sign := if negative then .negative else .positive

/-- Whether a float is what a literal says. A decimal says what it is rounded to, with its sign. -/
def Says : Literal → Float → Prop
  | .nan, x => x.isNaN = true
  | .infinity negative, x => unpacked x = .infinity (sign negative)
  | .decimal negative digits exponent, x => Signed (sign negative) (unpacked x) ∧
    IsRounded (factor (sign negative) * (digits * 10 ^ exponent)) x

theorem says_toFloat (literal : Literal) : literal.Says literal.toFloat := by
  cases literal with
  | nan => exact rfl
  | infinity negative => cases negative <;> rfl
  | decimal negative digits exponent =>
    have hrounded := isRounded_nearest digits exponent
    have hsigned := signed_nearest digits exponent
    cases negative with
    | false =>
      refine ⟨hsigned, ?_⟩
      show IsRounded (1 * (digits * 10 ^ exponent)) (nearest digits exponent)
      rw [one_mul]
      exact hrounded
    | true =>
      refine ⟨hsigned.neg, ?_⟩
      show IsRounded (-1 * (digits * 10 ^ exponent)) (-nearest digits exponent)
      rw [neg_one_mul]
      exact hrounded.neg

/-- A literal says one float at most. -/
theorem Says.unique {y : Float} (hx : literal.Says x) (hy : literal.Says y) : x = y := by
  cases literal with
  | nan => exact unpacked_inj.mp ((Number.isNaN_iff.mp hx).trans (Number.isNaN_iff.mp hy).symm)
  | infinity negative =>
    have hinfinity : unpacked y = .infinity (sign negative) := hy
    exact unpacked_inj.mp (Eq.trans hx hinfinity.symm)
  | decimal negative digits exponent => exact hx.2.eq_of_signed hy.2 hx.1 hy.1

/-- **A literal is read as what it says.** -/
theorem toFloat_eq_iff : literal.toFloat = x ↔ literal.Says x :=
  ⟨fun h => h ▸ says_toFloat literal, fun h => (says_toFloat literal).unique h⟩

end Literal

end Phototaxis
