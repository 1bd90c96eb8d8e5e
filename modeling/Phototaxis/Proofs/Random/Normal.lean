import Mathlib
import Phototaxis.Proofs.Number.Decimal
import Phototaxis.Proofs.Random.Draws
import Phototaxis.Random.Normal

/-!
# Normal numbers are bounded

A normal distribution has no bounds, but its numbers are drawn from finitely many words.
Under the curve they are not beyond the edge of the base layer. In the tail they are the
quotient of a logarithm, and the logarithm of a number that is drawn is not below `-64`.
So no standard normal number is beyond `64` (`Draw.yields_standardNormal`), and one of a
given deviation is finite, unless the deviation is so large that the product overflows
(`Draw.yields_normal`). A deviation that is the square root of a number of items never is
(`Draw.yields_normal_sqrt`).
-/

namespace Phototaxis.Draw

open Number

variable {x y d c : Float}

theorem within_logarithm (a : Float) : Within 64.0 (logarithm a) := by
  unfold logarithm
  dsimp only
  split
  · rename_i h
    rw [Bool.and_eq_true, decide_eq_true_iff, decide_eq_true_iff] at h
    exact .of_le (by decide) (by decide) h.1 (le_trans h.2 (by decide))
  · exact .zero (by decide) (by decide)

/-- A number between minus one and one, made of a word. -/
theorem within_centered (w : UInt64) :
    Within 1.0 (Float.ofBits ((w >>> 12) ||| 0x4000000000000000) - 3.0) := by
  have hthree : (3.0 : Float).isFinite := by decide
  have hlast : (0x400FFFFFFFFFFFFF : UInt64).toNat
      = (0x4000000000000000 : UInt64).toNat + (2 ^ 52 - 1) := rfl
  obtain ⟨hlow, hhigh⟩ := ofBits_or_sub_bounds (e := 0x400) rfl hlast (by decide) hthree w
  exact .of_le (by decide) (by decide) (le_trans (by decide) hlow)
    (le_trans hhigh (by decide))

/-- **No distance into the tail is beyond 32.** -/
theorem yields_tailDistance (hx : Within 32.0 x) (tries : ℕ) :
    (tailDistance x y tries).Yields (Within 32.0) := by
  induction tries generalizing x y with
  | zero => exact .pure hx
  | succ tries ih =>
    unfold tailDistance
    split
    · exact .pure hx
    · refine (yields_any openUnit).bind fun a _ => (yields_any openUnit).bind fun b _ => ih ?_
      have hstart : Random.tailStart.isFinite := by decide
      exact ((within_logarithm a).div (by decide) (by decide)
        (Number.le_refl (isNaN_of_isFinite hstart)) (by decide) hstart).mono (by decide)

theorem yields_tail (u : Float) : (tail u).Yields (Within 64.0) := by
  have hstart : Within 4.0 Random.tailStart := .of_nonneg (by decide) (by decide) (by decide)
  have hone : Within 32.0 1.0 := .of_nonneg (by decide) (by decide) (by decide)
  refine (yields_tailDistance hone _).bind fun x hx => .pure ?_
  split
  · exact (hx.sub hstart (by decide)).mono (by decide)
  · exact (hstart.sub hx (by decide)).mono (by decide)

theorem within_layerEdge (layer : ℕ) : Within 4.0 (Random.layerEdge.getD layer 0.0) := by
  have hedges : ∀ edge ∈ Random.layerEdge.toList, Within 4.0 edge := by decide +kernel
  rw [Array.getD_eq_getD_getElem?]
  cases hlayer : Random.layerEdge[layer]? with
  | none => exact .zero (by decide) (by decide)
  | some edge => exact hedges edge (Array.mem_toList_iff.mpr (Array.mem_of_getElem? hlayer))

theorem yields_underCurve (tries : ℕ) : (underCurve tries).Yields (Within 64.0) := by
  induction tries with
  | zero => exact .pure (.zero (by decide) (by decide))
  | succ tries ih =>
    refine (yields_any word).bind fun bits _ => ?_
    have hx := ((within_centered bits).mul (within_layerEdge (bits &&& 0xFF).toNat)
      (by decide)).mono (show 1.0 * 4.0 ≤ 64.0 by decide)
    dsimp only
    split
    · exact .pure hx
    · split
      · exact yields_tail _
      · -- the height of the point only decides whether it is taken
        refine (yields_any fraction).bind fun _ _ => ?_
        split
        · exact .pure hx
        · exact ih

/-- **No standard normal number is beyond 64.** -/
theorem yields_standardNormal : standardNormal.Yields (Within 64.0) := yields_underCurve _

/-- **A normal number is finite**, as long as 64 deviations are. -/
theorem yields_normal (hc : Within c d) (h : (c * 64.0).isFinite) :
    (normal d).Yields (·.isFinite) := by
  unfold normal
  split
  · refine yields_standardNormal.bind fun x hx => .pure ?_
    have hproduct := hc.mul hx h
    have hsum := isRounded_add (x := 0.0) rfl hproduct.isFinite
    rw [value_zero, zero_add] at hsum
    exact (Within.of_isRounded hsum (isRounded_self h) hproduct.abs_le h).isFinite
  · exact .pure rfl

/-- **The square root of a number of items is no deviation that overflows.** -/
theorem yields_normal_sqrt (hc : 0.0 ≤ c) (h : (c * greatest.sqrt * 64.0).isFinite) (n : ℕ) :
    (normal (c * (Float.ofNat n).sqrt)).Yields (·.isFinite) := by
  cases hover : (Float.ofNat n).isFinite with
  | false =>
    have hdeviation := isFinite_mul (x := c) (.inr (isFinite_sqrt hover))
    unfold normal
    rw [hdeviation, Bool.false_and, if_neg Bool.false_ne_true]
    exact .pure rfl
  | true =>
    obtain ⟨hbound, -⟩ := isFinite_of_imp isFinite_mul h
    obtain ⟨hcf, hroot⟩ := isFinite_of_imp isFinite_mul hbound
    have hle : Float.ofNat n ≤ greatest :=
      (le_iff_value (isNaN_of_isFinite hover) (by decide +kernel)).mpr
        ((le_abs_self _).trans (within_greatest hover).abs_le)
    have hsqrt : Within greatest.sqrt (Float.ofNat n).sqrt :=
      .of_nonneg (le_trans (by decide) (sqrt_le_sqrt (by decide) (nonneg_ofNat n)))
        (sqrt_le_sqrt (nonneg_ofNat n) hle) hroot
    exact yields_normal ((Within.of_nonneg hc (Number.le_refl (isNaN_of_isFinite hcf)) hcf).mul hsqrt hbound) h

end Phototaxis.Draw
