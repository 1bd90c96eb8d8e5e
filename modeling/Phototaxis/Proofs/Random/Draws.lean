import Mathlib
import Phototaxis.Proofs.Number.Bits
import Phototaxis.Proofs.Number.Bounds
import Phototaxis.Random.Uniform

/-!
# What draws yield

What is said of a draw is said of all states of the generator at once: `Draw.Yields` is
the postcondition of a draw, and it is composed as the draw is.

A unit is between zero and the greatest unit, both included (`Draw.yields_unit`). From
there on it is rounding that has to be kept in bounds. The result of a half-open range may
be rounded up to its upper end, but is then drawn again (`HalfOpenRange.yields_draw`).
That of a closed range is not, since the scale is made smaller until even the greatest
unit stays inside (`ClosedRange.Keeps`); the search for it ends at zero at the latest, so
every range that can be drawn from has one (`ClosedRange.yields_draw`).
-/

namespace Phototaxis

open Number

namespace Draw

variable {α β : Type} {P : α → Prop} {Q : β → Prop}

/-- Whether a draw yields what has a property only, wherever the generator stands. -/
def Yields (P : α → Prop) (draw : Draw α) : Prop := ∀ g, P (draw.run g).1

theorem Yields.pure {a : α} (h : P a) : Yields P (pure a) := fun _ => h

/-- **What a row of draws yields.** -/
theorem Yields.bind {draw : Draw α} {next : α → Draw β} (h : Yields P draw)
    (hnext : ∀ a, P a → Yields Q (next a)) : Yields Q (draw >>= next) := fun g =>
  hnext _ (h g) _

/-- A draw of which nothing is known. -/
theorem yields_any (draw : Draw α) : Yields (fun _ => True) draw := fun _ => trivial

/-- **What all of a number of draws yield.** -/
theorem Yields.replicate {draw : Draw α} (h : Yields P draw) (n : ℕ) :
    Yields (fun l => ∀ a ∈ l, P a) (replicate n draw) := by
  induction n with
  | zero => exact .pure (List.forall_mem_nil _)
  | succ n ih =>
    refine h.bind fun first hfirst => ih.bind fun rest hrest => .pure ?_
    exact List.forall_mem_cons.mpr ⟨hfirst, hrest⟩

/-- Whether a float is a unit, neither below zero nor above the greatest unit. -/
structure IsUnit (u : Float) : Prop where
  isFinite : u.isFinite
  nonneg : 0 ≤ value u
  le : value u ≤ value ClosedRange.greatestUnit

theorem isUnit_of_le {u : Float} (h0 : 0.0 ≤ u) (h : u ≤ ClosedRange.greatestUnit) : IsUnit u := by
  have hunit : ClosedRange.greatestUnit.isFinite := by decide
  have hu := isFinite_of_le h0 h hunit
  exact ⟨hu, value_nonneg h0, (le_iff_value (isNaN_of_isFinite hu) (isNaN_of_isFinite hunit)).mp h⟩

theorem isUnit_greatest : IsUnit ClosedRange.greatestUnit :=
  isUnit_of_le (by decide) (by decide)

/-- **What is drawn as a unit is one.** -/
theorem yields_unit : Yields IsUnit unit := by
  refine (yields_any word).bind fun w _ => .pure ?_
  have hone : (1.0 : Float).isFinite := by decide
  have hlast : (0x3FFFFFFFFFFFFFFF : UInt64).toNat
      = (0x3FF0000000000000 : UInt64).toNat + (2 ^ 52 - 1) := rfl
  obtain ⟨hlow, hhigh⟩ := ofBits_or_sub_bounds (e := 0x3FF) rfl hlast (by decide) hone w
  exact isUnit_of_le (le_trans (by decide) hlow) (le_trans hhigh (by decide))

/-- A unit scales down. -/
theorem IsUnit.within {u x y : Float} (hu : IsUnit u) (hx : x.isFinite) (h0 : 0 ≤ value x)
    (hy : IsRounded (value u * value x) y) : Within x y ∧ 0 ≤ value y := by
  have hone : value u ≤ 1 := hu.le.trans (by decide +kernel)
  constructor
  · refine .of_isRounded hy (isRounded_self hx) ?_ hx
    rw [abs_of_nonneg (mul_nonneg hu.nonneg h0)]
    exact mul_le_of_le_one_left h0 hone
  · refine value_nonneg ((isRounded_self rfl).le hy ?_)
    rw [value_zero]
    exact mul_nonneg hu.nonneg h0

end Draw

/-! ## Half-open ranges -/

namespace HalfOpenRange

variable {r : HalfOpenRange}

theorem of_fault? (h : r.fault? = none) : r.low < r.high ∧ r.low.isFinite ∧ r.high.isFinite ∧
    (r.high - r.low).isFinite := by
  unfold fault? at h
  split_ifs at h with h₁ h₂ h₃ h₄
  simp only [Bool.not_eq_true', Bool.not_eq_false, decide_eq_true_iff] at h₁ h₂ h₃ h₄
  exact ⟨h₁, h₂, h₃, h₄⟩

theorem yields_drawBelow (h : r.fault? = none) (tries : ℕ) :
    (r.drawBelow tries).Yields fun x => r.low ≤ x ∧ x < r.high := by
  obtain ⟨hlt, hlow, hhigh, hwidth⟩ := of_fault? h
  have hwidth0 := value_sub_nonneg (le_of_lt hlt) hlow hhigh
  induction tries with
  | zero => exact .pure ⟨Number.le_refl (isNaN_of_isFinite hlow), hlt⟩
  | succ tries ih =>
    refine Draw.yields_unit.bind fun u hu => ?_
    obtain ⟨hwithin, h0⟩ := hu.within hwidth hwidth0 (isRounded_mul hu.isFinite hwidth)
    have hle := le_add_of_value_nonneg hlow hwithin.isFinite h0
    dsimp only
    split
    · exact .pure ⟨hle, ‹_›⟩
    · exact ih

/-- **A half-open range yields its numbers only.** -/
theorem yields_draw (h : r.fault? = none) : r.draw.Yields fun x => r.low ≤ x ∧ x < r.high :=
  yields_drawBelow h _

end HalfOpenRange

/-! ## Closed ranges -/

namespace ClosedRange

variable {r : ClosedRange} {scale : Float}

theorem of_fault? (h : r.fault? = none) : r.low ≤ r.high ∧ r.low.isFinite ∧ r.high.isFinite ∧
    r.width.isFinite := by
  unfold fault? at h
  split_ifs at h with h₁ h₂ h₃ h₄
  simp only [Bool.not_eq_true', Bool.not_eq_false, decide_eq_true_iff] at h₁ h₂ h₃ h₄
  exact ⟨h₁, h₂, h₃, h₄⟩

theorem nonneg_width (h : r.fault? = none) : 0.0 ≤ r.width := by
  obtain ⟨hle, hlow, hhigh, hwidth⟩ := of_fault? h
  have hunit : greatestUnit.isFinite := by decide
  have hunit0 : 0 < value greatestUnit := value_pos (by decide)
  have hdifference : (r.high - r.low).isFinite := by
    by_contra hover
    rw [width, isFinite_div (Bool.eq_false_iff.mpr hover) hunit] at hwidth
    cases hwidth
  refine (isRounded_self rfl).le (isRounded_div hdifference hunit hunit0.ne') ?_
  rw [value_zero]
  exact div_nonneg (value_sub_nonneg hle hlow hhigh) hunit0.le

/-- Whether a scale keeps every result inside the range. -/
structure Keeps (r : ClosedRange) (scale : Float) : Prop where
  isFinite : scale.isFinite
  nonneg : 0 ≤ value scale
  le : scale * greatestUnit + r.low ≤ r.high

/-- Scaled by zero, every result is the lower end. -/
theorem keeps_zero (h : r.fault? = none) (hscale : scale.isFinite) (h0 : value scale = 0) :
    r.Keeps scale := by
  obtain ⟨hle, hlow, hhigh, -⟩ := of_fault? h
  have hproduct := isRounded_mul hscale (show greatestUnit.isFinite by decide)
  rw [h0, zero_mul] at hproduct
  have hvalue : value (scale * greatestUnit) = 0 := by
    have habs := hproduct.abs_le_abs (isRounded_self (x := 0.0) rfl) (by rw [value_zero])
    rwa [value_zero, abs_zero, abs_nonpos_iff] at habs
  have hfinite : (scale * greatestUnit).isFinite :=
    isFinite_of_abs_value_lt hproduct.isNaN (by rw [hvalue, abs_zero]; exact overflow_pos)
  refine ⟨hscale, h0.ge, (isRounded_add hfinite hlow).le (isRounded_self hhigh) ?_⟩
  rw [hvalue, zero_add]
  exact (le_iff_value (isNaN_of_isFinite hlow) (isNaN_of_isFinite hhigh)).mp hle

/-- **The search for a scale ends with one that keeps the range**, at zero if there is no other. -/
theorem keeps_scaleFrom (h : r.fault? = none) {bits : ℕ} (hbits : bits < infinityBits) :
    r.Keeps (r.scaleFrom bits) := by
  obtain ⟨-, hlow, hhigh, -⟩ := of_fault? h
  induction bits with
  | zero => exact (keeps_zero h rfl value_zero : r.Keeps 0.0)
  | succ bits ih =>
    have hword : (UInt64.ofNat (bits + 1)).toNat < infinityBits := by
      rwa [UInt64.toNat_ofNat_of_lt' (hbits.trans (by decide))]
    have hscale := isFinite_ofBits hword
    unfold scaleFrom
    dsimp only
    split
    · exact ih (Nat.lt_of_succ_lt hbits)
    · rename_i hbelow
      refine ⟨hscale, value_nonneg (nonneg_ofBits hword), le_of_not_lt ?_ ?_ hbelow⟩
      · exact isNaN_of_isFinite hhigh
      · exact not_isNaN_add (not_isNaN_mul_of_isFinite hscale (by decide)) hlow

theorem keeps_scale (h : r.fault? = none) : r.Keeps r.scale := by
  obtain ⟨-, -, -, hwidth⟩ := of_fault? h
  unfold ClosedRange.scale
  rcases toNat_toBits hwidth (nonneg_width h) with hbits | hbits
  · exact keeps_scaleFrom h hbits
  -- the ends are zeros of different signs, and the first scale is the negative zero
  · have hzero : r.Keeps (Float.ofBits (.ofNat (2 ^ 63 - 1 + 1))) :=
      keeps_zero h (by decide) (by decide)
    rw [hbits, show 2 ^ 63 = 2 ^ 63 - 1 + 1 from rfl, scaleFrom]
    rwa [if_neg (not_lt_of_le hzero.le)]

/-- **A closed range yields its numbers only.** -/
theorem yields_draw (h : r.fault? = none) : r.draw.Yields fun x => r.low ≤ x ∧ x ≤ r.high := by
  obtain ⟨-, hlow, -, -⟩ := of_fault? h
  obtain ⟨hscale, hscale0, hle⟩ := keeps_scale h
  refine Draw.yields_unit.bind fun u hu => .pure ?_
  have hproduct := isRounded_mul hu.isFinite hscale
  have hgreatest := isRounded_mul hscale Draw.isUnit_greatest.isFinite
  obtain ⟨hwithin, h0⟩ := hu.within hscale hscale0 hproduct
  obtain ⟨hwithin', -⟩ :=
    Draw.isUnit_greatest.within hscale hscale0 (by rwa [mul_comm] at hgreatest)
  have hle' : u * r.scale ≤ r.scale * greatestUnit := by
    refine hproduct.le hgreatest ?_
    rw [mul_comm]
    exact mul_le_mul_of_nonneg_left hu.le hscale0
  refine ⟨le_add_of_value_nonneg hlow hwithin.isFinite h0, le_trans ?_ hle⟩
  exact Number.add_le_add_right hle' hwithin.isFinite hwithin'.isFinite hlow

end ClosedRange

end Phototaxis
