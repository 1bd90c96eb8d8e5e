import Mathlib
import Phototaxis.Proofs.Number.Unpacked

/-!
# The order of the floats

Two floats are compared by sign, exponent and mantissa. Ranks are triples of integers
that are compared in the same way, one component after the other: between floats that
are numbers, comparing is comparing ranks (`lt_iff`, `le_iff`). Everything that an
order has then follows from the linear order of the ranks, except where a float is no
number; such a float is below, above and equal to nothing.

Exponents come before mantissas. This orders the numbers by their values because what
is read from a float is canonical: a greater exponent comes with a full mantissa.
-/

namespace Phototaxis.Number

open Float.Model (UnpackedFloat)

variable {x y z : Float}

/-- The place of a number in the order: its sign and kind, then its exponent, then its
mantissa, the latter two turned round below zero. -/
def rank : UnpackedFloat → ℤ ×ₗ ℤ ×ₗ ℤ
  | .infinity .negative => toLex (-2, toLex (0, 0))
  | .finite .negative m e _ => toLex (-1, toLex (-e, -m))
  | .zero _ => toLex (0, toLex (0, 0))
  | .finite .positive m e _ => toLex (1, toLex (e, m))
  | .infinity .positive => toLex (2, toLex (0, 0))
  | .notANumber => toLex (3, toLex (0, 0))

theorem compare_neg_neg (a b : ℤ) : compare (-a) (-b) = compare b a := by
  simp only [Int.compare_eq_ite_lt, Int.neg_lt_neg_iff]

theorem compare_natCast (m n : ℕ) : compare (m : ℤ) n = compare m n := by
  simp only [Int.compare_eq_ite_lt, Nat.compare_eq_ite_lt, Int.ofNat_lt]

theorem compare_toLex (a b c d e f : ℤ) :
    compare (toLex (a, toLex (b, c))) (toLex (d, toLex (e, f)))
      = (compare a d).then ((compare b e).then (compare c f)) := rfl

/-- **Numbers compare as their ranks do.** -/
theorem compare_eq_compare_rank {u v : UnpackedFloat} (hu : u ≠ .notANumber)
    (hv : v ≠ .notANumber) : u.compare v = some (compare (rank u) (rank v)) := by
  cases u with
  | notANumber => exact absurd rfl hu
  | infinity s =>
    cases v with
    | notANumber => exact absurd rfl hv
    | infinity t => cases s <;> cases t <;> rfl
    | zero t => cases s <;> rfl
    | finite t m e h => cases s <;> cases t <;> rfl
  | zero s =>
    cases v with
    | notANumber => exact absurd rfl hv
    | infinity t => cases t <;> rfl
    | zero t => rfl
    | finite t m e h => cases t <;> rfl
  | finite s m e h =>
    cases v with
    | notANumber => exact absurd rfl hv
    | infinity t => cases s <;> cases t <;> rfl
    | zero t => cases s <;> rfl
    | finite t m' e' h' =>
      cases s <;> cases t
      -- only two finite numbers of one sign are told apart by exponent and mantissa
      · simp only [UnpackedFloat.compare, rank, compare_toLex, compare_neg_neg, compare_natCast]
        rw [Ordering.swap_then, Int.compare_swap, Nat.compare_swap]
        rfl
      · rfl
      · rfl
      · simp only [UnpackedFloat.compare, rank, compare_toLex, compare_natCast]
        rfl

/-! ## Comparing floats -/

theorem ne_notANumber_iff : unpacked x ≠ .notANumber ↔ x.isNaN = false := by
  rw [Ne, ← isNaN_iff, Bool.not_eq_true]

theorem lt_iff_compare : x < y ↔ (unpacked x).compare (unpacked y) = some .lt := by
  show decide (x.toModel < y.toModel) = true ↔ _
  rw [decide_eq_true_iff]
  show ((unpacked x).compare (unpacked y) == some .lt) = true ↔ _
  rw [beq_iff_eq]

theorem le_iff_compare : x ≤ y ↔ ((unpacked x).compare (unpacked y)).any (·.isLE) := by
  show decide (x.toModel ≤ y.toModel) = true ↔ _
  rw [decide_eq_true_iff]
  rfl

/-- Every number is equal to itself. -/
theorem beq_self (hx : x.isNaN = false) : x == x := by
  show ((unpacked x).compare (unpacked x) == some .eq) = true
  rw [compare_eq_compare_rank (ne_notANumber_iff.mpr hx) (ne_notANumber_iff.mpr hx),
    compare_eq_iff_eq.mpr rfl]
  rfl

/-- **Below means of lesser rank.** -/
theorem lt_iff (hx : x.isNaN = false) (hy : y.isNaN = false) :
    x < y ↔ rank (unpacked x) < rank (unpacked y) := by
  rw [lt_iff_compare, compare_eq_compare_rank (ne_notANumber_iff.mpr hx)
    (ne_notANumber_iff.mpr hy), Option.some_inj, compare_lt_iff_lt]

theorem le_iff (hx : x.isNaN = false) (hy : y.isNaN = false) :
    x ≤ y ↔ rank (unpacked x) ≤ rank (unpacked y) := by
  rw [le_iff_compare, compare_eq_compare_rank (ne_notANumber_iff.mpr hx)
    (ne_notANumber_iff.mpr hy)]
  exact Ordering.isLE_iff_ne_gt.trans compare_le_iff_le

/-- Only numbers are below something, or above. -/
theorem isNaN_eq_false_of_lt (h : x < y) : x.isNaN = false ∧ y.isNaN = false := by
  rw [lt_iff_compare] at h
  constructor <;> refine ne_notANumber_iff.mp (fun hn => ?_) <;> rw [hn] at h
  · cases h
  · cases hx : unpacked x <;> rw [hx] at h <;> cases h

theorem isNaN_eq_false_of_le (h : x ≤ y) : x.isNaN = false ∧ y.isNaN = false := by
  rw [le_iff_compare] at h
  constructor <;> refine ne_notANumber_iff.mp (fun hn => ?_) <;> rw [hn] at h
  · cases h
  · cases hx : unpacked x <;> rw [hx] at h <;> cases h

/-- Every number is at most itself. -/
protected theorem le_refl (hx : x.isNaN = false) : x ≤ x := (le_iff hx hx).mpr le_rfl

theorem le_trans (hxy : x ≤ y) (hyz : y ≤ z) : x ≤ z := by
  obtain ⟨hx, hy⟩ := isNaN_eq_false_of_le hxy
  obtain ⟨-, hz⟩ := isNaN_eq_false_of_le hyz
  rw [le_iff hx hy] at hxy
  rw [le_iff hy hz] at hyz
  exact (le_iff hx hz).mpr (hxy.trans hyz)

theorem lt_of_lt_of_le (hxy : x < y) (hyz : y ≤ z) : x < z := by
  obtain ⟨hx, hy⟩ := isNaN_eq_false_of_lt hxy
  obtain ⟨-, hz⟩ := isNaN_eq_false_of_le hyz
  rw [lt_iff hx hy] at hxy
  rw [le_iff hy hz] at hyz
  exact (lt_iff hx hz).mpr (hxy.trans_le hyz)

protected theorem lt_of_le_of_lt (hxy : x ≤ y) (hyz : y < z) : x < z := by
  obtain ⟨hx, hy⟩ := isNaN_eq_false_of_le hxy
  obtain ⟨-, hz⟩ := isNaN_eq_false_of_lt hyz
  rw [le_iff hx hy] at hxy
  rw [lt_iff hy hz] at hyz
  exact (lt_iff hx hz).mpr (hxy.trans_lt hyz)

theorem lt_of_not_le (hx : x.isNaN = false) (hy : y.isNaN = false) (h : ¬ x ≤ y) : y < x := by
  rw [le_iff hx hy, not_le] at h
  exact (lt_iff hy hx).mpr h

theorem le_of_not_lt (hx : x.isNaN = false) (hy : y.isNaN = false) (h : ¬ x < y) : y ≤ x := by
  rw [lt_iff hx hy, not_lt] at h
  exact (le_iff hy hx).mpr h

theorem not_lt_of_le (h : x ≤ y) : ¬ y < x := by
  obtain ⟨hx, hy⟩ := isNaN_eq_false_of_le h
  rw [le_iff hx hy] at h
  rw [lt_iff hy hx]
  exact not_lt.mpr h

theorem le_of_lt (h : x < y) : x ≤ y := by
  obtain ⟨hx, hy⟩ := isNaN_eq_false_of_lt h
  rw [lt_iff hx hy] at h
  exact (le_iff hx hy).mpr h.le

end Phototaxis.Number
