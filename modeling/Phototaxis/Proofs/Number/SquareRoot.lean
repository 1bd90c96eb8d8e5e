import Mathlib
import Phototaxis.Proofs.Number.Order

/-!
# The square root is monotone

Whoever compares squared distances instead of distances relies on the square root to
keep the order. The rounded root does (`sqrt_le_sqrt`), although not strictly: many
floats share one root.

The root of a finite float `m · 2 ^ e` is found in three steps. First the float is
written as `n · 2 ^ (2q)` with an integer `n` of 105 or 106 bits (`radicand`,
`rootExponent`); then the integer nearest to the root of `n` is taken, which has 53
bits (`nearestRoot`); and where this is `2 ^ 53` it is carried into the exponent
(`carried`). Each step is monotone, given that what went before is equal. None of them
leaves the format, so packing changes nothing: the root of a float can neither
overflow nor underflow.
-/

namespace Phototaxis.Number

open Float.Model (Format UnpackedFloat totalExponent)
open Float.Model.UnpackedFloat

/-! ## The nearest root of an integer -/

/-- The integer nearest to the square root. -/
def nearestRoot (n : Nat) : Nat :=
  if n - n.sqrt * n.sqrt ≤ n.sqrt then n.sqrt else n.sqrt + 1

theorem nearestRoot_mono {n k : Nat} (h : n ≤ k) : nearestRoot n ≤ nearestRoot k := by
  have hr : n.sqrt ≤ k.sqrt := Nat.sqrt_le_sqrt h
  unfold nearestRoot
  rcases Nat.lt_or_eq_of_le hr with hlt | heq
  · split <;> split <;> omega
  · rw [heq]
    split <;> split <;> omega

theorem sqrt_bounds {n : Nat} (hl : 2 ^ 104 ≤ n) (hh : n < 2 ^ 106) :
    2 ^ 52 ≤ n.sqrt ∧ n.sqrt < 2 ^ 53 :=
  ⟨Nat.le_sqrt.mpr (by omega), Nat.sqrt_lt.mpr (by omega)⟩

theorem nearestRoot_bounds {n : Nat} (hl : 2 ^ 104 ≤ n) (hh : n < 2 ^ 106) :
    2 ^ 52 ≤ nearestRoot n ∧ nearestRoot n ≤ 2 ^ 53 := by
  obtain ⟨h1, h2⟩ := sqrt_bounds hl hh
  unfold nearestRoot
  split <;> omega

/-! ## A float as an integer times an even power -/

/-- The exponent of the root. -/
def rootExponent (m : Nat) (e : Int) : Int := (totalExponent m e + 1) / 2 - 53

/-- The integer whose root is taken. -/
def radicand (m : Nat) (e : Int) : Nat := m * 2 ^ (e - 2 * rootExponent m e).toNat

namespace Canonical

variable {m m' : Nat} {e e' : Int}

theorem log2_le (hc : Canonical m e) (hm : 0 < m) : m.log2 ≤ 52 := by
  have hlt := (Nat.log2_lt (by omega)).mpr hc.lt
  omega

theorem log2_eq (hc : Canonical m e) (hm : 0 < m) : m.log2 = 52 ∨ e = -1074 := by
  rcases hc.normal with hn | he
  · have hge := (Nat.le_log2 (by omega)).mpr hn
    have hle := hc.log2_le hm
    omega
  · exact .inr he

theorem rootExponent_bounds (hc : Canonical m e) (hm : 0 < m) :
    -589 ≤ rootExponent m e ∧ rootExponent m e ≤ 459 ∧ 2 * rootExponent m e ≤ e ∧
      104 ≤ m.log2 + (e - 2 * rootExponent m e).toNat ∧
      m.log2 + (e - 2 * rootExponent m e).toNat ≤ 105 := by
  have hle := hc.log2_le hm
  have heq := hc.log2_eq hm
  have hge := hc.exponent_ge
  have hhi := hc.exponent_le
  unfold rootExponent totalExponent
  omega

/-- **The radicand has 105 or 106 bits.** -/
theorem radicand_bounds (hc : Canonical m e) (hm : 0 < m) :
    2 ^ 104 ≤ radicand m e ∧ radicand m e < 2 ^ 106 := by
  obtain ⟨-, -, -, hlo, hhi⟩ := hc.rootExponent_bounds hm
  unfold radicand
  generalize (e - 2 * rootExponent m e).toNat = k at *
  have hml : 2 ^ m.log2 ≤ m := Nat.log2_self_le (by omega)
  have hmh : m < 2 ^ (m.log2 + 1) := Nat.lt_log2_self
  constructor
  · calc 2 ^ 104 ≤ 2 ^ (m.log2 + k) := Nat.pow_le_pow_right (by decide) hlo
      _ = 2 ^ m.log2 * 2 ^ k := Nat.pow_add ..
      _ ≤ m * 2 ^ k := Nat.mul_le_mul_right _ hml
  · calc m * 2 ^ k < 2 ^ (m.log2 + 1) * 2 ^ k := Nat.mul_lt_mul_of_pos_right hmh (Nat.two_pow_pos k)
      _ = 2 ^ (m.log2 + 1 + k) := (Nat.pow_add ..).symm
      _ ≤ 2 ^ 106 := Nat.pow_le_pow_right (by decide) (by omega)

theorem root_bounds (hc : Canonical m e) (hm : 0 < m) :
    2 ^ 52 ≤ nearestRoot (radicand m e) ∧ nearestRoot (radicand m e) ≤ 2 ^ 53 :=
  nearestRoot_bounds (hc.radicand_bounds hm).1 (hc.radicand_bounds hm).2

theorem root_pos (hc : Canonical m e) (hm : 0 < m) : 0 < nearestRoot (radicand m e) :=
  Nat.lt_of_lt_of_le (by decide) (hc.root_bounds hm).1

/-- **A greater float has no lesser root exponent.** -/
theorem rootExponent_mono (hc : Canonical m e) (hc' : Canonical m' e') (hm : 0 < m) (hm' : 0 < m')
    (h : e < e' ∨ e = e' ∧ m ≤ m') : rootExponent m e ≤ rootExponent m' e' := by
  have hlog : e + m.log2 ≤ e' + m'.log2 := by
    rcases h with hlt | ⟨rfl, hle⟩
    · have hle := hc.log2_le hm
      have heq := hc'.log2_eq hm'
      have hge := hc.exponent_ge
      omega
    · have hlog : m.log2 ≤ m'.log2 :=
        (Nat.le_log2 (by omega)).mpr (Nat.le_trans (Nat.log2_self_le (by omega)) hle)
      omega
  unfold rootExponent totalExponent
  omega

/-- **Of two floats with one root exponent, the greater has no lesser radicand.** -/
theorem radicand_mono (hc : Canonical m e) (hc' : Canonical m' e') (hm : 0 < m)
    (h : e < e' ∨ e = e' ∧ m ≤ m') (hq : rootExponent m e = rootExponent m' e') :
    radicand m e ≤ radicand m' e' := by
  obtain ⟨-, -, heven, -, -⟩ := hc.rootExponent_bounds hm
  unfold radicand
  rw [← hq]
  rcases h with hlt | ⟨rfl, hle⟩
  · -- one more in the exponent makes up for any mantissa
    have hm' : 2 ^ 52 ≤ m' := by
      have hge := hc.exponent_ge
      have hn := hc'.normal
      omega
    have hmm : m ≤ m' * 2 := by
      have hlt := hc.lt
      omega
    calc m * 2 ^ (e - 2 * rootExponent m e).toNat
        ≤ m' * 2 * 2 ^ (e - 2 * rootExponent m e).toNat := Nat.mul_le_mul_right _ hmm
      _ = m' * 2 ^ ((e - 2 * rootExponent m e).toNat + 1) := by
          rw [Nat.pow_succ, Nat.mul_assoc, Nat.mul_comm 2]
      _ ≤ m' * 2 ^ (e' - 2 * rootExponent m e).toNat :=
          Nat.mul_le_mul_left _ (Nat.pow_le_pow_right (by decide) (by omega))
  · exact Nat.mul_le_mul_right _ hle

end Canonical

/-! ## Rounding and packing the root -/

/-- A root and its exponent, where a root of `2 ^ 53` is carried into the exponent. -/
def carried (r : Nat) (q : Int) (h : 0 < r) : UnpackedFloat :=
  if r < 2 ^ 53 then .finite .positive r q h else .finite .positive (2 ^ 52) (q + 1) (by decide)

theorem targetExponent_root {r : Nat} {q : Int} (hl : 2 ^ 52 ≤ r) (hh : r < 2 ^ 53)
    (hq : -1074 ≤ q) : Format.binary64.targetExponent (totalExponent r q) = q := by
  have hlog : r.log2 = 52 := (Nat.log2_eq_iff (by omega)).mpr ⟨hl, hh⟩
  simp only [Format.targetExponent, totalExponent, hlog, Format.mantissaBits, Format.minExponent]
  omega

theorem shiftToTargetExponent_root {r : Nat} {q : Int} (hl : 2 ^ 52 ≤ r) (hh : r < 2 ^ 53)
    (hq : -1074 ≤ q) (a : Accuracy) : shiftToTargetExponent .binary64 r q a =
      (ExtendedMantissa.ofMantissaAndAccuracy r a, q) := by
  simp only [shiftToTargetExponent, targetExponent_root hl hh hq, shiftToExponent, Int.sub_self,
    Int.toNat_zero]
  rw [show ((0 : Nat) : Int) = 0 from rfl, Int.add_zero]
  rfl

theorem shiftToTargetExponent_carry {q : Int} (hq : -1074 ≤ q) :
    shiftToTargetExponent .binary64 (2 ^ 53) q .exact = (⟨2 ^ 52, false, false⟩, q + 1) := by
  have ht : Format.binary64.targetExponent (totalExponent (2 ^ 53) q) = q + 1 := by
    simp only [Format.targetExponent, totalExponent, Nat.log2_two_pow, Format.mantissaBits,
      Format.minExponent]
    omega
  have hshift : (q + 1 - q).toNat = 1 := by omega
  simp only [shiftToTargetExponent, ht, shiftToExponent, hshift]
  rfl

/-- A root of 53 bits is rounded to the neighbour that its accuracy asks for. -/
theorem roundWithAccuracy_root {r k : Nat} {q : Int} (hl : 2 ^ 52 ≤ r) (hh : r < 2 ^ 53)
    (hq : -1074 ≤ q) (a : Accuracy) (hk : a.roundToNearestEven r = k) (hkl : 2 ^ 52 ≤ k)
    (hkh : k ≤ 2 ^ 53) : roundWithAccuracy .binary64 .positive r q a = carried k q (by omega) := by
  have hround : (ExtendedMantissa.ofMantissaAndAccuracy r a).roundedMantissa = k := by
    rw [← hk]
    rcases a with _ | (_ | _ | _) <;> rfl
  simp only [roundWithAccuracy, shiftToTargetExponent_root hl hh hq, hround]
  rcases Nat.lt_or_eq_of_le hkh with hlt | rfl
  · simp only [shiftToTargetExponent_root hkl hlt hq, ExtendedMantissa.ofMantissaAndAccuracy,
      carried, if_pos hlt]
    rw [dif_neg (by omega)]
  · simp only [shiftToTargetExponent_carry hq]
    rfl

variable {m : Nat} {e : Int}

/-- **The root of a finite float**, in the three steps. -/
theorem sqrt_finite (hm : 0 < m) (hc : Canonical m e) :
    UnpackedFloat.sqrt .binary64 (.finite .positive m e hm) =
      carried (nearestRoot (radicand m e)) (rootExponent m e) (hc.root_pos hm) := by
  obtain ⟨hql, hqh, hqe, -, -⟩ := hc.rootExponent_bounds hm
  obtain ⟨hrl, hrh⟩ := hc.radicand_bounds hm
  obtain ⟨hsl, hsh⟩ := sqrt_bounds hrl hrh
  obtain ⟨hnl, hnh⟩ := hc.root_bounds hm
  have htarget : Format.binary64.targetExponent ((totalExponent m e + 1).ediv 2)
      = rootExponent m e := by
    unfold rootExponent at hql ⊢
    simp only [Format.targetExponent, Format.mantissaBits, Format.minExponent]
    show max ((totalExponent m e + 1) / 2 - _) _ = _
    omega
  have hmin : min (e.ediv 2) (rootExponent m e) = rootExponent m e := by
    show min (e / 2) _ = _
    omega
  simp only [UnpackedFloat.sqrt, sqrtCore, htarget, hmin, Nat.shiftLeft_eq]
  refine roundWithAccuracy_root hsl hsh (by omega) _ ?_ hnl hnh
  show Accuracy.roundToNearestEven (radicand m e).sqrt
    (if radicand m e - (radicand m e).sqrt * (radicand m e).sqrt = 0 then .exact else _) = _
  -- an exact root is the nearest one, and the remainder of any other decides
  unfold nearestRoot
  by_cases h0 : radicand m e - (radicand m e).sqrt * (radicand m e).sqrt = 0
  · rw [if_pos h0, if_pos (by omega)]
    rfl
  · rw [if_neg h0]
    split
    · rw [if_pos ‹_›]
      rfl
    · rw [if_neg ‹_›]
      rfl

theorem Canonical.repacked_carried (hc : Canonical m e) (hm : 0 < m) :
    repacked (carried (nearestRoot (radicand m e)) (rootExponent m e) (hc.root_pos hm)) =
      carried (nearestRoot (radicand m e)) (rootExponent m e) (hc.root_pos hm) := by
  obtain ⟨hql, hqh, -⟩ := hc.rootExponent_bounds hm
  obtain ⟨hnl, hnh⟩ := hc.root_bounds hm
  unfold carried
  split
  · exact repacked_normal hnl ⟨by omega, by omega, by omega, .inl hnl⟩
  · exact repacked_normal (by decide) ⟨by decide, by omega, by omega, .inl (by decide)⟩

/-! ## Roots in order -/

variable {x y : Float}

theorem unpacked_sqrt_zero {s : Sign} (h : unpacked x = .zero s) : unpacked x.sqrt = .zero s := by
  rw [unpacked_sqrt, h]
  cases s <;> rfl

theorem unpacked_sqrt_infinity (h : unpacked x = .infinity .positive) :
    unpacked x.sqrt = .infinity .positive := by
  rw [unpacked_sqrt, h]
  rfl

theorem unpacked_sqrt_finite {hm : 0 < m} (h : unpacked x = .finite .positive m e hm) :
    unpacked x.sqrt = carried (nearestRoot (radicand m e)) (rootExponent m e)
      ((canonical_of_unpacked h).root_pos hm) := by
  rw [unpacked_sqrt, h, sqrt_finite hm (canonical_of_unpacked h),
    (canonical_of_unpacked h).repacked_carried hm]

/-- What is not below zero is a zero, a positive finite float or the positive infinity. -/
theorem cases_of_nonneg (h : 0.0 ≤ x) : (∃ s, unpacked x = .zero s) ∨
    (∃ m e hm, unpacked x = .finite .positive m e hm) ∨ unpacked x = .infinity .positive := by
  rw [le_iff_compare, show unpacked 0.0 = .zero .positive by rfl] at h
  cases hx : unpacked x with
  | notANumber => rw [hx] at h; cases h
  | zero s => exact .inl ⟨s, rfl⟩
  | infinity s =>
    rw [hx] at h
    cases s
    · cases h
    · exact .inr (.inr rfl)
  | finite s m e hm =>
    rw [hx] at h
    cases s
    · cases h
    · exact .inr (.inl ⟨m, e, hm, rfl⟩)

/-- What has a positive sign is not below zero. -/
theorem nonneg_of_signed (h : Signed .positive (unpacked x)) : 0.0 ≤ x := by
  rw [le_iff_compare, show unpacked 0.0 = .zero .positive by rfl]
  cases hx : unpacked x with
  | notANumber => exact absurd hx h.ne_notANumber
  | infinity s => rw [hx] at h; cases h; rfl
  | zero s => rfl
  | finite s m e hm => rw [hx] at h; cases h; rfl

/-- What lies between zero and a finite float is finite. -/
theorem isFinite_of_le (h0 : 0.0 ≤ x) (h : x ≤ y) (hy : y.isFinite) : x.isFinite := by
  rw [isFinite_iff]
  rcases cases_of_nonneg h0 with hx | ⟨m, e, hm, hx⟩ | hx
  · exact .inl hx
  · exact .inr ⟨_, m, e, hm, hx⟩
  · rw [le_iff_compare, hx] at h
    rcases isFinite_iff.mp hy with ⟨s, hy⟩ | ⟨s, m, e, hm, hy⟩ <;> rw [hy] at h <;> cases h

theorem rank_carried (r : Nat) (q : Int) (h : 0 < r) : rank (carried r q h) =
    toLex (1, toLex (if r < 2 ^ 53 then (q, (r : Int)) else (q + 1, 2 ^ 52))) := by
  unfold carried
  split <;> rfl

/-- Carrying keeps the order of exponents and roots. -/
theorem rank_carried_le {r r' : Nat} {q q' : Int} {h : 0 < r} {h' : 0 < r'} (hr : r ≤ 2 ^ 53)
    (hr' : 2 ^ 52 ≤ r') (hle : q < q' ∨ q = q' ∧ r ≤ r') :
    rank (carried r q h) ≤ rank (carried r' q' h') := by
  rw [rank_carried, rank_carried, Prod.Lex.toLex_le_toLex]
  refine .inr ⟨rfl, ?_⟩
  split <;> split <;> rw [Prod.Lex.toLex_le_toLex] <;> simp only <;> omega

/-- The root of what is not below zero is a number. -/
theorem isNaN_sqrt_of_nonneg (h : 0.0 ≤ x) : x.sqrt.isNaN = false := by
  rw [← ne_notANumber_iff]
  rcases cases_of_nonneg h with ⟨s, hx⟩ | ⟨m, e, hm, hx⟩ | hx
  · rw [unpacked_sqrt_zero hx]
    exact nofun
  · rw [unpacked_sqrt_finite hx]
    unfold carried
    split <;> exact nofun
  · rw [unpacked_sqrt_infinity hx]
    exact nofun

/-- **The square root is monotone.** -/
theorem sqrt_le_sqrt (h0 : 0.0 ≤ x) (h : x ≤ y) : x.sqrt ≤ y.sqrt := by
  have h0' := le_trans h0 h
  obtain ⟨hx, hy⟩ := isNaN_eq_false_of_le h
  rw [le_iff (isNaN_sqrt_of_nonneg h0) (isNaN_sqrt_of_nonneg h0')]
  have hr := (le_iff hx hy).mp h
  rcases cases_of_nonneg h0 with ⟨s, hx⟩ | ⟨m, e, hm, hx⟩ | hx <;>
    rcases cases_of_nonneg h0' with ⟨s', hy⟩ | ⟨m', e', hm', hy⟩ | hy <;>
    rw [hx, hy] at hr
  · rw [unpacked_sqrt_zero hx, unpacked_sqrt_zero hy]
    rfl
  · rw [unpacked_sqrt_zero hx, unpacked_sqrt_finite hy, rank_carried]
    exact Prod.Lex.toLex_le_toLex.mpr (.inl (show (0 : ℤ) < 1 by decide))
  · rw [unpacked_sqrt_zero hx, unpacked_sqrt_infinity hy]
    exact Prod.Lex.toLex_le_toLex.mpr (.inl (by decide))
  · exact absurd hr (by simp [rank, Prod.Lex.toLex_le_toLex])
  -- only here do both roots depend on the values
  · have hc := canonical_of_unpacked hx
    have hc' := canonical_of_unpacked hy
    have hle : e < e' ∨ e = e' ∧ m ≤ m' := by
      simpa [rank, Prod.Lex.toLex_le_toLex] using hr
    rw [unpacked_sqrt_finite hx, unpacked_sqrt_finite hy]
    refine rank_carried_le (hc.root_bounds hm).2 (hc'.root_bounds hm').1 ?_
    rcases (hc.rootExponent_mono hc' hm hm' hle).lt_or_eq with hlt | heq
    · exact .inl hlt
    · exact .inr ⟨heq, nearestRoot_mono (hc.radicand_mono hc' hm hle heq)⟩
  · rw [unpacked_sqrt_finite hx, unpacked_sqrt_infinity hy, rank_carried]
    exact Prod.Lex.toLex_le_toLex.mpr (.inl (show (1 : ℤ) < 2 by decide))
  · exact absurd hr (by simp [rank, Prod.Lex.toLex_le_toLex])
  · exact absurd hr (by simp [rank, Prod.Lex.toLex_le_toLex])
  · rw [unpacked_sqrt_infinity hx, unpacked_sqrt_infinity hy]

end Phototaxis.Number
