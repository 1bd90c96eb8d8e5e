import Mathlib
import Phototaxis.Proofs.Number.SquareRoot

/-!
# What rounding makes of an exact result

Sums, products and quotients of floats are computed in two steps: some leading bits of
the exact result are found, with a note on what was cut off (`Stands`), and these are
rounded to the nearest mantissa that fits the format, ties going to the even one. Here
the second step is followed from the exact result, a rational number, to the float that
is left after packing (`exact_repacked_roundWithAccuracy`).

The bits that are shifted out are kept in two residual bits only. That this is enough is
the content of `Stands.shiftRight`: shifting halves the number that is stood for, and the
residual bits go on telling on which side of the middle it lies.

Everything is said of magnitudes; the sign is carried along. An infinity counts as the
power of two that lies just above all floats, since it is there that rounding overflows.
-/

namespace Phototaxis.Number

open Float.Model (Format UnpackedFloat totalExponent)
open Float.Model.UnpackedFloat

/-! ## The nearest integer -/

/-- The integer nearest to a number that is not negative; of two equally near ones the even one. -/
def nearest (r : ℚ) : ℕ :=
  if r - ⌊r⌋₊ < 1 / 2 then ⌊r⌋₊
  else if 1 / 2 < r - ⌊r⌋₊ then ⌊r⌋₊ + 1
  else ⌊r⌋₊ + ⌊r⌋₊ % 2

theorem floor_le_nearest (r : ℚ) : ⌊r⌋₊ ≤ nearest r := by
  unfold nearest
  split_ifs <;> omega

theorem nearest_le_floor_add_one (r : ℚ) : nearest r ≤ ⌊r⌋₊ + 1 := by
  unfold nearest
  split_ifs <;> omega

theorem nearest_mono {r s : ℚ} (h : r ≤ s) : nearest r ≤ nearest s := by
  rcases (Nat.floor_le_floor h).lt_or_eq with hlt | heq
  · exact (nearest_le_floor_add_one r).trans ((Nat.succ_le_of_lt hlt).trans (floor_le_nearest s))
  · unfold nearest
    rw [heq]
    split_ifs <;> first | omega | linarith

theorem nearest_natCast (n : ℕ) : nearest n = n := by
  unfold nearest
  rw [Nat.floor_natCast, if_pos (by norm_num)]

theorem nearest_le_of_le {r : ℚ} {n : ℕ} (h : r ≤ n) : nearest r ≤ n :=
  (nearest_mono h).trans_eq (nearest_natCast n)

theorem le_nearest_of_le {r : ℚ} {n : ℕ} (h : n ≤ r) : n ≤ nearest r :=
  (nearest_natCast n).symm.trans_le (nearest_mono h)

/-! ## Leading bits and what was cut off -/

/-- Whether a mantissa, with a note on what was cut off, stands for a number. -/
def Stands (m : ℕ) : Accuracy → ℚ → Prop
  | .exact, r => r = m
  | .inexact .lt, r => m < r ∧ r < m + 1 / 2
  | .inexact .eq, r => r = m + 1 / 2
  | .inexact .gt, r => m + 1 / 2 < r ∧ r < m + 1

variable {m k : ℕ} {e q : ℤ} {a : Accuracy} {r : ℚ}

theorem Stands.bounds (h : Stands m a r) : (m : ℚ) ≤ r ∧ r < m + 1 := by
  rcases a with _ | (_ | _ | _) <;> simp only [Stands] at h <;> constructor <;> linarith

/-- **Rounding by the note is rounding to the nearest.** -/
theorem Stands.nearest_eq (h : Stands m a r) : a.roundToNearestEven m = nearest r := by
  obtain ⟨hle, hlt⟩ := h.bounds
  have hfloor : ⌊r⌋₊ = m := (Nat.floor_eq_iff (m.cast_nonneg.trans hle)).mpr ⟨hle, hlt⟩
  unfold nearest
  rw [hfloor]
  rcases a with _ | (_ | _ | _) <;> simp only [Stands] at h <;> split_ifs <;>
    first | rfl | (exfalso; linarith)

theorem accuracy_ofMantissaAndAccuracy (m : ℕ) (a : Accuracy) :
    (ExtendedMantissa.ofMantissaAndAccuracy m a).mantissa = m ∧
      (ExtendedMantissa.ofMantissaAndAccuracy m a).accuracy = a := by
  rcases a with _ | (_ | _ | _) <;> exact ⟨rfl, rfl⟩

/-- Shifting by one place halves the number. -/
theorem Stands.shiftRightOne {em : ExtendedMantissa} (h : Stands em.mantissa em.accuracy r) :
    Stands em.shiftRightOne.mantissa em.shiftRightOne.accuracy (r / 2) := by
  obtain ⟨m, round, sticky⟩ := em
  have hsplit : (m : ℚ) = 2 * (m / 2 : ℕ) + (m % 2 : ℕ) := by
    exact_mod_cast (Nat.div_add_mod m 2).symm
  have hlast : m % 2 = 0 ∧ (m % 2 != 0) = false ∨ m % 2 = 1 ∧ (m % 2 != 0) = true := by
    rcases Nat.mod_two_eq_zero_or_one m with hm | hm <;> simp [hm]
  unfold ExtendedMantissa.shiftRightOne
  -- the last bit becomes the round bit, and what was the round bit only counts as a rest
  rcases hlast with ⟨hm, hbit⟩ | ⟨hm, hbit⟩ <;> rw [hm] at hsplit <;> push_cast at hsplit <;>
    rw [hbit] <;> cases round <;> cases sticky <;>
    simp only [Stands, ExtendedMantissa.accuracy, Bool.or_false, Bool.or_true] at h ⊢ <;>
    first | linarith | (constructor <;> linarith)

/-- **Shifting by some places divides by the power of two.** -/
theorem Stands.shiftRight {em : ExtendedMantissa} (h : Stands em.mantissa em.accuracy r) (n : ℕ) :
    Stands (em >>> n).mantissa (em >>> n).accuracy (r / 2 ^ n) := by
  show Stands (n.repeat ExtendedMantissa.shiftRightOne em).mantissa
    (n.repeat ExtendedMantissa.shiftRightOne em).accuracy _
  induction n with
  | zero => rwa [pow_zero, div_one]
  | succ n ih =>
    rw [pow_succ, ← div_div]
    exact ih.shiftRightOne

/-! ## Rounding to the format -/

/-- Whether `k` units of `2 ^ q` are what a number that is not negative is rounded to: the unit is
the last place of the number, as far as the format goes, and `k` is the nearest multiple. -/
structure Rounds (r : ℚ) (k : ℕ) (q : ℤ) : Prop where
  exponent_ge : -1074 ≤ q
  lt : r < 2 ^ 53 * 2 ^ q
  normal : q = -1074 ∨ 2 ^ 52 * 2 ^ q ≤ r
  eq_nearest : k = nearest (r / 2 ^ q)

namespace Rounds

theorem le (h : Rounds r k q) : k ≤ 2 ^ 53 := by
  rw [h.eq_nearest]
  refine nearest_le_of_le ?_
  rw [div_le_iff₀ (by positivity)]
  push_cast
  exact h.lt.le

theorem ge_of_normal (h : Rounds r k q) (hq : q ≠ -1074) : 2 ^ 52 ≤ k := by
  rw [h.eq_nearest]
  refine le_nearest_of_le ?_
  rw [le_div_iff₀ (by positivity)]
  push_cast
  exact h.normal.resolve_left hq

/-- **Rounding is monotone.** -/
theorem mono {s : ℚ} {l : ℕ} {p : ℤ} (h : Rounds r k q) (h' : Rounds s l p) (hrs : r ≤ s) :
    (k : ℚ) * 2 ^ q ≤ l * 2 ^ p := by
  have hqp : q ≤ p := by
    rcases h.normal with hq | hq
    · exact hq.trans_le h'.exponent_ge
    · have hlt : (2 : ℚ) ^ (52 + q) < 2 ^ (53 + p) := by
        rw [zpow_add₀ two_ne_zero, zpow_add₀ two_ne_zero]
        exact (hq.trans hrs).trans_lt h'.lt
      have hexp := (zpow_lt_zpow_iff_right₀ one_lt_two).mp hlt
      omega
  rcases hqp.lt_or_eq with hlt | rfl
  -- the greater number has the greater unit, and enough of them
  · have hl := h'.ge_of_normal (by have := h.exponent_ge; omega)
    calc (k : ℚ) * 2 ^ q ≤ 2 ^ 53 * 2 ^ q := by
          refine mul_le_mul_of_nonneg_right ?_ (by positivity)
          exact_mod_cast h.le
      _ = 2 ^ 52 * 2 ^ (q + 1) := by
          rw [zpow_add_one₀ two_ne_zero]
          ring
      _ ≤ 2 ^ 52 * 2 ^ p := by
          refine mul_le_mul_of_nonneg_left ?_ (by positivity)
          exact zpow_le_zpow_right₀ one_le_two hlt
      _ ≤ l * 2 ^ p := by
          refine mul_le_mul_of_nonneg_right ?_ (by positivity)
          exact_mod_cast hl
  · rw [h.eq_nearest, h'.eq_nearest]
    refine mul_le_mul_of_nonneg_right ?_ (by positivity)
    exact_mod_cast nearest_mono (div_le_div_of_nonneg_right hrs (by positivity))

theorem zero : Rounds 0 0 (-1074) where
  exponent_ge := le_rfl
  lt := by positivity
  normal := .inl rfl
  eq_nearest := by
    rw [zero_div]
    exact (nearest_natCast 0).symm

/-- A number of the format is rounded to itself. -/
theorem self (hc : Canonical m e) : Rounds (m * 2 ^ e) m e where
  exponent_ge := hc.exponent_ge
  lt := by
    refine mul_lt_mul_of_pos_right ?_ (by positivity)
    exact_mod_cast hc.lt
  normal := by
    refine hc.normal.symm.imp_right (fun hm => ?_)
    refine mul_le_mul_of_nonneg_right ?_ (by positivity)
    exact_mod_cast hm
  eq_nearest := by
    rw [mul_div_cancel_right₀ _ (by positivity)]
    exact (nearest_natCast m).symm

end Rounds

/-- The last place that the format keeps of a mantissa and what follows it. -/
def lastPlace (m : ℕ) (e : ℤ) : ℤ := max (m.log2 + e - 52) (-1074)

theorem targetExponent_eq (m : ℕ) (e : ℤ) :
    Format.binary64.targetExponent (totalExponent m e) = lastPlace m e := by
  simp only [Format.targetExponent, totalExponent, Format.mantissaBits, Format.minExponent,
    lastPlace]
  omega

/-- What begins with a mantissa is below the full number of units of its last place. -/
theorem lt_of_lastPlace (h : r < (m + 1) * 2 ^ e) : r < 2 ^ 53 * 2 ^ lastPlace m e := by
  have hle : (m.log2 + 1 : ℕ) + e ≤ 53 + lastPlace m e := by
    unfold lastPlace
    push_cast
    omega
  calc r < (m + 1) * 2 ^ e := h
    _ ≤ 2 ^ (m.log2 + 1) * 2 ^ e := by
        refine mul_le_mul_of_nonneg_right ?_ (by positivity)
        exact_mod_cast Nat.lt_log2_self (n := m)
    _ = 2 ^ ((m.log2 + 1 : ℕ) + e) := by
        rw [zpow_add₀ two_ne_zero, zpow_natCast]
    _ ≤ 2 ^ (53 + lastPlace m e) := zpow_le_zpow_right₀ one_le_two hle
    _ = 2 ^ 53 * 2 ^ lastPlace m e := by
        rw [zpow_add₀ two_ne_zero]
        rfl

/-- And it has half of them, unless the last place is the very last one. -/
theorem le_of_lastPlace (h : (m : ℚ) * 2 ^ e ≤ r) (hm : m ≠ 0) (hlast : lastPlace m e ≠ -1074) :
    (2 : ℚ) ^ 52 * 2 ^ lastPlace m e ≤ r := by
  calc (2 : ℚ) ^ 52 * 2 ^ lastPlace m e = 2 ^ (52 + lastPlace m e) := by
        rw [zpow_add₀ two_ne_zero]
        rfl
    _ = 2 ^ m.log2 * 2 ^ e := by
        rw [← zpow_natCast, ← zpow_add₀ two_ne_zero]
        congr 1
        unfold lastPlace at hlast ⊢
        omega
    _ ≤ m * 2 ^ e := by
        refine mul_le_mul_of_nonneg_right ?_ (by positivity)
        exact_mod_cast Nat.log2_self_le hm
    _ ≤ r := h

/-- **The first shift finds the unit of the number**, unless bits are missing. -/
theorem Stands.rounds (h : Stands m a (r / 2 ^ e)) (he : e ≤ lastPlace m e) :
    Rounds r (shiftToTargetExponent .binary64 m e a).1.roundedMantissa (lastPlace m e) ∧
      (shiftToTargetExponent .binary64 m e a).2 = lastPlace m e := by
  obtain ⟨hlo, hhi⟩ := h.bounds
  rw [le_div_iff₀ (by positivity)] at hlo
  rw [div_lt_iff₀ (by positivity)] at hhi
  have hlt := lt_of_lastPlace hhi
  have hnormal : lastPlace m e = -1074 ∨ (2 : ℚ) ^ 52 * 2 ^ lastPlace m e ≤ r := by
    refine or_iff_not_imp_left.mpr (fun hlast => le_of_lastPlace hlo ?_ hlast)
    rintro rfl
    unfold lastPlace at he hlast
    rw [Nat.log2_zero] at he hlast
    omega
  have hlast : -1074 ≤ lastPlace m e := le_max_right _ _
  simp only [shiftToTargetExponent, targetExponent_eq, shiftToExponent]
  generalize lastPlace m e = q at he hlt hnormal hlast ⊢
  obtain ⟨n, hn⟩ := Int.eq_ofNat_of_zero_le (Int.sub_nonneg.mpr he)
  have hshifted : Stands (ExtendedMantissa.ofMantissaAndAccuracy m a >>> n).mantissa
      (ExtendedMantissa.ofMantissaAndAccuracy m a >>> n).accuracy (r / 2 ^ e / 2 ^ n) := by
    obtain ⟨hm, ha⟩ := accuracy_ofMantissaAndAccuracy m a
    refine Stands.shiftRight ?_ n
    rwa [hm, ha]
  have hpow : (2 : ℚ) ^ e * 2 ^ n = 2 ^ q := by
    rw [← zpow_natCast, ← zpow_add₀ two_ne_zero]
    congr 1
    omega
  rw [div_div, hpow] at hshifted
  have htoNat : (q - e).toNat = n := by omega
  rw [htoNat]
  exact ⟨⟨hlast, hlt, hnormal, hshifted.nearest_eq⟩, by omega⟩

/-! ## Packing -/

/-- A mantissa that is not full survives the packing at the least exponent. -/
theorem repacked_subnormal {s : Sign} {h : 0 < m} (hm : m < 2 ^ 52) :
    repacked (.finite s m (-1074) h) = .finite s m (-1074) h := by
  have hbias : ((Format.binary64.exponentBias : Nat) : Int) = 1023 := rfl
  have hlog : m.log2 < 52 := (Nat.log2_lt (by omega)).mpr hm
  show unpack Format.binary64 (UnpackedFloat.pack Format.binary64 _) = _
  rw [UnpackedFloat.pack]
  simp only [hbias]
  rw [if_neg (by decide), if_neg (show ¬ m.log2 + 1 = Format.binary64.mantissaBits from
      fun hbits => by simp only [Format.mantissaBits] at hbits; omega),
    unpack_packComponents, if_neg (by decide), if_pos rfl]
  have hmant : (BitVec.ofNat 52 m).toNat = m := by
    rw [BitVec.toNat_ofNat]
    exact Nat.mod_eq_of_lt hm
  rw [dif_neg]
  · simp only [hmant]
  · intro h0
    rw [h0] at hmant
    exact h.ne hmant

/-- What fits the format survives the packing. -/
theorem repacked_canonical {s : Sign} {h : 0 < m} (hc : Canonical m e) :
    repacked (.finite s m e h) = .finite s m e h := by
  rcases Nat.lt_or_ge m (2 ^ 52) with hlt | hge
  · obtain rfl : e = -1074 := hc.normal.resolve_left (Nat.not_le.mpr hlt)
    exact repacked_subnormal hlt
  · exact repacked_normal hge hc

/-- A full mantissa at too great an exponent overflows. -/
theorem repacked_overflow {s : Sign} {h : 0 < m} (he : 971 < e) :
    repacked (.finite s m e h) = .infinity s := by
  have hbias : ((Format.binary64.exponentBias : Nat) : Int) = 1023 := rfl
  show unpack Format.binary64 (UnpackedFloat.pack Format.binary64 _) = _
  rw [UnpackedFloat.pack]
  simp only [hbias]
  rw [if_pos (by omega)]
  cases s <;> rfl

/-- One or minus one. -/
def factor : Sign → ℚ
  | .negative => -1
  | .positive => 1

/-- The least power of two beyond all floats. -/
@[irreducible]
def overflow : ℚ := 2 ^ 1024

theorem overflow_pos : 0 < overflow := by
  unfold overflow
  positivity

/-- The exact value of a float; an infinity counts as the overflow. -/
def exact : UnpackedFloat → ℚ
  | .notANumber => 0
  | .infinity s => factor s * overflow
  | .zero _ => 0
  | .finite s m e _ => factor s * (m * 2 ^ e)

/-- Everything that fits the format is below the overflow. -/
theorem Canonical.lt_overflow (hc : Canonical m e) : (m : ℚ) * 2 ^ e < overflow := by
  calc (m : ℚ) * 2 ^ e ≤ m * 2 ^ (971 : ℤ) := by
        refine mul_le_mul_of_nonneg_left ?_ m.cast_nonneg
        exact zpow_le_zpow_right₀ one_le_two hc.exponent_le
    _ < 2 ^ 53 * 2 ^ (971 : ℤ) := by
        refine mul_lt_mul_of_pos_right ?_ (by positivity)
        exact_mod_cast hc.lt
    _ = overflow := by
        rw [overflow, show (971 : ℤ) = (971 : ℕ) from rfl, zpow_natCast, ← pow_add]

/-- **Packing loses nothing but what overflows.** -/
theorem exact_repacked_finite {s : Sign} {h : 0 < m} (hm : m < 2 ^ 53) (he : -1074 ≤ e)
    (hn : 2 ^ 52 ≤ m ∨ e = -1074) :
    exact (repacked (.finite s m e h)) = factor s * min ((m : ℚ) * 2 ^ e) overflow := by
  by_cases hle : e ≤ 971
  · rw [min_eq_left (Canonical.lt_overflow ⟨hm, he, hle, hn⟩).le]
    rcases Nat.lt_or_ge m (2 ^ 52) with hlt | hge
    · obtain rfl : e = -1074 := hn.resolve_left (Nat.not_le.mpr hlt)
      rw [repacked_subnormal hlt]
      rfl
    · rw [repacked_normal hge ⟨hm, he, hle, hn⟩]
      rfl
  · have hfull : 2 ^ 52 ≤ m := hn.resolve_right (by omega)
    have hover : overflow ≤ m * 2 ^ e := by
      calc overflow = 2 ^ 52 * 2 ^ (972 : ℤ) := by
            rw [overflow, show (972 : ℤ) = (972 : ℕ) from rfl, zpow_natCast, ← pow_add]
        _ ≤ 2 ^ 52 * 2 ^ e := by
            refine mul_le_mul_of_nonneg_left ?_ (by positivity)
            exact zpow_le_zpow_right₀ one_le_two (by omega)
        _ ≤ m * 2 ^ e := by
            refine mul_le_mul_of_nonneg_right ?_ (by positivity)
            exact_mod_cast hfull
    rw [repacked_overflow (by omega), min_eq_right hover]
    rfl

theorem shiftToTargetExponent_settled (hk : k < 2 ^ 53) (hq : -1074 ≤ q) :
    (shiftToTargetExponent .binary64 k q .exact).1.mantissa = k ∧
      (shiftToTargetExponent .binary64 k q .exact).2 = q := by
  have hlog : k.log2 ≤ 52 := by
    rcases k.eq_zero_or_pos with rfl | hpos
    · rw [Nat.log2_zero]
      exact Nat.zero_le _
    · exact Nat.lt_succ_iff.mp ((Nat.log2_lt hpos.ne').mpr hk)
  have hshift : (lastPlace k q - q).toNat = 0 := by
    unfold lastPlace
    omega
  simp only [shiftToTargetExponent, targetExponent_eq, shiftToExponent, hshift]
  exact ⟨rfl, Int.add_zero q⟩

/-- **What rounding and packing make of an exact result**: its nearest multiple of its unit, if that
does not overflow. -/
theorem exact_repacked_roundWithAccuracy (s : Sign) (h : Stands m a (r / 2 ^ e))
    (he : e ≤ lastPlace m e) : ∃ k q, Rounds r k q ∧
      exact (repacked (roundWithAccuracy .binary64 s m e a))
        = factor s * min ((k : ℚ) * 2 ^ q) overflow := by
  obtain ⟨hrounds, hq⟩ := h.rounds he
  refine ⟨_, _, hrounds, ?_⟩
  unfold roundWithAccuracy
  dsimp only
  rw [hq]
  generalize (shiftToTargetExponent .binary64 m e a).1.roundedMantissa = k at hrounds ⊢
  generalize lastPlace m e = q at hrounds ⊢
  rcases hrounds.le.lt_or_eq with hlt | rfl
  · obtain ⟨hmant, hexp⟩ := shiftToTargetExponent_settled hlt hrounds.exponent_ge
    simp only [hmant, hexp]
    split
    · rename_i hk
      rw [hk, Nat.cast_zero, zero_mul, min_eq_left overflow_pos.le, mul_zero]
      cases s <;> rfl
    · exact exact_repacked_finite hlt hrounds.exponent_ge
        (or_iff_not_imp_right.mpr hrounds.ge_of_normal)
  -- rounding up has filled all bits, and the mantissa is carried into the exponent
  · simp only [shiftToTargetExponent_carry hrounds.exponent_ge]
    rw [dif_neg (by decide), exact_repacked_finite (by decide)
      (by have := hrounds.exponent_ge; omega) (.inl le_rfl), zpow_add_one₀ two_ne_zero]
    congr 2
    push_cast
    ring

end Phototaxis.Number
