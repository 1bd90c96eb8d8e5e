import Mathlib
import Phototaxis.Proofs.Number.Exact
import Phototaxis.Proofs.Number.Magnitude

/-!
# Floats made of bits

A word below the bits of the infinity is the bits of a finite float that is not negative.
It holds the exponent in its upper bits and the fraction in its lower ones, and read as a
number it says how many floats there are from zero to the one it stands for
(`magnitude_ofBits`). Hence such floats are ordered as their bits are (`ofBits_le_ofBits`),
and who makes up the bits of a float knows between which floats it lies.
-/

namespace Phototaxis.Number

open Float.Model (Format UnpackedFloat)
open Float.Model.UnpackedFloat

variable {bits low high : UInt64} {x : Float}

/-- The bits of the infinity. -/
def infinityBits : ℕ := 0x7FF0000000000000

/-! ## The fields of a word -/

theorem toNat_exponentField (bits : UInt64) :
    ((bits >>> 52) &&& 0x7FF).toNat = bits.toNat / 2 ^ 52 % 2 ^ 11 := by
  rw [UInt64.toNat_and, UInt64.toNat_shiftRight, ← Nat.shiftRight_eq_div_pow]
  exact Nat.and_two_pow_sub_one_eq_mod _ 11

theorem toNat_fractionField (bits : UInt64) :
    (bits &&& 0xFFFFFFFFFFFFF).toNat = bits.toNat % 2 ^ 52 := by
  rw [UInt64.toNat_and]
  exact Nat.and_two_pow_sub_one_eq_mod _ 52

theorem signField_eq (bits : UInt64) : (bits >>> 63 == 1) = decide (2 ^ 63 ≤ bits.toNat) := by
  have hlt := bits.toNat_lt
  rw [Bool.eq_iff_iff, beq_iff_eq, decide_eq_true_iff, ← UInt64.toNat_inj,
    UInt64.toNat_shiftRight]
  show bits.toNat >>> 63 = 1 ↔ _
  rw [Nat.shiftRight_eq_div_pow]
  omega

/-- A word without its sign counts the floats from zero on, and the sign goes beside them. -/
theorem magnitude_ofBits_signed (h : bits.toNat % 2 ^ 63 < infinityBits) : ∃ m e, Canonical m e ∧
    ((bits.toNat % 2 ^ 63 : ℕ) : ℤ) = m + (e + 1074) * 2 ^ 52 ∧
      Magnitude.ofBits bits = .finite (decide (2 ^ 63 ≤ bits.toNat)) ⟨m, e⟩ := by
  have hlt := bits.toNat_lt
  unfold infinityBits at h
  unfold Magnitude.ofBits
  rw [toNat_exponentField, toNat_fractionField, signField_eq]
  generalize decide (2 ^ 63 ≤ bits.toNat) = negative
  dsimp only
  generalize hn : bits.toNat % 2 ^ 63 = n at h
  -- neither of the two fields reaches up to the sign
  have hexp : bits.toNat / 2 ^ 52 % 2 ^ 11 = n / 2 ^ 52 := by omega
  have hfrac : bits.toNat % 2 ^ 52 = n % 2 ^ 52 := by omega
  rw [hexp, hfrac]
  have hsplit := Nat.div_add_mod n (2 ^ 52)
  have hfraction := Nat.mod_lt n (Nat.two_pow_pos 52)
  have hexponent : n / 2 ^ 52 < 0x7FF := by omega
  generalize n % 2 ^ 52 = fraction at hsplit hfraction
  generalize n / 2 ^ 52 = exponent at hsplit hexponent
  rw [if_neg (by rw [beq_iff_eq]; omega)]
  by_cases h0 : exponent = 0
  · rw [if_pos (beq_iff_eq.mpr h0)]
    refine ⟨fraction, -1074, ⟨by omega, le_rfl, by omega, .inr rfl⟩, by omega, rfl⟩
  · rw [if_neg (by rwa [beq_iff_eq])]
    unfold Dyadic.leastNormal
    refine ⟨_, _, ⟨?_, ?_, ?_, .inl ?_⟩, ?_, rfl⟩ <;> omega

/-- **Bits count the floats from zero on.** -/
theorem magnitude_ofBits (h : bits.toNat < infinityBits) : ∃ m e, Canonical m e ∧
    (bits.toNat : ℤ) = m + (e + 1074) * 2 ^ 52 ∧
      Magnitude.ofBits bits = .finite false ⟨m, e⟩ := by
  have hlt : bits.toNat < 2 ^ 63 := by
    unfold infinityBits at h
    omega
  have hsigned := @magnitude_ofBits_signed bits (by rwa [Nat.mod_eq_of_lt hlt])
  rwa [Nat.mod_eq_of_lt hlt, decide_eq_false (by omega)] at hsigned

/-- The float of some bits is unpacked to what the bits are read as. -/
theorem unpacked_ofBits_of_magnitude {s : Sign} {m : ℕ} {e : ℤ} (hc : Canonical m e)
    (h : Magnitude.ofBits bits = .finite (Magnitude.isNegative s) ⟨m, e⟩) :
    m = 0 ∧ unpacked (Float.ofBits bits) = .zero s ∨
      ∃ hm, unpacked (Float.ofBits bits) = .finite s m e hm := by
  have hz : unpacked (Float.ofBits bits)
      = repacked (unpack Format.binary64 bits.toBitVec) := rfl
  rw [Magnitude.ofBits_eq] at h
  cases hu : unpack Format.binary64 bits.toBitVec with
  | notANumber => rw [hu] at h; cases h
  | infinity t => rw [hu] at h; cases h
  | zero t =>
    rw [hu] at h hz
    cases t <;> cases s <;> cases h <;> exact .inl ⟨rfl, hz⟩
  | finite t m' e' hm =>
    rw [hu] at h hz
    cases t <;> cases s <;> cases h <;> rw [repacked_canonical hc] at hz <;>
      exact .inr ⟨hm, hz⟩

/-- What the float of such bits is unpacked to. -/
theorem unpacked_ofBits (h : bits.toNat < infinityBits) : ∃ m e, Canonical m e ∧
    (bits.toNat : ℤ) = m + (e + 1074) * 2 ^ 52 ∧
      (m = 0 ∧ unpacked (Float.ofBits bits) = .zero .positive ∨
        ∃ hm, unpacked (Float.ofBits bits) = .finite .positive m e hm) := by
  obtain ⟨m, e, hc, hbits, hmagnitude⟩ := magnitude_ofBits h
  exact ⟨m, e, hc, hbits, unpacked_ofBits_of_magnitude hc hmagnitude⟩

/-! ## The order of such floats -/

theorem isFinite_ofBits (h : bits.toNat < infinityBits) : (Float.ofBits bits).isFinite := by
  obtain ⟨m, e, -, -, ⟨-, hu⟩ | ⟨hm, hu⟩⟩ := unpacked_ofBits h
  · exact isFinite_iff.mpr (.inl ⟨_, hu⟩)
  · exact isFinite_iff.mpr (.inr ⟨_, _, _, _, hu⟩)

theorem nonneg_ofBits (h : bits.toNat < infinityBits) : 0.0 ≤ Float.ofBits bits := by
  obtain ⟨m, e, -, -, ⟨-, hu⟩ | ⟨hm, hu⟩⟩ := unpacked_ofBits h
  · exact nonneg_of_signed (hu ▸ .zero)
  · exact nonneg_of_signed (hu ▸ .finite ..)

/-- **Floats are ordered as their bits are**, if they are not negative. -/
theorem ofBits_le_ofBits (h : low.toNat ≤ high.toNat) (hhigh : high.toNat < infinityBits) :
    Float.ofBits low ≤ Float.ofBits high := by
  have hlow := h.trans_lt hhigh
  rw [le_iff (isNaN_of_isFinite (isFinite_ofBits hlow)) (isNaN_of_isFinite (isFinite_ofBits hhigh))]
  obtain ⟨m, e, hc, hbits, hu⟩ := unpacked_ofBits hlow
  obtain ⟨m', e', hc', hbits', hu'⟩ := unpacked_ofBits hhigh
  obtain ⟨hlt, hge, -, hnormal⟩ := hc
  obtain ⟨hlt', hge', -, hnormal'⟩ := hc'
  rcases hu with ⟨rfl, hu⟩ | ⟨hm, hu⟩ <;> rcases hu' with ⟨rfl, hu'⟩ | ⟨hm', hu'⟩ <;> rw [hu, hu']
  · exact Prod.Lex.toLex_le_toLex.mpr (.inl zero_lt_one)
  · omega
  -- between finite floats the exponents decide, and where they agree the mantissas
  · refine Prod.Lex.toLex_le_toLex.mpr (.inr ⟨rfl, Prod.Lex.toLex_le_toLex.mpr ?_⟩)
    dsimp only
    omega

/-! ## The bits of such floats -/

/-- **A float that is not negative has such bits**, unless it is the negative zero. -/
theorem toNat_toBits (hx : x.isFinite) (h0 : 0.0 ≤ x) :
    x.toBits.toNat < infinityBits ∨ x.toBits.toNat = 2 ^ 63 := by
  have hmagnitude := Magnitude.of_eq x
  rw [Magnitude.of, Magnitude.ofBits, toNat_exponentField, toNat_fractionField, signField_eq]
    at hmagnitude
  have hlt := x.toBits.toNat_lt
  unfold infinityBits
  generalize x.toBits.toNat = n at hmagnitude hlt ⊢
  rcases cases_of_nonneg h0 with ⟨s, hu⟩ | ⟨m, e, hm, hu⟩ | hu <;> rw [hu] at hmagnitude
  · simp only [beq_iff_eq, Magnitude.ofUnpacked] at hmagnitude
    split_ifs at hmagnitude <;>
      simp only [Magnitude.finite.injEq, Dyadic.mk.injEq] at hmagnitude
    · omega
    · exact absurd hmagnitude.2.1 (by unfold Dyadic.leastNormal; omega)
  · simp only [beq_iff_eq, Magnitude.ofUnpacked, Magnitude.isNegative] at hmagnitude
    split_ifs at hmagnitude <;>
      simp only [Magnitude.finite.injEq, decide_eq_false_iff_not] at hmagnitude <;> omega
  · rcases isFinite_iff.mp hx with ⟨s, hu'⟩ | ⟨s, m, e, hm, hu'⟩ <;> rw [hu'] at hu <;> cases hu

/-! ## Fractions by chance -/

/-- The upper bits of a word, put below the bits of a power of two. -/
theorem toNat_or_of_power {power : UInt64} {e : ℕ} (hpower : power.toNat = e <<< 52)
    (word : UInt64) : ((word >>> 12) ||| power).toNat = power.toNat + word.toNat / 2 ^ 12 := by
  have hword := word.toNat_lt
  have hshift : (word >>> 12).toNat = word.toNat / 2 ^ 12 := by
    rw [UInt64.toNat_shiftRight, ← Nat.shiftRight_eq_div_pow]
    rfl
  rw [UInt64.toNat_or, hshift, hpower, Nat.or_comm, Nat.shiftLeft_add_eq_or_of_lt (by omega)]

/-- **Whatever the word**, such a float lies between the power and the last float before the next,
and so it does after a subtraction. -/
theorem ofBits_or_sub_bounds {power last : UInt64} {e : ℕ} (hpower : power.toNat = e <<< 52)
    (hlast : last.toNat = power.toNat + (2 ^ 52 - 1)) (he : e < 0x7FF) (hx : x.isFinite)
    (word : UInt64) :
    Float.ofBits power - x ≤ Float.ofBits ((word >>> 12) ||| power) - x ∧
      Float.ofBits ((word >>> 12) ||| power) - x ≤ Float.ofBits last - x := by
  have hword := word.toNat_lt
  have hbits := toNat_or_of_power hpower word
  have hshift := Nat.shiftLeft_eq e 52
  have hinfinity : last.toNat < infinityBits := by
    unfold infinityBits
    omega
  have hlow : power.toNat ≤ ((word >>> 12) ||| power).toNat := by omega
  have hhigh : ((word >>> 12) ||| power).toNat ≤ last.toNat := by omega
  have hfinite := isFinite_ofBits (hhigh.trans_lt hinfinity)
  constructor
  · refine Number.sub_le_sub_right (ofBits_le_ofBits hlow (hhigh.trans_lt hinfinity)) ?_ hfinite hx
    exact isFinite_ofBits ((hlow.trans hhigh).trans_lt hinfinity)
  · exact Number.sub_le_sub_right (ofBits_le_ofBits hhigh hinfinity) hfinite
      (isFinite_ofBits hinfinity) hx

end Phototaxis.Number
