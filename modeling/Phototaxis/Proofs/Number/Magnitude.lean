import Mathlib
import Phototaxis.Number.Dyadic
import Phototaxis.Proofs.Number.Unpacked

/-!
# The bits of a float

The bits of a float are read in two ways: by the operations, which unpack it, and by
whoever writes it down, who reads it as a signed dyadic fraction. Both readings agree
(`Magnitude.ofBits_eq`), and they tell all floats apart (`unpacked_inj`).
-/

namespace Phototaxis

open Float.Model (Format UnpackedFloat)
open Float.Model.UnpackedFloat

/-- **A float is what it is unpacked to.** -/
theorem Number.unpacked_inj {x y : Float} : Number.unpacked x = Number.unpacked y ↔ x = y := by
  refine ⟨fun h => ?_, fun h => congrArg _ h⟩
  have hbits := (unpack_inj_of_valid x.toModel.valid y.toModel.valid).mp h
  exact Float.toBits_inj.mp (UInt64.toBitVec_inj.mp hbits)

namespace Magnitude

/-- Whether a sign is the negative one. -/
def isNegative : Sign → Bool
  | .negative => true
  | .positive => false

/-- The signed dyadic fraction of an unpacked float. -/
def ofUnpacked : UnpackedFloat → Magnitude
  | .notANumber => .nan
  | .infinity s => .infinite (isNegative s)
  | .zero s => .finite (isNegative s) ⟨0, -1074⟩
  | .finite s m e _ => .finite (isNegative s) ⟨m, e⟩

theorem toNat_unpackExponent (bits : UInt64) :
    ((bits >>> 52) &&& 0x7FF).toNat
      = (@unpackExponent .binary64 bits.toBitVec).toNat := by
  rw [unpackExponent_def, BitVec.extractLsb'_toNat, UInt64.toNat_and, UInt64.toNat_shiftRight]
  exact Nat.and_two_pow_sub_one_eq_mod _ 11

theorem toNat_unpackMantissa (bits : UInt64) :
    (bits &&& 0xFFFFFFFFFFFFF).toNat
      = (@unpackMantissa .binary64 bits.toBitVec).toNat := by
  rw [unpackMantissa_def, BitVec.extractLsb'_toNat, UInt64.toNat_and]
  exact Nat.and_two_pow_sub_one_eq_mod _ 52

theorem isNegative_unpackSign (bits : UInt64) :
    (bits >>> 63 == 1)
      = isNegative (Sign.ofBitVec (@unpackSign .binary64 bits.toBitVec)) := by
  have htop : (bits >>> 63).toNat = bits.toNat >>> 63 := UInt64.toNat_shiftRight ..
  have hsign : (@unpackSign .binary64 bits.toBitVec).toNat = bits.toNat >>> 63 % 2 := by
    rw [unpackSign_def]
    exact BitVec.extractLsb'_toNat ..
  have hlt : bits.toNat >>> 63 < 2 := by
    rw [Nat.shiftRight_eq_div_pow]
    exact Nat.div_lt_of_lt_mul bits.toNat_lt
  rw [Nat.mod_eq_of_lt hlt, ← htop] at hsign
  rw [← htop] at hlt
  generalize bits >>> 63 = top at hlt hsign
  generalize @unpackSign .binary64 bits.toBitVec = sign at hsign
  obtain h | h : top.toNat = 0 ∨ top.toNat = 1 := by omega
  · obtain rfl : top = 0 := UInt64.toNat_inj.mp h
    obtain rfl : sign = 0#1 := BitVec.eq_of_toNat_eq hsign
    rfl
  · obtain rfl : top = 1 := UInt64.toNat_inj.mp h
    obtain rfl : sign = 1#1 := BitVec.eq_of_toNat_eq hsign
    rfl

/-- **Both readings of the bits agree.** -/
theorem ofBits_eq (bits : UInt64) :
    ofBits bits = ofUnpacked (unpack Format.binary64 bits.toBitVec) := by
  have hfields := Number.unpack_packComponents (Sign.ofBitVec (@unpackSign .binary64 bits.toBitVec))
    (@unpackExponent .binary64 bits.toBitVec) (@unpackMantissa .binary64 bits.toBitVec)
  rw [packComponents_unpackSign_unpackExponent_unpackMantissa] at hfields
  unfold ofBits
  dsimp only
  rw [hfields, toNat_unpackExponent, toNat_unpackMantissa, isNegative_unpackSign]
  generalize @unpackExponent .binary64 bits.toBitVec = exponent
  generalize Sign.ofBitVec (@unpackSign .binary64 bits.toBitVec) = sign
  generalize @unpackMantissa .binary64 bits.toBitVec = mantissa
  change BitVec 11 at exponent
  change BitVec 52 at mantissa
  have hzero : ∀ {w} (b : BitVec w), (b.toNat == 0) = true ↔ b = 0#w := fun b => by
    rw [beq_iff_eq, ← BitVec.toNat_inj, BitVec.toNat_ofNat, Nat.zero_mod]
  have hlast : (exponent.toNat == 0x7FF) = true ↔ exponent = -1#11 := by
    rw [beq_iff_eq, ← BitVec.toNat_inj]
    rfl
  simp only [hzero, hlast]
  split_ifs with h₁ h₂ h₂ h₃
  · rfl
  · rfl
  · rw [h₃]
    rfl
  · rfl
  · rw [ofUnpacked, Number.toNat_one_append]
    rfl

theorem of_eq (x : Float) : of x = ofUnpacked (Number.unpacked x) := ofBits_eq x.toBits

end Magnitude

end Phototaxis
