import Mathlib
import Phototaxis.Geometry.Vector

/-!
# Floats, unpacked

An operation on floats unpacks its operands into a sign, a mantissa and an
exponent, computes there, and packs the result again. So what can be said of an
operation is said in three parts: what `unpacked` makes of the operands, what the
operation does with that, and what the packing leaves of it.

Packing is where overflow and underflow happen. It may turn a finite result into an
infinity or a zero, but it keeps the sign, and it never makes up a float that is no
number: `Signed` says so, and it is all that most arguments need. Where the result
fits the format nothing is lost at all (`repacked_normal`).

A float that is no number spoils everything computed from it. The converse needs a
case distinction – infinities of the same sign have no difference – and is proved
here only where lengths of vectors call for it.
-/

namespace Phototaxis.Number

open Float.Model (Format UnpackedFloat)
open Float.Model.UnpackedFloat

/-- The sign, mantissa and exponent of a float. -/
def unpacked (x : Float) : UnpackedFloat := x.toModel.unpack

/-- What is left of the result of an operation once it is packed. -/
def repacked (u : UnpackedFloat) : UnpackedFloat := (Float.Model.pack u).unpack

/-! ## Operations, unpacked -/

variable {x y : Float}

theorem unpacked_add (x y : Float) :
    unpacked (x + y) = repacked (UnpackedFloat.add .binary64 (unpacked x) (unpacked y)) := rfl

theorem unpacked_sub (x y : Float) :
    unpacked (x - y) = repacked (UnpackedFloat.sub .binary64 (unpacked x) (unpacked y)) := rfl

theorem unpacked_mul (x y : Float) :
    unpacked (x * y) = repacked (UnpackedFloat.mul .binary64 (unpacked x) (unpacked y)) := rfl

theorem unpacked_div (x y : Float) :
    unpacked (x / y) = repacked (UnpackedFloat.div .binary64 (unpacked x) (unpacked y)) := rfl

theorem unpacked_sqrt (x : Float) :
    unpacked x.sqrt = repacked (UnpackedFloat.sqrt .binary64 (unpacked x)) := rfl

theorem isNaN_iff : x.isNaN ↔ unpacked x = .notANumber := by
  show (unpacked x).isNaN = true ↔ _
  cases unpacked x <;> simp [UnpackedFloat.isNaN]

theorem isFinite_iff :
    x.isFinite ↔ (∃ s, unpacked x = .zero s) ∨ ∃ s m e h, unpacked x = .finite s m e h := by
  show (unpacked x).isFinite = true ↔ _
  cases unpacked x with
  | finite s m e h => simp [UnpackedFloat.isFinite, h]
  | _ => simp [UnpackedFloat.isFinite]

theorem isNaN_of_isFinite (h : x.isFinite) : x.isNaN = false := by
  rw [Bool.eq_false_iff, Ne, isNaN_iff]
  rcases isFinite_iff.mp h with ⟨s, hx⟩ | ⟨s, m, e, hm, hx⟩ <;> rw [hx] <;> exact nofun

/-! ## The fields of a packed float -/

theorem unpackSign_packComponents (s : Sign) (e : BitVec 11) (m : BitVec 52) :
    Sign.ofBitVec (unpackSign (packComponents Format.binary64 s e m)) = s := by
  have h : unpackSign (packComponents Format.binary64 s e m) = s.toBitVec := by
    show (s.toBitVec ++ e ++ m).extractLsb' 63 1 = s.toBitVec
    rw [BitVec.extractLsb'_append_eq_of_le (by decide),
      BitVec.extractLsb'_append_eq_of_le (by decide)]
    exact BitVec.extractLsb'_eq_self
  rw [h]
  cases s <;> rfl

theorem toNat_one_append (m : BitVec 52) : (1#1 ++ m).toNat = 2 ^ 52 + m.toNat := by
  rw [BitVec.toNat_append, ← Nat.shiftLeft_add_eq_or_of_lt m.isLt]
  rfl

/-- **A packed float reads back by its fields.** -/
theorem unpack_packComponents (s : Sign) (e : BitVec 11) (m : BitVec 52) :
    unpack Format.binary64 (packComponents Format.binary64 s e m) =
      if e = -1#11 then if m = 0#52 then .infinity s else .notANumber
      else if e = 0#11 then
        if h : m = 0#52 then .zero s
        else .finite s m.toNat (-1074) (by simpa [BitVec.toNat_pos, BitVec.pos_iff_ne_zero])
      else .finite s (1#1 ++ m).toNat (e.toNat - 1075) (by rw [toNat_one_append]; omega) := by
  have hbias : ((Format.binary64.exponentBias : Nat) : Int) = 1023 := rfl
  rw [unpack]
  simp only [unpackMantissa_packComponents, unpackExponent_packComponents,
    unpackSign_packComponents, hbias]
  by_cases he : e = 0#11
  · subst he
    simp
  · simp [he]

theorem ofNat_ne_neg_one {n : Nat} (h : n + 1 < 2 ^ 11) : BitVec.ofNat 11 n ≠ -1#11 := by
  intro he
  have hn := congrArg BitVec.toNat he
  simp at hn
  omega

/-! ## Packing keeps the sign -/

/-- A number of a given sign: an infinity, a zero or a finite float. -/
inductive Signed (s : Sign) : UnpackedFloat → Prop
  | infinity : Signed s (.infinity s)
  | zero : Signed s (.zero s)
  | finite (m : Nat) (e : Int) (h : 0 < m) : Signed s (.finite s m e h)

theorem Signed.ne_notANumber {s : Sign} {u : UnpackedFloat} (h : Signed s u) :
    u ≠ .notANumber := by
  rintro rfl
  cases h

theorem signed_unpack (s : Sign) {e : BitVec 11} (m : BitVec 52) (he : e ≠ -1#11) :
    Signed s (unpack Format.binary64 (packComponents Format.binary64 s e m)) := by
  rw [unpack_packComponents, if_neg he]
  split
  · split
    · exact .zero
    · exact .finite ..
  · exact .finite ..

/-- **Packing keeps the sign**, and makes a number of every number: a finite result may
come out as an infinity or a zero, but of the same sign. -/
theorem Signed.repacked {s : Sign} {u : UnpackedFloat} (h : Signed s u) :
    Signed s (repacked u) := by
  cases h with
  | infinity => cases s <;> exact .infinity
  | zero => cases s <;> exact .zero
  | finite m e h =>
    show Signed s (unpack Format.binary64 (UnpackedFloat.pack Format.binary64 _))
    rw [UnpackedFloat.pack]
    split
    -- the exponent is too large for the format
    · cases s <;> exact .infinity
    · rename_i hexp
      split
      · exact signed_unpack s _ (ofNat_ne_neg_one (Nat.lt_of_not_le hexp))
      · exact signed_unpack s _ (by decide)

/-- Packing makes nothing finite. -/
theorem isFinite_repacked {u : UnpackedFloat} (h : u.isFinite = false) :
    (repacked u).isFinite = false := by
  cases u with
  | notANumber => rfl
  | infinity s => cases s <;> rfl
  | zero s => cases h
  | finite s m e hm => cases h

/-- Rounding keeps the sign likewise. -/
theorem signed_roundWithAccuracy (s : Sign) (m : Nat) (e : Int) (a : Accuracy) :
    Signed s (roundWithAccuracy .binary64 s m e a) := by
  unfold roundWithAccuracy
  dsimp only
  split
  · exact .zero
  · exact .finite ..

/-- Sums and differences of finite floats are normalized to a number. -/
theorem exists_signed_normalize (m e : Int) (s : Sign) :
    ∃ t, Signed t (UnpackedFloat.normalize .binary64 m e s) := by
  unfold UnpackedFloat.normalize
  split
  · exact ⟨_, signed_roundWithAccuracy ..⟩
  · exact ⟨_, .zero⟩
  · exact ⟨_, signed_roundWithAccuracy ..⟩

/-! ## Sums of squares -/

theorem signed_mul_self {u : UnpackedFloat} (hu : u ≠ .notANumber) :
    Signed .positive (UnpackedFloat.mul .binary64 u u) := by
  cases u with
  | notANumber => exact absurd rfl hu
  | infinity s => cases s <;> exact .infinity
  | zero s => cases s <;> exact .zero
  | finite s m e h => cases s <;> exact signed_roundWithAccuracy ..

theorem signed_normalize {m : Int} (hm : 0 ≤ m) (e : Int) :
    Signed .positive (UnpackedFloat.normalize .binary64 m e .positive) := by
  unfold UnpackedFloat.normalize
  split
  · rename_i hlt
    exact absurd (Int.compare_eq_lt.mp hlt) (Int.not_lt.mpr hm)
  · exact .zero
  · exact signed_roundWithAccuracy ..

theorem Signed.add {u v : UnpackedFloat} (hu : Signed .positive u) (hv : Signed .positive v) :
    Signed .positive (UnpackedFloat.add .binary64 u v) := by
  cases hu <;> cases hv
  case finite.finite =>
    exact signed_normalize (Int.add_nonneg (Int.natCast_nonneg _) (Int.natCast_nonneg _)) _
  all_goals first | exact .infinity | exact .zero | exact .finite ..

theorem Signed.sqrt {u : UnpackedFloat} (hu : Signed .positive u) :
    Signed .positive (UnpackedFloat.sqrt .binary64 u) := by
  cases hu with
  | infinity => exact .infinity
  | zero => exact .zero
  | finite m e h => exact signed_roundWithAccuracy ..

/-! ## Mantissas and exponents that fit the format -/

/-- A mantissa and an exponent as they are read from a packed float: no more than 53
bits, and fewer only at the least exponent. -/
structure Canonical (m : Nat) (e : Int) : Prop where
  lt : m < 2 ^ 53
  exponent_ge : -1074 ≤ e
  exponent_le : e ≤ 971
  normal : 2 ^ 52 ≤ m ∨ e = -1074

/-- **What is read from a float is canonical.** -/
theorem canonical_of_unpacked {s : Sign} {m : Nat} {e : Int} {h : 0 < m}
    (hx : unpacked x = .finite s m e h) : Canonical m e := by
  have hbias : ((Format.binary64.exponentBias : Nat) : Int) = 1023 := rfl
  unfold unpacked Float.Model.unpack unpack at hx
  simp only [hbias] at hx
  generalize x.toModel.toBits.toBitVec = b at hx
  have hm := (@unpackMantissa .binary64 b).isLt
  have he := (@unpackExponent .binary64 b).isLt
  split at hx
  · split at hx <;> cases hx
  · rename_i hne
    have hlt : (@unpackExponent .binary64 b).toNat + 1 < 2 ^ 11 := by
      have hne' : (@unpackExponent .binary64 b).toNat ≠ 2 ^ 11 - 1 :=
        fun h => hne (BitVec.eq_of_toNat_eq (by simpa using h))
      simp only at he
      omega
    split at hx
    -- the least exponent
    · split at hx
      · cases hx
      · rename_i h0 _
        cases hx
        have h0' := congrArg BitVec.toNat h0
        simp at h0' hm
        constructor <;> simp [h0']
        omega
    · rename_i h0
      cases hx
      have h0' : (@unpackExponent .binary64 b).toNat ≠ 0 :=
        fun h => h0 (BitVec.eq_of_toNat_eq (by simpa using h))
      have happ := toNat_one_append (@unpackMantissa .binary64 b)
      simp at hm hlt
      constructor <;> omega

/-- **A normal float survives the packing.** -/
theorem repacked_normal {s : Sign} {m : Nat} {e : Int} {h : 0 < m} (hm : 2 ^ 52 ≤ m)
    (hc : Canonical m e) : repacked (.finite s m e h) = .finite s m e h := by
  have hbias : ((Format.binary64.exponentBias : Nat) : Int) = 1023 := rfl
  have hlog : m.log2 = 52 := (Nat.log2_eq_iff (by omega)).mpr ⟨hm, hc.lt⟩
  obtain ⟨hlt, hge, hle, -⟩ := hc
  show unpack Format.binary64 (UnpackedFloat.pack Format.binary64 _) = _
  rw [UnpackedFloat.pack]
  simp only [hlog, hbias]
  -- neither too large nor subnormal, so all bits but the leading one are kept
  rw [if_neg (by omega), if_pos (show 52 + 1 = Format.binary64.mantissaBits from rfl),
    unpack_packComponents, show (e + 1023 + (52 : Nat)).toNat = (e + 1075).toNat by omega,
    if_neg (ofNat_ne_neg_one (by omega)), if_neg]
  · have hmant : (1#1 ++ BitVec.ofNat 52 m).toNat = m := by
      rw [toNat_one_append]
      simp
      omega
    have hexp : ((BitVec.ofNat 11 (e + 1075).toNat).toNat : Int) - 1075 = e := by
      simp
      omega
    simp only [hmant, hexp]
  · intro h0
    have h0' := congrArg BitVec.toNat h0
    simp at h0'
    omega

/-! ## What is no number -/

theorem isNaN_of_repacked {u : UnpackedFloat} (h : unpacked x = repacked u)
    (hu : u = .notANumber) : x.isNaN := by
  rw [isNaN_iff, h, hu]
  rfl

/-- An operation that gives no number where an operand is none spoils every float. -/
theorem isNaN_of_strict {z : Float} {f : UnpackedFloat → UnpackedFloat → UnpackedFloat}
    (hz : unpacked z = repacked (f (unpacked x) (unpacked y)))
    (left : ∀ v, f .notANumber v = .notANumber) (right : ∀ u, f u .notANumber = .notANumber)
    (h : x.isNaN ∨ y.isNaN) : z.isNaN := by
  refine isNaN_of_repacked hz ?_
  rcases h with h | h
  · rw [isNaN_iff.mp h, left]
  · rw [isNaN_iff.mp h, right]

theorem isNaN_add (h : x.isNaN ∨ y.isNaN) : (x + y).isNaN :=
  isNaN_of_strict (unpacked_add x y) (fun _ => rfl) (fun u => by cases u <;> rfl) h

theorem isNaN_sub (h : x.isNaN ∨ y.isNaN) : (x - y).isNaN :=
  isNaN_of_strict (unpacked_sub x y) (fun _ => rfl) (fun u => by cases u <;> rfl) h

theorem isNaN_mul (h : x.isNaN ∨ y.isNaN) : (x * y).isNaN :=
  isNaN_of_strict (unpacked_mul x y) (fun _ => rfl) (fun u => by cases u <;> rfl) h

theorem isNaN_div (h : x.isNaN ∨ y.isNaN) : (x / y).isNaN :=
  isNaN_of_strict (unpacked_div x y) (fun _ => rfl) (fun u => by cases u <;> rfl) h

/-- Where a result is a number, so are both operands. -/
theorem isNaN_eq_false_of_imp {z : Float} (spoilt : x.isNaN ∨ y.isNaN → z.isNaN)
    (hz : z.isNaN = false) : x.isNaN = false ∧ y.isNaN = false := by
  rw [Bool.eq_false_iff, Bool.eq_false_iff]
  rw [Bool.eq_false_iff] at hz
  exact not_or.mp (mt spoilt hz)

theorem isNaN_sqrt (h : x.isNaN) : x.sqrt.isNaN := by
  refine isNaN_of_repacked (unpacked_sqrt x) ?_
  rw [isNaN_iff.mp h]
  rfl

/-- **Only a finite float has a difference to itself.** -/
theorem isNaN_sub_self (h : x.isFinite = false) : (x - x).isNaN := by
  refine isNaN_of_repacked (unpacked_sub x x) ?_
  change (unpacked x).isFinite = false at h
  cases hx : unpacked x with
  | notANumber => rfl
  | infinity s => cases s <;> rfl
  | zero s => rw [hx] at h; cases h
  | finite s m e hm => rw [hx] at h; cases h

/-- A result that has a sign is a number. -/
theorem isNaN_of_signed {z : Float} {s : Sign} {u : UnpackedFloat} (hz : unpacked z = repacked u)
    (hu : Signed s u) : z.isNaN = false := by
  refine Bool.eq_false_iff.mpr (fun h => ?_)
  exact hu.repacked.ne_notANumber (hz ▸ isNaN_iff.mp h)

/-- The difference of a number and a finite float is a number. -/
theorem not_isNaN_sub (hx : x.isNaN = false) (hy : y.isFinite) : (x - y).isNaN = false := by
  have hx' : unpacked x ≠ .notANumber := fun h => by
    rw [isNaN_iff.mpr h] at hx
    cases hx
  suffices hs : ∃ s, Signed s (UnpackedFloat.sub .binary64 (unpacked x) (unpacked y)) by
    obtain ⟨s, hs⟩ := hs
    exact isNaN_of_signed (unpacked_sub x y) hs
  -- two infinities would have to meet, and the second operand is none
  rcases isFinite_iff.mp hy with ⟨t, ht⟩ | ⟨t, m, e, hm, ht⟩ <;> rw [ht] <;>
    cases hu : unpacked x with
    | notANumber => exact absurd hu hx'
    | infinity s => exact ⟨s, .infinity⟩
    | zero s => ?_
    | finite s m' e' h' => ?_
  · cases s <;> cases t <;> exact ⟨_, .zero⟩
  · exact ⟨s, .finite ..⟩
  · exact ⟨-t, .finite ..⟩
  · exact exists_signed_normalize ..

/-- So is the sum. -/
theorem not_isNaN_add (hx : x.isNaN = false) (hy : y.isFinite) : (x + y).isNaN = false := by
  have hx' : unpacked x ≠ .notANumber := fun h => by
    rw [isNaN_iff.mpr h] at hx
    cases hx
  suffices hs : ∃ s, Signed s (UnpackedFloat.add .binary64 (unpacked x) (unpacked y)) by
    obtain ⟨s, hs⟩ := hs
    exact isNaN_of_signed (unpacked_add x y) hs
  rcases isFinite_iff.mp hy with ⟨t, ht⟩ | ⟨t, m, e, hm, ht⟩ <;> rw [ht] <;>
    cases hu : unpacked x with
    | notANumber => exact absurd hu hx'
    | infinity s => exact ⟨s, .infinity⟩
    | zero s => ?_
    | finite s m' e' h' => ?_
  · cases s <;> cases t <;> exact ⟨_, .zero⟩
  · exact ⟨s, .finite ..⟩
  · exact ⟨t, .finite ..⟩
  · exact exists_signed_normalize ..

/-- Sums do not depend on the order of the two summands. -/
theorem add_comm (x y : Float) : x + y = y + x := by
  have hcomm : UnpackedFloat.add .binary64 (unpacked x) (unpacked y)
      = UnpackedFloat.add .binary64 (unpacked y) (unpacked x) := by
    cases unpacked x with
    | notANumber => cases unpacked y <;> rfl
    | infinity s =>
      cases unpacked y with
      | infinity t => cases s <;> cases t <;> rfl
      | _ => rfl
    | zero s =>
      cases unpacked y with
      | zero t => cases s <;> cases t <;> rfl
      | _ => rfl
    | finite s m e h =>
      cases unpacked y with
      | finite t m' e' h' =>
        simp only [UnpackedFloat.add, Int.min_comm e e', Int.add_comm]
      | _ => rfl
  exact congrArg (fun u => Float.ofModel (Float.Model.pack u)) hcomm

/-! ## What has overflowed -/

/-- No summand brings an overflow back. -/
theorem isFinite_add (h : x.isFinite = false ∨ y.isFinite = false) :
    (x + y).isFinite = false := by
  change (unpacked x).isFinite = false ∨ (unpacked y).isFinite = false at h
  show (unpacked (x + y)).isFinite = false
  rw [unpacked_add]
  refine isFinite_repacked ?_
  cases hx : unpacked x <;> cases hy : unpacked y <;> rw [hx, hy] at h
  case infinity.infinity s t => cases s <;> cases t <;> rfl
  all_goals first | rfl | exact absurd h (by simp [UnpackedFloat.isFinite])

/-- Nor does the other side of a difference. -/
theorem isFinite_sub (h : x.isFinite = false ∨ y.isFinite = false) :
    (x - y).isFinite = false := by
  change (unpacked x).isFinite = false ∨ (unpacked y).isFinite = false at h
  show (unpacked (x - y)).isFinite = false
  rw [unpacked_sub]
  refine isFinite_repacked ?_
  cases hx : unpacked x <;> cases hy : unpacked y <;> rw [hx, hy] at h
  case infinity.infinity s t => cases s <;> cases t <;> rfl
  all_goals first | rfl | exact absurd h (by simp [UnpackedFloat.isFinite])

/-- No factor either: the least that is left of an overflow is no number. -/
theorem isFinite_mul (h : x.isFinite = false ∨ y.isFinite = false) :
    (x * y).isFinite = false := by
  change (unpacked x).isFinite = false ∨ (unpacked y).isFinite = false at h
  show (unpacked (x * y)).isFinite = false
  rw [unpacked_mul]
  refine isFinite_repacked ?_
  cases hx : unpacked x <;> cases hy : unpacked y <;> rw [hx, hy] at h
  all_goals first | rfl | exact absurd h (by simp [UnpackedFloat.isFinite])

/-- Where a result is finite, so are both operands. -/
theorem isFinite_of_imp {z : Float}
    (lost : x.isFinite = false ∨ y.isFinite = false → z.isFinite = false) (hz : z.isFinite) :
    x.isFinite ∧ y.isFinite := by
  rw [← Bool.not_eq_false, ← Bool.not_eq_false]
  rw [← Bool.not_eq_false] at hz
  exact not_or.mp (mt lost hz)

/-- What is not finite is an infinity or no number. -/
theorem cases_of_overflow (h : x.isFinite = false) :
    unpacked x = .notANumber ∨ ∃ s, unpacked x = .infinity s := by
  change (unpacked x).isFinite = false at h
  cases hx : unpacked x with
  | notANumber => exact .inl rfl
  | infinity s => exact .inr ⟨s, rfl⟩
  | zero s =>
    rw [hx] at h
    cases h
  | finite s m e hm =>
    rw [hx] at h
    cases h

theorem repacked_notANumber : repacked .notANumber = .notANumber := rfl

theorem repacked_infinity (s : Sign) : repacked (.infinity s) = .infinity s := by
  cases s <;> rfl

/-- An overflow is not changed by a finite summand. -/
theorem unpacked_add_overflow (hx : x.isFinite) (hy : y.isFinite = false) :
    unpacked (x + y) = unpacked y := by
  rw [unpacked_add]
  rcases isFinite_iff.mp hx with ⟨s, hx⟩ | ⟨s, m, e, hm, hx⟩ <;>
    rcases cases_of_overflow hy with hy | ⟨t, hy⟩ <;> rw [hx, hy]
  · exact repacked_notANumber
  · exact repacked_infinity t
  · exact repacked_notANumber
  · exact repacked_infinity t

/-- Zero times an overflow is no number. -/
theorem isNaN_mul_of_zero {s : Sign} (hx : unpacked x = .zero s) (hy : y.isFinite = false) :
    (x * y).isNaN := by
  refine isNaN_of_repacked (unpacked_mul x y) ?_
  rcases cases_of_overflow hy with hy | ⟨t, hy⟩ <;> rw [hx, hy] <;> rfl

/-- But nothing else finite spoils it. -/
theorem not_isNaN_mul {s : Sign} {m : Nat} {e : Int} {hm : 0 < m}
    (hx : unpacked x = .finite s m e hm) (hy : y.isNaN = false) : (x * y).isNaN = false := by
  have hz := unpacked_mul x y
  rw [hx] at hz
  cases hu : unpacked y with
  | notANumber =>
    rw [isNaN_iff.mpr hu] at hy
    cases hy
  | infinity t =>
    rw [hu] at hz
    exact isNaN_of_signed hz .infinity
  | zero t =>
    rw [hu] at hz
    exact isNaN_of_signed hz .zero
  | finite t m' e' h =>
    rw [hu] at hz
    exact isNaN_of_signed hz (signed_roundWithAccuracy ..)

/-- Finite floats have a product. -/
theorem not_isNaN_mul_of_isFinite (hx : x.isFinite) (hy : y.isFinite) :
    (x * y).isNaN = false := by
  rcases isFinite_iff.mp hx with ⟨s, hx⟩ | ⟨s, m, e, hm, hx⟩
  · have hz := unpacked_mul x y
    rcases isFinite_iff.mp hy with ⟨t, hy⟩ | ⟨t, m, e, hm, hy⟩ <;> rw [hx, hy] at hz <;>
      exact isNaN_of_signed hz .zero
  · exact not_isNaN_mul hx (isNaN_of_isFinite hy)

/-- No finite divisor brings an overflow back. -/
theorem isFinite_div (hx : x.isFinite = false) (hy : y.isFinite) : (x / y).isFinite = false := by
  show (unpacked (x / y)).isFinite = false
  rw [unpacked_div]
  refine isFinite_repacked ?_
  rcases cases_of_overflow hx with hx | ⟨s, hx⟩ <;>
    rcases isFinite_iff.mp hy with ⟨t, hy⟩ | ⟨t, m, e, hm, hy⟩ <;> rw [hx, hy] <;> rfl

/-- Among themselves, overflows have no quotient. -/
theorem isNaN_div_of_overflow (hx : x.isFinite = false) (hy : y.isFinite = false) :
    (x / y).isNaN := by
  refine isNaN_of_repacked (unpacked_div x y) ?_
  rcases cases_of_overflow hx with hx | ⟨s, hx⟩ <;>
    rcases cases_of_overflow hy with hy | ⟨t, hy⟩ <;> rw [hx, hy] <;> rfl

/-- The root of an overflow is one. -/
theorem isFinite_sqrt (h : x.isFinite = false) : x.sqrt.isFinite = false := by
  show (unpacked x.sqrt).isFinite = false
  rw [unpacked_sqrt]
  refine isFinite_repacked ?_
  rcases cases_of_overflow h with hx | ⟨s, hx⟩ <;> rw [hx]
  · rfl
  · cases s <;> rfl

/-- A finite summand does not matter for being a number. -/
theorem isNaN_add_of_isFinite (hy : y.isFinite) : (x + y).isNaN = x.isNaN := by
  cases hx : x.isNaN with
  | true => exact isNaN_add (.inl hx)
  | false => exact not_isNaN_add hx hy

/-- Nor does a finite summand in front, as long as it is not itself what overflows. -/
theorem isNaN_add_add {p a s : Float} (hp : p.isFinite) (hpa : a.isFinite → (p + a).isFinite) :
    (p + a + s).isNaN = (a + s).isNaN := by
  cases ha : a.isFinite with
  | true =>
    rw [add_comm (p + a), add_comm a, isNaN_add_of_isFinite (hpa ha), isNaN_add_of_isFinite ha]
  | false =>
    rw [Bool.eq_iff_iff, isNaN_iff, isNaN_iff, unpacked_add (p + a), unpacked_add a,
      unpacked_add_overflow hp ha]

end Phototaxis.Number
