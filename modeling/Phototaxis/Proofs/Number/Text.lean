import Mathlib
import Phototaxis.Number.Text
import Phototaxis.Proofs.Number.Magnitude
import Phototaxis.Proofs.Number.Shortest
import Phototaxis.Proofs.Text.Blank

/-!
# The text of a number is read as the number

Every finite float is read back from its text, bit for bit and with the sign of a zero
(`Number.ofText?_text`). The text says a decimal that is rounded to the float, it spells
this decimal in plain digits, and the reader gives the float that the decimal is rounded
to.

The text has digits, a point and a minus sign only, so it is a word: it can stand in a
table or among other words without further ado (`Number.isWord_text`).
-/

namespace Phototaxis

open Number

/-! ## Digits -/

namespace Literal

variable {whole fraction digits rest chars : List Char} {negative : Bool}

/-- Whether all characters are decimal digits. -/
def AreDigits (chars : List Char) : Prop := ∀ c ∈ chars, c.isDigit = true

theorem areDigits_toDigits (n : ℕ) : AreDigits (Nat.toDigits 10 n) := fun _ hc =>
  Nat.isDigit_of_mem_toDigits (by decide) (by decide) hc

theorem areDigits_zeros (count : ℕ) : AreDigits (List.replicate count '0') := fun c hc => by
  rw [List.eq_of_mem_replicate hc]
  rfl

theorem AreDigits.append (h : AreDigits whole) (h' : AreDigits fraction) :
    AreDigits (whole ++ fraction) := fun c hc =>
  (List.mem_append.mp hc).elim (h c) (h' c)

theorem AreDigits.not_blank (h : AreDigits digits) : ∀ c ∈ digits, Text.isBlank c = false := by
  intro c hc
  have hdigit : 48 ≤ c.toNat ∧ c.toNat ≤ 57 := by
    have hrange := h c hc
    rw [Char.isDigit, Bool.and_eq_true, decide_eq_true_iff, decide_eq_true_iff] at hrange
    exact hrange
  simp only [Text.isBlank, Text.blankRanges, List.any_cons, List.any_nil, Bool.or_false,
    Bool.or_eq_false_iff, Bool.and_eq_false_iff, decide_eq_false_iff_not]
  omega

/-- Digits behind other digits move these up. -/
theorem digitsValue_append_zeros (digits : List Char) (count : ℕ) :
    digitsValue (digits ++ List.replicate count '0') = 10 ^ count * digitsValue digits := by
  show Nat.ofDigitChars 10 (digits ++ List.replicate count '0') 0 = _
  rw [Nat.ofDigitChars_append, Nat.ofDigitChars_replicate_zero]
  rfl

theorem digitsValue_zeros_append (count : ℕ) (digits : List Char) :
    digitsValue (List.replicate count '0' ++ digits) = digitsValue digits := by
  show Nat.ofDigitChars 10 (List.replicate count '0' ++ digits) 0 = _
  rw [Nat.ofDigitChars_append, Nat.ofDigitChars_replicate_zero, Nat.mul_zero]
  rfl

theorem digitsValue_zero_append (digits : List Char) :
    digitsValue (['0'] ++ digits) = digitsValue digits := digitsValue_zeros_append 1 digits

theorem digitsValue_toDigits (n : ℕ) : digitsValue (Nat.toDigits 10 n) = n :=
  Nat.ofDigitChars_ten_toDigits

/-! ## Plain decimals as literals -/

/-- A fraction behind its point, or nothing. -/
def pointed : List Char → List Char
  | [] => []
  | fraction => '.' :: fraction

theorem pointed_of_ne_nil (h : fraction ≠ []) : pointed fraction = '.' :: fraction := by
  cases fraction with
  | nil => exact absurd rfl h
  | cons c fraction => rfl

theorem splitDigits_append (h : AreDigits digits) (hrest : ∀ c ∈ rest.head?, c.isDigit = false) :
    splitDigits (digits ++ rest) = (digits, rest) := by
  rw [splitDigits, List.takeWhile_append_of_pos h, List.dropWhile_append_of_pos h]
  cases rest with
  | nil => rw [List.takeWhile_nil, List.dropWhile_nil, List.append_nil]
  | cons c rest =>
    have hc : ¬ c.isDigit = true := by
      rw [hrest c rfl]
      exact Bool.false_ne_true
    rw [List.takeWhile_cons_of_neg hc, List.dropWhile_cons_of_neg hc, List.append_nil]

theorem splitDigits_pointed (hwhole : AreDigits whole) :
    splitDigits (whole ++ pointed fraction) = (whole, pointed fraction) := by
  refine splitDigits_append hwhole fun c hc => ?_
  cases fraction with
  | nil => exact nomatch hc
  | cons d fraction =>
    cases hc
    rfl

theorem splitFraction_pointed (hfraction : AreDigits fraction) :
    splitFraction (pointed fraction) = (fraction, []) := by
  cases fraction with
  | nil => rfl
  | cons d fraction =>
    have hrest : ∀ c ∈ ([] : List Char).head?, c.isDigit = false := fun c hc => nomatch hc
    have h := splitDigits_append hfraction hrest
    rwa [List.append_nil] at h

theorem toLower_of_isDigit {c : Char} (h : c.isDigit = true) : c.toLower.isDigit = true := by
  have hval : c.toLower = c := by
    simp only [Char.isDigit, Bool.and_eq_true, decide_eq_true_iff] at h
    rw [Char.toLower, dif_neg fun hupper => absurd (UInt32.le_trans hupper.1 h.2) (by decide)]
  rw [hval, h]

/-- A digit begins no word. -/
theorem ne_word_of_isDigit {c d : Char} {word : List Char} (hc : c.isDigit = true)
    (hd : d.isDigit = false) : ((c :: rest).map Char.toLower == d :: word) = false := by
  refine beq_eq_false_iff_ne.mpr fun h => ?_
  have hhead : c.toLower = d := (List.cons.inj h).1
  rw [← hhead, toLower_of_isDigit hc] at hd
  exact nomatch hd

theorem splitSign_digit (negative : Bool) {c : Char} (hc : c.isDigit = true) :
    splitSign ((if negative then ['-'] else []) ++ c :: rest) = (negative, c :: rest) := by
  cases negative with
  | true => rfl
  | false =>
    show splitSign (c :: rest) = _
    unfold splitSign
    split
    · next h =>
      cases h
      exact nomatch hc
    · next h =>
      cases h
      exact nomatch hc
    · rfl

/-- **Digits with a point among them, or without one, are a literal.** -/
theorem ofChars?_digits (negative : Bool) (hwhole : AreDigits whole) (hne : whole ≠ [])
    (hfraction : AreDigits fraction) :
    ofChars? ((if negative then ['-'] else []) ++ (whole ++ pointed fraction))
      = some (.decimal negative (digitsValue (whole ++ fraction)) (-fraction.length)) := by
  obtain ⟨c, digits, rfl⟩ := List.exists_cons_of_ne_nil hne
  have hc : c.isDigit = true := hwhole c List.mem_cons_self
  unfold ofChars?
  rw [List.cons_append, splitSign_digit negative hc]
  dsimp only
  rw [show "inf".toList = ['i', 'n', 'f'] from rfl, show "nan".toList = ['n', 'a', 'n'] from rfl,
    show "infinity".toList = ['i', 'n', 'f', 'i', 'n', 'i', 't', 'y'] from rfl,
    ne_word_of_isDigit hc rfl, ne_word_of_isDigit hc rfl, ne_word_of_isDigit hc rfl, Bool.or_false,
    if_neg Bool.false_ne_true, if_neg Bool.false_ne_true, decimal?, ← List.cons_append,
    splitDigits_pointed hwhole]
  dsimp only
  rw [splitFraction_pointed hfraction]
  show (if false && fraction.isEmpty then none else _) = _
  rw [Bool.false_and, if_neg Bool.false_ne_true, exponent?, Option.map_some, zero_sub]

/-- Whether characters spell a value in plain digits. -/
def Spells (chars : List Char) (r : ℚ) : Prop := ∃ whole fraction,
  AreDigits whole ∧ whole ≠ [] ∧ AreDigits fraction ∧ chars = whole ++ pointed fraction ∧
    (digitsValue (whole ++ fraction) : ℚ) * 10 ^ (-(fraction.length : ℤ)) = r

theorem spells_zero : Spells ['0'] 0 := by
  refine ⟨['0'], [], areDigits_zeros 1, List.cons_ne_nil _ _, nofun, rfl, ?_⟩
  norm_num [digitsValue]

/-- Zeros behind the digits. -/
theorem spells_zeros_behind (n count : ℕ) :
    Spells (Nat.toDigits 10 n ++ List.replicate count '0') (n * 10 ^ (count : ℤ)) := by
  refine ⟨Nat.toDigits 10 n ++ List.replicate count '0', [],
    (areDigits_toDigits n).append (areDigits_zeros count),
    List.append_ne_nil_of_left_ne_nil Nat.toDigits_ne_nil _, nofun, (List.append_nil _).symm, ?_⟩
  rw [List.append_nil, digitsValue_append_zeros, digitsValue_toDigits]
  push_cast
  simp
  ring

/-- Zeros between the point and the digits. -/
theorem spells_zeros_before (n count : ℕ) :
    Spells ('0' :: '.' :: (List.replicate count '0' ++ Nat.toDigits 10 n))
      (n * 10 ^ (-(count + (Nat.toDigits 10 n).length : ℤ))) := by
  refine ⟨['0'], List.replicate count '0' ++ Nat.toDigits 10 n, areDigits_zeros 1,
    List.cons_ne_nil _ _, (areDigits_zeros count).append (areDigits_toDigits n), ?_, ?_⟩
  · rw [pointed_of_ne_nil (List.append_ne_nil_of_right_ne_nil _ Nat.toDigits_ne_nil)]
    rfl
  · rw [digitsValue_zero_append, digitsValue_zeros_append, digitsValue_toDigits,
      List.length_append, List.length_replicate, Nat.cast_add]

/-- The point among the digits. -/
theorem spells_point {n count : ℕ} (hpos : 0 < count) (hlt : count < (Nat.toDigits 10 n).length) :
    Spells ((Nat.toDigits 10 n).take count ++ '.' :: (Nat.toDigits 10 n).drop count)
      (n * 10 ^ (count - (Nat.toDigits 10 n).length : ℤ)) := by
  have hare := areDigits_toDigits n
  refine ⟨(Nat.toDigits 10 n).take count, (Nat.toDigits 10 n).drop count,
    fun c hc => hare c (List.mem_of_mem_take hc), ?_,
    fun c hc => hare c (List.mem_of_mem_drop hc), ?_, ?_⟩
  · refine List.ne_nil_of_length_pos ?_
    rw [List.length_take]
    omega
  · rw [pointed_of_ne_nil]
    refine List.ne_nil_of_length_pos ?_
    rw [List.length_drop]
    omega
  · rw [List.take_append_drop, digitsValue_toDigits, List.length_drop, Nat.cast_sub hlt.le, neg_sub]

end Literal

/-! ## The layout of decimals -/

theorem toList_zeros (count : ℕ) : (zeros count).toList = List.replicate count '0' :=
  String.toList_ofList

/-- **Positional text spells the decimal in plain digits.** -/
theorem Decimal.spells_positional (d : Decimal) :
    Literal.Spells d.positional.toList d.toRat := by
  have hdigits : (toString d.digits).toList = Nat.toDigits 10 d.digits := by
    rw [Nat.toString_eq_ofList_toDigits, String.toList_ofList]
  have hlength : (toString d.digits).length = (Nat.toDigits 10 d.digits).length := by
    rw [← hdigits, String.length_toList]
  unfold positional
  dsimp only
  rw [hlength, toRat]
  split_ifs with hexponent hzero hwhole
  · rw [beq_iff_eq] at hzero
    rw [hzero, Nat.cast_zero, zero_mul]
    exact Literal.spells_zero
  · have hspells := Literal.spells_zeros_behind d.digits d.exponent.toNat
    rw [Int.toNat_of_nonneg hexponent] at hspells
    rw [String.toList_append, hdigits, toList_zeros]
    exact hspells
  · have hspells := Literal.spells_zeros_before d.digits
      (-((Nat.toDigits 10 d.digits).length + d.exponent)).toNat
    have hsum : -(-((Nat.toDigits 10 d.digits).length + d.exponent)
        + (Nat.toDigits 10 d.digits).length : ℤ) = d.exponent := by omega
    rw [Int.toNat_of_nonneg (Int.neg_nonneg.mpr hwhole), hsum] at hspells
    rw [String.toList_append, String.toList_append, hdigits, toList_zeros, List.append_assoc]
    exact hspells
  · have hpos : 0 < ((Nat.toDigits 10 d.digits).length + d.exponent).toNat := by omega
    have hlt : ((Nat.toDigits 10 d.digits).length + d.exponent).toNat
        < (Nat.toDigits 10 d.digits).length := by omega
    have hspells := Literal.spells_point hpos hlt
    rw [Int.toNat_of_nonneg (not_le.mp hwhole).le, add_sub_cancel_left] at hspells
    rw [withPoint, hdigits, if_pos hlt]
    simp only [String.toList_append, String.toList_ofList, List.append_assoc]
    exact hspells

/-! ## Floats by their values -/

namespace Number

open Float.Model (Format UnpackedFloat)
open Float.Model.UnpackedFloat

variable {x y : Float} {s : Sign} {m m' : ℕ} {e e' : ℤ}

theorem Canonical.inj (hc : Canonical m e) (hc' : Canonical m' e')
    (h : (m : ℚ) * 2 ^ e = m' * 2 ^ e') : m = m' ∧ e = e' := by
  by_contra hne
  have hlex : (e < e' ∨ e = e' ∧ m < m') ∨ (e' < e ∨ e' = e ∧ m' < m) := by omega
  rcases hlex with hlex | hlex
  · exact (hc.lt_of_lex hc' hlex).ne h
  · exact (hc'.lt_of_lex hc hlex).ne h.symm

/-- A float above zero is told by its value. -/
theorem unpacked_of_value (hy : y.isNaN = false) (hc : Canonical m e) (hm : 0 < m)
    (h : value y = m * 2 ^ e) : unpacked y = .finite .positive m e hm := by
  have hpos := mantissa_pos hm e
  have hfinite := isFinite_of_value_eq hy h hpos.le hc.lt_overflow
  rcases isFinite_cases hfinite with ⟨s, -, hv⟩ | ⟨s, m', e', hm', hu, hc', hv⟩
  · linarith
  · have hpos' := mantissa_pos hm' e'
    cases s with
    | negative =>
      rw [factor, neg_one_mul] at hv
      linarith
    | positive =>
      rw [factor, one_mul, h] at hv
      obtain ⟨rfl, rfl⟩ := hc.inj hc' hv
      exact hu

/-- A finite float is written from its sign and a fraction that fits the format. -/
theorem magnitude_of_isFinite (h : x.isFinite) : ∃ s m e, Canonical m e ∧
    Magnitude.of x = .finite (Magnitude.isNegative s) ⟨m, e⟩ ∧
      (m = 0 ∧ unpacked x = .zero s ∨ ∃ hm, unpacked x = .finite s m e hm) := by
  rcases isFinite_iff.mp h with ⟨s, hx⟩ | ⟨s, m, e, hm, hx⟩
  · refine ⟨s, 0, -1074, ⟨by norm_num, le_rfl, by norm_num, .inr rfl⟩, ?_, .inl ⟨rfl, hx⟩⟩
    rw [Magnitude.of_eq, hx]
    rfl
  · refine ⟨s, m, e, canonical_of_unpacked hx, ?_, .inr ⟨hm, hx⟩⟩
    rw [Magnitude.of_eq, hx]
    rfl

/-- A decimal that is rounded to the magnitude of a float is read as the float. -/
theorem toFloat_decimal {digits : ℕ} {exponent : ℤ} (hc : Canonical m e)
    (hrounds : RoundsTo (digits * 10 ^ exponent) (m * 2 ^ e))
    (hzero : m = 0 → digits = 0)
    (hx : m = 0 ∧ unpacked x = .zero s ∨ ∃ hm, unpacked x = .finite s m e hm) :
    (Literal.decimal (Magnitude.isNegative s) digits exponent).toFloat = x := by
  have hy := isRounded_nearest digits exponent
  have hvalue : value (Literal.nearest digits exponent) = m * 2 ^ e := by
    rw [hy.value_eq (by positivity) hrounds, min_eq_left hc.lt_overflow.le]
  rw [← unpacked_inj]
  rcases hx with ⟨hm, hx⟩ | ⟨hm, hx⟩
  · have hnearest : Literal.nearest 0 exponent = 0.0 := by
      rw [Literal.nearest, beq_self_eq_true, Bool.true_or, if_pos rfl]
    rw [hx, hzero hm, Literal.toFloat, hnearest]
    cases s <;> rfl
  · have hmagnitude := unpacked_of_value hy.isNaN hc hm hvalue
    rw [hx]
    cases s with
    | positive => exact hmagnitude
    | negative =>
      show repacked (unpacked (Literal.nearest digits exponent)).neg = _
      rw [hmagnitude]
      exact repacked_canonical hc

/-! ## Reading back -/

/-- The text of a finite float: a minus sign or not, and plain digits. -/
theorem toList_text (h : x.isFinite) : ∃ negative whole fraction,
    Literal.AreDigits whole ∧ whole ≠ [] ∧ Literal.AreDigits fraction ∧
      (text x).toList = (if negative then ['-'] else []) ++ (whole ++ Literal.pointed fraction) ∧
      (Literal.decimal negative (Literal.digitsValue (whole ++ fraction))
        (-fraction.length)).toFloat = x := by
  obtain ⟨s, m, e, hc, hmagnitude, hx⟩ := magnitude_of_isFinite h
  obtain ⟨whole, fraction, hwhole, hne, hfraction, hlist, hvalue⟩ :=
    (Dyadic.shortest ⟨m, e⟩).spells_positional
  refine ⟨Magnitude.isNegative s, whole, fraction, hwhole, hne, hfraction, ?_,
    toFloat_decimal hc ?_ ?_ hx⟩
  · rw [text, textWith, hmagnitude, ← hlist]
    cases s <;> exact String.toList_append ..
  · rw [hvalue]
    exact Dyadic.roundsTo_shortest hc
  · rintro rfl
    have hzero : (Dyadic.shortest ⟨0, e⟩).toRat = 0 := by
      rw [Dyadic.shortest, if_pos (beq_self_eq_true 0), Decimal.toRat, Nat.cast_zero, zero_mul]
    rw [hzero, mul_eq_zero, Nat.cast_eq_zero] at hvalue
    exact hvalue.resolve_right (by positivity)

/-- **Every finite float is read back from its text.** -/
theorem ofText?_text (h : x.isFinite) : ofText? (text x) = some x := by
  obtain ⟨negative, whole, fraction, hwhole, hne, hfraction, hlist, hfloat⟩ := toList_text h
  rw [ofText?, hlist, Literal.ofChars?_digits negative hwhole hne hfraction, Option.map_some,
    hfloat]

/-! ## Words -/

theorem isWord_text (h : x.isFinite) : Text.IsWord (text x) := by
  obtain ⟨negative, whole, fraction, hwhole, hne, hfraction, hlist, -⟩ := toList_text h
  have hsign : ∀ c ∈ (if negative then ['-'] else []), Text.isBlank c = false := by
    cases negative with
    | false => exact nofun
    | true => exact List.forall_mem_singleton.mpr rfl
  have hpointed : ∀ c ∈ Literal.pointed fraction, Text.isBlank c = false := by
    cases fraction with
    | nil => exact nofun
    | cons d fraction => exact List.forall_mem_cons.mpr ⟨rfl, hfraction.not_blank⟩
  constructor
  · rw [hlist]
    exact List.append_ne_nil_of_right_ne_nil _ (List.append_ne_nil_of_left_ne_nil hne _)
  · rw [hlist, List.forall_mem_append, List.forall_mem_append]
    exact ⟨hsign, hwhole.not_blank, hpointed⟩

theorem isWord_toString (n : ℕ) : Text.IsWord (toString n) := by
  constructor <;> rw [Nat.toString_eq_ofList_toDigits, String.toList_ofList]
  · exact Nat.toDigits_ne_nil
  · exact (Literal.areDigits_toDigits n).not_blank

end Number

end Phototaxis
