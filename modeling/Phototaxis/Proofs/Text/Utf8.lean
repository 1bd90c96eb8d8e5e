import Mathlib.Tactic.Common
import Phototaxis.Text.Utf8

/-!
# Encoding and decoding of text

What is encoded is decoded to itself (`decodeUtf8_encodeUtf8`). A character has one to
four bytes, and the decoder finds out how many from the first of them and from what it
makes of the others; so there is one case for each length, and in each the shorter
lengths have to be refused first.

A byte below 128 always stands for the character with its number (`eq_of_mem_encode`). So
whoever looks among bytes for commas, quotes or line ends finds those of the text and no
others.
-/

namespace Phototaxis.Text

/-! ## Bytes by their numbers -/

section Bytes

variable {k l m n : Nat}

theorem toNat_ofNat (hn : n < 256) : (UInt8.ofNat n).toNat = n := by
  rw [UInt8.toNat_ofNat']
  exact Nat.mod_eq_of_lt hn

theorem ofNat_lt_iff (hn : n < 256) : UInt8.ofNat n < 0x80 ↔ n < 0x80 := by
  rw [UInt8.lt_iff_toNat_lt, toNat_ofNat hn]
  rfl

theorem isContinuation_ofNat (hn : n < 256) :
    isContinuation (UInt8.ofNat n) = (decide (0x80 ≤ n) && decide (n < 0xC0)) := by
  unfold isContinuation
  rw [Bool.eq_iff_iff]
  simp only [Bool.and_eq_true, decide_eq_true_iff, UInt8.le_iff_toNat_le, UInt8.lt_iff_toNat_lt,
    toNat_ofNat hn]
  rfl

theorem ofTwoBytes?_ofNat (hm : m < 256) (hn : n < 256) :
    ofTwoBytes? (.ofNat m) (.ofNat n) =
      if (0xC2 ≤ m ∧ m < 0xE0) ∧ 0x80 ≤ n ∧ n < 0xC0 then
        some (Char.ofNat (m % 32 * 64 + n % 64))
      else none := by
  unfold ofTwoBytes? withBits
  simp only [isContinuation_ofNat hn, UInt8.le_iff_toNat_le, UInt8.lt_iff_toNat_lt,
    toNat_ofNat hm, toNat_ofNat hn, Bool.and_eq_true, decide_eq_true_iff]
  rfl

theorem ofThreeBytes?_ofNat (hl : l < 256) (hm : m < 256) (hn : n < 256) :
    ofThreeBytes? (.ofNat l) (.ofNat m) (.ofNat n) =
      if ((((0xE0 ≤ l ∧ l < 0xF0) ∧ 0x80 ≤ m ∧ m < 0xC0) ∧ 0x80 ≤ n ∧ n < 0xC0) ∧
          0x800 ≤ (l % 16 * 64 + m % 64) * 64 + n % 64) ∧
          ((l % 16 * 64 + m % 64) * 64 + n % 64 < 0xD800 ∨
            0xE000 ≤ (l % 16 * 64 + m % 64) * 64 + n % 64) then
        some (Char.ofNat ((l % 16 * 64 + m % 64) * 64 + n % 64))
      else none := by
  unfold ofThreeBytes? withBits
  simp only [isContinuation_ofNat hm, isContinuation_ofNat hn, UInt8.le_iff_toNat_le,
    UInt8.lt_iff_toNat_lt, toNat_ofNat hl, toNat_ofNat hm, toNat_ofNat hn, Bool.and_eq_true,
    Bool.or_eq_true, decide_eq_true_iff]
  rfl

theorem ofFourBytes?_ofNat (hk : k < 256) (hl : l < 256) (hm : m < 256) (hn : n < 256) :
    ofFourBytes? (.ofNat k) (.ofNat l) (.ofNat m) (.ofNat n) =
      if (((((0xF0 ≤ k ∧ k < 0xF8) ∧ 0x80 ≤ l ∧ l < 0xC0) ∧ 0x80 ≤ m ∧ m < 0xC0) ∧
          0x80 ≤ n ∧ n < 0xC0) ∧
          0x10000 ≤ ((k % 8 * 64 + l % 64) * 64 + m % 64) * 64 + n % 64) ∧
          ((k % 8 * 64 + l % 64) * 64 + m % 64) * 64 + n % 64 < 0x110000 then
        some (Char.ofNat (((k % 8 * 64 + l % 64) * 64 + m % 64) * 64 + n % 64))
      else none := by
  unfold ofFourBytes? withBits
  simp only [isContinuation_ofNat hl, isContinuation_ofNat hm, isContinuation_ofNat hn,
    UInt8.le_iff_toNat_le, UInt8.lt_iff_toNat_lt, toNat_ofNat hk, toNat_ofNat hl, toNat_ofNat hm,
    toNat_ofNat hn, Bool.and_eq_true, decide_eq_true_iff]
  rfl

end Bytes

/-! ## One character -/

section Character

/-- The bytes that stand for a character. -/
inductive Spells : List UInt8 → Char → Prop
  | one {a : UInt8} {char : Char} (ha : a < 0x80) (h : Char.ofNat a.toNat = char) :
      Spells [a] char
  | two {a b : UInt8} {char : Char} (ha : ¬ a < 0x80) (h : ofTwoBytes? a b = some char) :
      Spells [a, b] char
  | three {a b c : UInt8} {char : Char} (ha : ¬ a < 0x80) (h₂ : ofTwoBytes? a b = none)
      (h : ofThreeBytes? a b c = some char) : Spells [a, b, c] char
  | four {a b c d : UInt8} {char : Char} (ha : ¬ a < 0x80) (h₂ : ofTwoBytes? a b = none)
      (h₃ : ofThreeBytes? a b c = none) (h : ofFourBytes? a b c d = some char) :
      Spells [a, b, c, d] char

variable {char : Char} {bytes rest : List UInt8} {offset : Nat}

/-- **A character is decoded from its bytes**, whatever follows them. -/
theorem Spells.decodeCharsFrom_append (h : Spells bytes char) :
    decodeCharsFrom offset (bytes ++ rest)
      = (decodeCharsFrom (offset + bytes.length) rest).map (char :: ·) := by
  cases h with
  | one ha h =>
    rw [List.singleton_append, decodeCharsFrom.eq_def, ← h]
    exact if_pos ha
  | two ha h =>
    rw [List.cons_append, decodeCharsFrom.eq_def]
    simp only [if_neg ha, List.singleton_append, h]
    rfl
  | three ha h₂ h =>
    rw [List.cons_append, decodeCharsFrom.eq_def]
    simp only [if_neg ha, List.cons_append, List.nil_append, h₂, h]
    rfl
  | four ha h₂ h₃ h =>
    rw [List.cons_append, decodeCharsFrom.eq_def]
    simp only [if_neg ha, List.cons_append, List.nil_append, h₂, h₃, h]
    rfl

/-- The encoder writes bytes that stand for the character. -/
theorem spells_encode (char : Char) : Spells (String.utf8EncodeChar char) char := by
  have hvalid : char.val.toNat.isValidChar := char.valid
  have hself : Char.ofNat char.val.toNat = char := Char.ofNat_toNat char
  unfold Nat.isValidChar at hvalid
  unfold String.utf8EncodeChar
  dsimp only
  generalize char.val.toNat = n at hvalid hself ⊢
  split_ifs with h₁ h₂ h₃
  · refine .one ?_ ?_
    · rw [ofNat_lt_iff (by omega)]
      omega
    · rw [toNat_ofNat (by omega), hself]
  · refine .two ?_ ?_
    · rw [ofNat_lt_iff (by omega)]
      omega
    · rw [ofTwoBytes?_ofNat (by omega) (by omega), if_pos (by omega), ← hself]
      congr 2
      omega
  · refine .three ?_ ?_ ?_
    · rw [ofNat_lt_iff (by omega)]
      omega
    · rw [ofTwoBytes?_ofNat (by omega) (by omega), if_neg (by omega)]
    · rw [ofThreeBytes?_ofNat (by omega) (by omega) (by omega), if_pos (by omega), ← hself]
      congr 2
      omega
  · refine .four ?_ ?_ ?_ ?_
    · rw [ofNat_lt_iff (by omega)]
      omega
    · rw [ofTwoBytes?_ofNat (by omega) (by omega), if_neg (by omega)]
    · rw [ofThreeBytes?_ofNat (by omega) (by omega) (by omega), if_neg (by omega)]
    · rw [ofFourBytes?_ofNat (by omega) (by omega) (by omega) (by omega), if_pos (by omega),
        ← hself]
      congr 2
      omega

/-- **A byte below 128 is the character with its number.** -/
theorem eq_of_mem_encode {byte : UInt8} (h : byte ∈ String.utf8EncodeChar char)
    (hlt : byte < 0x80) : String.utf8EncodeChar char = [byte] ∧ char.toNat = byte.toNat := by
  have hvalid : char.val.toNat.isValidChar := char.valid
  change _ ∧ char.val.toNat = _
  unfold Nat.isValidChar at hvalid
  unfold String.utf8EncodeChar at h ⊢
  dsimp only at h ⊢
  generalize char.val.toNat = n at hvalid h ⊢
  -- all bytes of longer characters are at least 128
  have hge : ∀ {k}, 0x80 ≤ k → k < 256 → byte ≠ .ofNat k := by
    rintro k hk hk' rfl
    exact absurd ((ofNat_lt_iff hk').mp hlt) (Nat.not_lt.mpr hk)
  split_ifs at h ⊢ with h₁ h₂ h₃
  · rw [List.mem_singleton] at h
    rw [h, toNat_ofNat (by omega)]
    exact ⟨rfl, rfl⟩
  · simp only [List.mem_cons, List.not_mem_nil, or_false] at h
    rcases h with h | h <;> exact absurd h (hge (by omega) (by omega))
  · simp only [List.mem_cons, List.not_mem_nil, or_false] at h
    rcases h with h | h | h <;> exact absurd h (hge (by omega) (by omega))
  · simp only [List.mem_cons, List.not_mem_nil, or_false] at h
    rcases h with h | h | h | h <;> exact absurd h (hge (by omega) (by omega))

end Character

/-! ## Texts -/

theorem decodeCharsFrom_flatMap (chars : List Char) (offset : Nat) :
    decodeCharsFrom offset (chars.flatMap String.utf8EncodeChar) = .ok chars := by
  induction chars generalizing offset with
  | nil => rfl
  | cons char chars ih =>
    rw [List.flatMap_cons, (spells_encode char).decodeCharsFrom_append, ih]
    rfl

/-- **What is encoded is decoded to itself.** -/
theorem decodeUtf8_encodeUtf8 (text : String) : decodeUtf8 (encodeUtf8 text) = .ok text := by
  rw [decodeUtf8, encodeUtf8, decodeCharsFrom_flatMap]
  exact congrArg Except.ok String.ofList_toList

theorem toList_loop (bytes : ByteArray) (i : Nat) (before : List UInt8) :
    ByteArray.toList.loop bytes i before = before.reverse ++ bytes.data.toList.drop i := by
  fun_induction ByteArray.toList.loop bytes i before with
  | case1 i before hi ih =>
    have hlt : i < bytes.data.toList.length := hi
    rw [ih, List.drop_eq_getElem_cons hlt, List.reverse_cons, List.append_assoc,
      show bytes.get! i = bytes.data.toList[i] from getElem!_pos bytes.data i hi]
    rfl
  | case2 i before hi =>
    have hle : bytes.data.toList.length ≤ i := Nat.not_lt.mp hi
    rw [List.drop_eq_nil_of_le hle, List.append_nil]

/-- The bytes of a text are the same ones as in the core library. -/
theorem toList_toUTF8 (text : String) : text.toUTF8.toList = encodeUtf8 text := by
  rw [ByteArray.toList, toList_loop]
  show text.toByteArray.data.toList = _
  rw [← String.utf8Encode_toList]
  show (List.toByteArray _).data.toList = _
  rw [List.data_toByteArray]
  rfl

end Phototaxis.Text
