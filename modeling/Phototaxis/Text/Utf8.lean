/-!
# Text as bytes

UTF-8 in both directions. Decoding accepts exactly the shortest forms of the Unicode
scalar values; where it stops it tells how many bytes were well formed.
-/

namespace Phototaxis.Text

/-- The bytes of a text. -/
def encodeUtf8 (text : String) : List UInt8 := text.toList.flatMap String.utf8EncodeChar

/-- Whether a byte continues a character. -/
def isContinuation (byte : UInt8) : Bool := 0x80 ≤ byte && byte < 0xC0

/-- The six bits that a continuing byte adds to what the bytes before it give. -/
def withBits (value : Nat) (byte : UInt8) : Nat := value * 64 + byte.toNat % 64

/-- The character of two bytes, if they are its shortest form. -/
def ofTwoBytes? (a b : UInt8) : Option Char :=
  if 0xC2 ≤ a && a < 0xE0 && isContinuation b then
    some (Char.ofNat (withBits (a.toNat % 32) b))
  else none

/-- The character of three bytes, if they are its shortest form. -/
def ofThreeBytes? (a b c : UInt8) : Option Char :=
  let value := withBits (withBits (a.toNat % 16) b) c
  if 0xE0 ≤ a && a < 0xF0 && isContinuation b && isContinuation c && 0x800 ≤ value
      && (value < 0xD800 || 0xE000 ≤ value) then
    some (Char.ofNat value)
  else none

/-- The character of four bytes, if they are its shortest form. -/
def ofFourBytes? (a b c d : UInt8) : Option Char :=
  let value := withBits (withBits (withBits (a.toNat % 8) b) c) d
  if 0xF0 ≤ a && a < 0xF8 && isContinuation b && isContinuation c && isContinuation d
      && 0x10000 ≤ value && value < 0x110000 then
    some (Char.ofNat value)
  else none

/-- The characters of a list of bytes, of which `offset` bytes have been read before; or else the
number of well-formed bytes. -/
def decodeCharsFrom (offset : Nat) : List UInt8 → Except Nat (List Char)
  | [] => .ok []
  | a :: rest =>
    if a < 0x80 then (decodeCharsFrom (offset + 1) rest).map (Char.ofNat a.toNat :: ·)
    else
      match rest with
      | [] => .error offset
      | b :: rest =>
        match ofTwoBytes? a b with
        | some char => (decodeCharsFrom (offset + 2) rest).map (char :: ·)
        | none =>
          match rest with
          | [] => .error offset
          | c :: rest =>
            match ofThreeBytes? a b c with
            | some char => (decodeCharsFrom (offset + 3) rest).map (char :: ·)
            | none =>
              match rest with
              | [] => .error offset
              | d :: rest =>
                match ofFourBytes? a b c d with
                | some char => (decodeCharsFrom (offset + 4) rest).map (char :: ·)
                | none => .error offset

/-- The text of a list of bytes, or else the number of well-formed bytes before the first that is
not. -/
def decodeUtf8 (bytes : List UInt8) : Except Nat String :=
  (decodeCharsFrom 0 bytes).map String.ofList

end Phototaxis.Text
