import Phototaxis.Text.Unprintable

/-!
# Quoted text

A message quotes a text between double quotes. Quotes, backslashes, line feeds,
carriage returns, tabs and NUL are written with a backslash and a letter, and every
other character that would not show is written by its code point, in lower-case
hexadecimal digits without padding. A single quote stands for itself.
-/

namespace Phototaxis.Text

/-- A number in lower-case hexadecimal digits. -/
def hexadecimal (n : Nat) : String := String.ofList (Nat.toDigits 16 n)

/-- How a character is written inside quotes. -/
def quotedChar (c : Char) : String :=
  if c = '"' then "\\\""
  else if c = '\\' then "\\\\"
  else if c = '\n' then "\\n"
  else if c = '\r' then "\\r"
  else if c = '\t' then "\\t"
  else if c.toNat = 0 then "\\0"
  else if isUnprintable c then "\\u\x7b" ++ hexadecimal c.toNat ++ "\x7d"
  else c.toString

/-- The text between double quotes. -/
def quoted (text : String) : String := "\"" ++ String.join (text.toList.map quotedChar) ++ "\""

end Phototaxis.Text
