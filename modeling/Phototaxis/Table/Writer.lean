/-!
# Writing tables

A record is written as its fields between commas and a line feed at the end. A field
is put between double quotes only where it would otherwise be read differently: if
it holds a comma, a quote or a line end. Quotes inside are then written twice.
-/

namespace Phototaxis.Table

/-- Whether a character must stand between quotes. -/
def needsQuotes (c : Char) : Bool := c == ',' || c == '"' || c == '\r' || c == '\n'

/-- The characters with every quote written twice. -/
def doubleQuotes : List Char → List Char
  | [] => []
  | c :: rest => if c == '"' then '"' :: '"' :: doubleQuotes rest else c :: doubleQuotes rest

/-- A field as it is written. -/
def writeField (field : String) : List Char :=
  let chars := field.toList
  if chars.any needsQuotes then '"' :: doubleQuotes chars ++ ['"'] else chars

/-- The fields with commas between them. -/
def writeFields : List String → List Char
  | [] => []
  | [field] => writeField field
  | field :: rest => writeField field ++ ',' :: writeFields rest

/-- A record as it is written. -/
def writeRecord (fields : List String) : String := String.ofList (writeFields fields ++ ['\n'])

end Phototaxis.Table
