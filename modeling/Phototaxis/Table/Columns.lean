import Phototaxis.Table.Reader

/-!
# Columns

The first record of a table is its header. It names the columns, so their order is
free and columns that nobody asks for do no harm; but each wanted column must be
there once, and every record must have as many fields as the header. A header that
is no text names nothing: the wanted columns are then the first ones, in order.
-/

namespace Phototaxis.Table

/-- The columns that a kind of row is made of, and the name of that kind. -/
structure Layout where
  name : String
  columns : List String

/-- Why a record of a table is refused. -/
inductive Fault where
  | fieldCount (start : Position) (found expected : Nat)
  | notText (start : Position) (field valid : Nat)
  | duplicateColumn (start : Position) (column : String)
  | missingColumn (start : Position) (column : String)
  | tooFewFields (start : Position) (found : Nat) (layout : Layout)

namespace Position

/-- The text of a position. -/
def text (p : Position) : String :=
  "record " ++ toString p.record ++ " (line: " ++ toString p.line ++ ", byte: " ++ toString p.byte
    ++ ")"

end Position

namespace Fault

/-- The text of a fault that lies in the columns. -/
def columnMessage (start : Position) (text : String) : String :=
  "CSV deserialize error: " ++ start.text ++ ": " ++ text

/-- The text of a fault. -/
def message : Fault → String
  | fieldCount start found expected =>
    "CSV error: " ++ start.text ++ ": found record with " ++ toString found
      ++ " fields, but the previous record has " ++ toString expected ++ " fields"
  | notText start field valid =>
    "CSV parse error: record " ++ toString start.record ++ " (line " ++ toString start.line
      ++ ", field: " ++ toString field ++ ", byte: " ++ toString start.byte
      ++ "): invalid utf-8: invalid UTF-8 in field " ++ toString field ++ " near byte index "
      ++ toString valid
  | duplicateColumn start column => columnMessage start ("duplicate field `" ++ column ++ "`")
  | missingColumn start column => columnMessage start ("missing field `" ++ column ++ "`")
  | tooFewFields start found layout =>
    columnMessage start ("invalid length " ++ toString found ++ ", expected struct " ++ layout.name
      ++ " with " ++ toString layout.columns.length ++ " elements")

end Fault

/-- The first name that is wanted and stands among the names before it. -/
def firstRepeated? (wanted seen : List String) : List String → Option String
  | [] => none
  | name :: rest =>
    if wanted.contains name && seen.contains name then some name
    else firstRepeated? wanted (name :: seen) rest

namespace Layout

/-- The field of a wanted column, by the names of the header. -/
def cell (start : Position) (names fields : List String) (column : String) : Except Fault String :=
  match (names.zip fields).find? (·.1 == column) with
  | some (_, text) => .ok text
  | none => .error (.missingColumn start column)

/-- The fields of the wanted columns, in their own order. -/
def cells (layout : Layout) (header : Option (List String)) (start : Position)
    (fields : List String) : Except Fault (List String) :=
  match header with
  | none =>
    if fields.length < layout.columns.length then
      .error (.tooFewFields start fields.length layout)
    else .ok (fields.take layout.columns.length)
  | some names =>
    match firstRepeated? layout.columns [] names with
    | some column => .error (.duplicateColumn start column)
    | none => layout.columns.mapM (cell start names fields)

/-- The wanted fields of one record. -/
def row (layout : Layout) (header : RawRecord) (record : RawRecord) : Except Fault (List String) :=
  if record.fields.length ≠ header.fields.length then
    .error (.fieldCount record.start record.fields.length header.fields.length)
  else
    match fieldTexts 0 record.fields with
    | .error (field, valid) => .error (.notText record.start field valid)
    | .ok fields => layout.cells (fieldTexts 0 header.fields).toOption record.start fields

/-- The wanted fields of every record behind the header. -/
def rows (layout : Layout) (bytes : List UInt8) : List (Except Fault (List String)) :=
  match records bytes with
  | [] => []
  | header :: rest => rest.map (layout.row header)

end Layout

end Phototaxis.Table
