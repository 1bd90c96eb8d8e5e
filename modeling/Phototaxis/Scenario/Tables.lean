import Phototaxis.Scenario.Record

/-!
# Tables of lights and vehicles

A table holds one item a row, under a header that names the columns. The rows are
held to the rules of the records; an error names row `i` as line `i + 2`, since the
header is line one. The first row at fault refuses the whole table.

A directory in the place of a table has no rows.
-/

namespace Phototaxis

namespace Table

/-- The columns of a light. -/
def lightLayout : Layout := ⟨"LightRow", ["x", "y", "intensity"]⟩

/-- The columns of a vehicle. -/
def vehicleLayout : Layout := ⟨"VehicleRow", ["x", "y", "heading", "speed", "behavior"]⟩

/-- The name of a row in an error. -/
def rowLabel (index : Nat) : String := "CSV line " ++ toString (index + 2)

/-- The light of a row. -/
def lightOfRow (label : String) : List String → Except ScenarioError Light
  | [x, y, intensity] => Light.ofFields label x y intensity
  | fields => .error (.record label (.fieldCount 3 fields.length))

/-- The vehicle of a row. -/
def vehicleOfRow (label : String) : List String → Except ScenarioError Vehicle
  | [x, y, heading, speed, behavior] => Vehicle.ofFields label x y heading speed behavior
  | fields => .error (.record label (.fieldCount 5 fields.length))

/-- The items of rows, numbered from `index` on. -/
def itemsFrom {α : Type} (item : String → List String → Except ScenarioError α) (index : Nat) :
    List (Except Fault (List String)) → Except ScenarioError (List α)
  | [] => .ok []
  | .error fault :: _ => .error (.table fault)
  | .ok fields :: rest => do
    let first ← item (rowLabel index) fields
    let others ← itemsFrom item (index + 1) rest
    return first :: others

/-- The lights of a table. -/
def lights (bytes : List UInt8) : Except ScenarioError (List Light) :=
  itemsFrom lightOfRow 0 (lightLayout.rows bytes)

/-- The vehicles of a table. -/
def vehicles (bytes : List UInt8) : Except ScenarioError (List Vehicle) :=
  itemsFrom vehicleOfRow 0 (vehicleLayout.rows bytes)

/-- The items of the table at a path. -/
def load {α : Type} (read : Files.Reader) (items : List UInt8 → Except ScenarioError (List α))
    (path : String) : Except ScenarioError (List α) :=
  match read path with
  | .error fault => .error (.unreadable fault)
  | .ok .directory => .ok []
  | .ok (.file bytes) => items bytes

end Table

end Phototaxis
