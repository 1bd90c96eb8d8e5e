import Phototaxis.Light
import Phototaxis.Number.Literal
import Phototaxis.Scenario.Error
import Phototaxis.Vehicle.Basic

/-!
# Records

A light is written as `x y intensity`, a vehicle as `x y heading speed behavior`,
with blanks between. Numbers are finite literals and a speed is not negative.

The fields are looked at from left to right and the first fault decides. What names
the record in an error is given apart, because the rows of a table are held to the
same rules under a label of their own.
-/

namespace Phototaxis

namespace Record

/-- The finite number that a field spells. -/
def number (record name field : String) : Except ScenarioError Float :=
  match Number.ofText? field with
  | none => .error (.record record (.notNumber name field))
  | some value =>
    if value.isFinite then .ok value else .error (.record record (.notFinite name field))

/-- The speed that a field spells. -/
def speed (record field : String) : Except ScenarioError Float := do
  let value ← number record "speed" field
  if value < 0.0 then throw (.record record (.negativeSpeed value))
  return value

/-- The behavior that a field names. -/
def behavior (field : String) : Except ScenarioError Behavior :=
  match Behavior.ofName field with
  | .ok b => .ok b
  | .error e => .error (.behavior e)

end Record

/-- The light of three fields. -/
def Light.ofFields (record x y intensity : String) : Except ScenarioError Light := do
  let x ← Record.number record "x" x
  let y ← Record.number record "y" y
  let intensity ← Record.number record "intensity" intensity
  return ⟨⟨x, y⟩, intensity⟩

/-- The vehicle of five fields. -/
def Vehicle.ofFields (record x y heading speed behavior : String) :
    Except ScenarioError Vehicle := do
  let x ← Record.number record "x" x
  let y ← Record.number record "y" y
  let heading ← Record.number record "heading" heading
  let speed ← Record.speed record speed
  let behavior ← Record.behavior behavior
  (Vehicle.create ⟨x, y⟩ heading speed behavior).mapError .misuse

/-- The light of a record. -/
def Light.ofRecord (record : String) : Except ScenarioError Light :=
  match Text.words record with
  | [x, y, intensity] => Light.ofFields record x y intensity
  | fields => .error (.record record (.fieldCount 3 fields.length))

/-- The vehicle of a record. -/
def Vehicle.ofRecord (record : String) : Except ScenarioError Vehicle :=
  match Text.words record with
  | [x, y, heading, speed, behavior] => Vehicle.ofFields record x y heading speed behavior
  | fields => .error (.record record (.fieldCount 5 fields.length))

end Phototaxis
