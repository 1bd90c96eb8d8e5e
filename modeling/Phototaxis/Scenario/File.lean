import Phototaxis.Random.Generator
import Phototaxis.Scenario.Error

/-!
# Scenario files

A scenario file describes an initial world by seven keys, none of which need be
there. Its paths are relative to the directory that holds it; `load` resolves them
after reading.
-/

namespace Phototaxis

/-- The description of an initial world. -/
structure ScenarioFile where
  /-- The seed of the generator. -/
  seed : UInt64 := Generator.standardSeed
  /-- The number of lights to generate. -/
  randomLights : Nat := 0
  /-- The number of followers to generate. -/
  randomVehicles : Nat := 0
  /-- Records of lights. -/
  addLight : List String := []
  /-- Records of vehicles. -/
  addVehicle : List String := []
  /-- The path of a table of lights. -/
  lightsTable : Option String := none
  /-- The path of a table of vehicles. -/
  vehiclesTable : Option String := none
deriving DecidableEq, Inhabited

namespace ScenarioFile

/-- The description with the value of one key put in. -/
def set (file : ScenarioFile) (key : String) (value : Toml.Value) :
    Except ScenarioFileFault ScenarioFile :=
  let natural (put : Nat → ScenarioFile) : Except ScenarioFileFault ScenarioFile :=
    match value with
    | .integer n => if n < 0 then .error (.wrongValue key) else .ok (put n.toNat)
    | _ => .error (.wrongValue key)
  let texts (put : List String → ScenarioFile) : Except ScenarioFileFault ScenarioFile :=
    match value with
    | .texts texts => .ok (put texts)
    | _ => .error (.wrongValue key)
  let text (put : String → ScenarioFile) : Except ScenarioFileFault ScenarioFile :=
    match value with
    | .text text => .ok (put text)
    | _ => .error (.wrongValue key)
  match key with
  | "seed" => natural fun n => { file with seed := .ofNat n }
  | "random_lights" => natural fun n => { file with randomLights := n }
  | "random_vehicles" => natural fun n => { file with randomVehicles := n }
  | "add_light" => texts fun records => { file with addLight := records }
  | "add_vehicle" => texts fun records => { file with addVehicle := records }
  | "lights_csv" => text fun path => { file with lightsTable := some path }
  | "vehicles_csv" => text fun path => { file with vehiclesTable := some path }
  | _ => .error (.unknownKey key)

/-- The description that a text gives. Paths are left as they are written. -/
def ofText (text : String) : Except ScenarioError ScenarioFile :=
  match Toml.document? text with
  | none => .error (.file .malformed)
  | some entries =>
    let put (file : ScenarioFile) (entry : String × Toml.Value) :=
      (file.set entry.1 entry.2).mapError ScenarioError.file
    entries.foldlM put {}

/-- The description with its relative paths seen from a directory. -/
def inDirectory (file : ScenarioFile) (directory : String) : ScenarioFile :=
  { file with
    lightsTable := file.lightsTable.map (Path.join directory)
    vehiclesTable := file.vehiclesTable.map (Path.join directory) }

/-- The description in the file at a path. -/
def load (read : Files.Reader) (path : String) : Except ScenarioError ScenarioFile := do
  let text ← match read.text path with
    | .ok text => pure text
    | .error fault => throw (.unreadable fault)
  let file ← ofText text
  return match Path.parent? path with
    | some directory => file.inDirectory directory
    | none => file

end ScenarioFile

end Phototaxis
