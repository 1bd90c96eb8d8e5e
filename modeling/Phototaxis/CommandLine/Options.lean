import Phototaxis.Flock.PeerSearch
import Phototaxis.Scenario.File
import Phototaxis.Time.Duration

/-!
# Options of a run

The options say what world to assemble, how long to run it, and where to write its
trajectory. A scenario file may describe the world as well: the records of the
command line then stand before those of the file, and its counts and its seed take
the place of the file's.
-/

namespace Phototaxis

/-- The options of a run. -/
structure Options where
  /-- Records of lights. -/
  addLight : List String := []
  /-- The number of lights to generate. -/
  randomLights : Option Nat := none
  /-- Records of vehicles. -/
  addVehicle : List String := []
  /-- The number of followers to generate. -/
  randomVehicles : Option Nat := none
  /-- The path of a scenario file. -/
  file : Option String := none
  /-- The seed of the generator. -/
  seed : Option UInt64 := none
  /-- The seconds of real time to run for. -/
  seconds : Float := 10.0
  /-- The number of ticks to run instead. -/
  ticks : Option UInt64 := none
  /-- The directory to write the trajectory to. -/
  output : Option String := none
  /-- Whether every vehicle looks at all others. -/
  linearSearch : Bool := false
deriving Inhabited

/-- A number of seconds for which no run lasts. -/
structure RunLengthError where
  seconds : Float
  cause : SecondsError

/-- The text of the error. -/
def RunLengthError.message (e : RunLengthError) : String :=
  "invalid --seconds " ++ Number.text e.seconds ++ ": " ++ e.cause.message

namespace Options

/-- The description of the world by a scenario file and, on top of it, the options. -/
def applyTo (options : Options) (file : ScenarioFile) : ScenarioFile :=
  { file with
    addLight := options.addLight ++ file.addLight
    addVehicle := options.addVehicle ++ file.addVehicle
    randomLights := options.randomLights.getD file.randomLights
    randomVehicles := options.randomVehicles.getD file.randomVehicles
    seed := options.seed.getD file.seed }

/-- The real time to run for. -/
def runLength (options : Options) : Except RunLengthError Duration :=
  match Duration.ofSeconds options.seconds with
  | .ok d => .ok d
  | .error e => .error ⟨options.seconds, e⟩

/-- The search that the options ask for. -/
def search (options : Options) : PeerSearch :=
  if options.linearSearch then .linear else .indexed

end Options

end Phototaxis
