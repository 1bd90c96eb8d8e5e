import Phototaxis.CommandLine.Run

/-!
# The program

Runs a flock in real time without a window. This is the thin layer around
`Phototaxis.Run`: it reads the files that a run asks for, reads the clock of the host
before each tick, writes the tables, and prints what the run has come to.
-/

namespace Phototaxis.Program

/-- What is printed when help is asked for. -/
def usage : List String :=
  [ "Run a flock of light-seeking vehicles without a window",
    "",
    "  --add-light <RECORD>      Add a light: \"x y intensity\"; may be repeated",
    "  --random-lights <N>       Number of randomly placed lights",
    "  --add-vehicle <RECORD>    Add a vehicle: \"x y heading speed behavior\"; may be repeated",
    "  --random-vehicles <N>     Number of randomly placed followers",
    "  --file <PATH>             Scenario file to load",
    "  --seed <SEED>             Generation seed",
    "  --seconds <SECONDS>       Real time to run for (10)",
    "  --ticks <TICKS>           Run exactly this many ticks instead",
    "  --output <DIR>            Write trajectories as tables into this directory",
    "  --linear-search           Scan every vehicle for neighbors",
    "  -h, --help                Print help" ]

/-- The fault that an error of the host stands for. -/
def faultOf (error : IO.Error) : FileFault :=
  match error with
  | .noFileOrDirectory .. => .notFound
  | .alreadyExists .. => .alreadyExists
  | .inappropriateType _ code _ => if code == 21 then .isDirectory else .notDirectory
  | error => .other error.toString

/-- What a path of the host leads to. -/
def readEntry (path : String) : IO (Except FileFault Files.Entry) := do
  try
    return .ok (.file (← IO.FS.readBinFile path).toList)
  catch error =>
    match faultOf error with
    | .isDirectory => return .ok .directory
    | fault => return .error fault

/-- The entries of the host under some paths. -/
def readEntries (paths : List String) : IO (List (String × Except FileFault Files.Entry)) :=
  paths.mapM fun path => do return (path, ← readEntry path)

/-- A reader of entries that have been read already. -/
def readerOf (entries : List (String × Except FileFault Files.Entry)) : Files.Reader := fun path =>
  match entries.find? (·.1 == path) with
  | some (_, result) => result
  | none => .error .notFound

/-- The flock of a run, from the files of the host. -/
def prepare (options : Options) : IO (Except RunFailure Flock) := do
  let files ← readEntries options.file.toList
  let tables := match Run.scenarioFile options (readerOf files) with
    | .ok file => file.lightsTable.toList ++ file.vehiclesTable.toList
    | .error _ => []
  return Run.prepare options (readerOf (files ++ (← readEntries tables)))

/-- Writes tables into a directory that is there. -/
def writeTables (directory : String) (tables : TrajectoryTables) : IO Unit := do
  IO.FS.writeFile (Path.join directory TrajectoryTables.vehiclesName) tables.vehicles
  IO.FS.writeFile (Path.join directory TrajectoryTables.summariesName) tables.summaries

/-- Makes a directory of the host, unless it is there. -/
def ensureDirectory (path : String) : IO Unit := do
  try
    IO.FS.createDir path
  catch error =>
    match faultOf error, ← readEntry path with
    | .alreadyExists, .ok .directory => return
    | _, _ => throw error

/-- Makes the directory of the host at the first path. Where the way to it is missing, that of the
next path, which leads to it, is made before. -/
def ensureUpward : List String → IO Unit
  | [] => return
  | path :: shorter => do
    try
      ensureDirectory path
    catch error =>
      match faultOf error with
      | .notFound =>
        ensureUpward shorter
        ensureDirectory path
      | _ => throw error

/-- Makes the output directory and the tables in it. -/
def createTables (directory : String) : IO (Except TrajectoryError Unit) := do
  try
    ensureUpward (Path.upward directory)
  catch error => return .error (.directory (faultOf error))
  try
    writeTables directory {}
    return .ok ()
  catch error => return .error (.table (faultOf error))

/-- The time since a reading of the host's clock. -/
def elapsed (start : Nat) : IO Duration := do
  return (Duration.ofNanos? ((← IO.monoNanosNow) - start)).getD .longest

/-- Whether a run goes on: it has ticks left, or its time is not over. -/
def goesOn (options : Options) (schedule : Schedule) (now : Duration) : Bool :=
  match options.ticks, options.runLength with
  | some n, _ => schedule.time.tick.count < n
  | none, .ok length => now < length
  | none, .error _ => false

/-- Lets the time of a run pass. -/
def drive (options : Options) (start : Nat) (schedule : Schedule) (watchers : Run.Watchers) :
    IO (Except (Interruption Run.Watchers) (Schedule × Run.Watchers)) := do
  let observer := Run.observer options
  let mut schedule := schedule
  let mut s := watchers
  while goesOn options schedule (← elapsed start) do
    s := observer (.tickStarts schedule.time.tick) s
    match schedule.tickAt observer (← elapsed start) s with
    | .error interruption => return .error interruption
    | .ok (_, next, seen) =>
      schedule := next
      s := seen
  return .ok (schedule, observer (.stops schedule.time) s)

/-- The run of a flock that is ready. -/
def runFlock (options : Options) (flock : Flock) : IO Run.Outcome := do
  let start ← IO.monoNanosNow
  match Run.schedule flock .zero with
  | .error failure => return .ofFailure failure
  | .ok schedule =>
    if let some directory := options.output then
      if let .error error ← createTables directory then
        return .ofFailure (.output directory error)
    match ← drive options start schedule (Run.watchers flock) with
    | .error interruption =>
      if let some directory := options.output then writeTables directory interruption.state.2.sink
      return .ofFault interruption.fault
    | .ok (schedule, s) =>
      if let some directory := options.output then writeTables directory s.2.sink
      return .ofReport ⟨schedule.time, s.1, ← elapsed start⟩

/-- The run that the arguments ask for. -/
def run (arguments : List String) : IO Run.Outcome := do
  match Options.ofArguments arguments with
  | .error .help => return { exitCode := 0, output := usage }
  | .error error => return .ofUsage error
  | .ok options =>
    match ← prepare options with
    | .error failure => return .ofFailure failure
    | .ok flock => runFlock options flock

end Phototaxis.Program

/-- Runs the program and prints what it has come to. -/
def main (arguments : List String) : IO UInt32 := do
  let outcome ← Phototaxis.Program.run arguments
  for line in outcome.output do
    IO.println line
  for line in outcome.errors do
    IO.eprintln line
  return .ofNat outcome.exitCode
