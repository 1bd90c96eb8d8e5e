import Phototaxis.CommandLine.Arguments
import Phototaxis.CommandLine.Report

/-!
# Runs

A run assembles its world from the options and their files, schedules it, watches it
with a scene and – if a directory is given – a recording, and reports what came of
it.

Its faults are looked for in a fixed order: the run length, the scenario file, the
world, the output directory. Only then does time begin to pass.

`Run.prepare`, `Run.observer` and `Run.drive` are the parts. `Run.onDisk` puts them
together for files on a `Disk` and any clock.
-/

namespace Phototaxis

namespace Run

/-- What watches a run: a scene, and a recording into two tables. -/
abbrev Watchers := Scene × Recorder TrajectoryTables Empty

/-- The watchers before the first tick. -/
def watchers (flock : Flock) : Watchers := (.ofFlock flock, { sink := {} })

/-- The observer of a run. Without an output directory nothing is recorded. -/
def observer (options : Options) : Observer Watchers :=
  Scene.observer.both <|
    if options.output.isSome then Recorder.observer (TrajectoryTables.sink Empty)
    else Observer.idle

/-- The scenario file of a run; without one, the world is described by the options alone. -/
def scenarioFile (options : Options) (read : Files.Reader) : Except RunFailure ScenarioFile :=
  match options.file with
  | none => .ok {}
  | some path => (ScenarioFile.load read path).mapError (.loading path)

/-- The flock of a run. -/
def prepare (options : Options) (read : Files.Reader) : Except RunFailure Flock := do
  let _ ← options.runLength.mapError RunFailure.runLength
  let file ← scenarioFile options read
  let plan := Plan.ofFile (options.applyTo file)
  let scenario ← (plan.scenario read).mapError RunFailure.building
  return (Flock.ofScenario scenario).withSearch options.search

/-- The schedule of a run, from a reading of the clock on. -/
def schedule (flock : Flock) (reading : Duration) : Except RunFailure Schedule :=
  (Schedule.start flock .standard reading).mapError .schedule

/-- Lets the time of a run pass: for its number of ticks, or else until it is stopped. -/
def drive (options : Options) (clock : Clock Watchers) (stopped : Watchers → Bool)
    (schedule : Schedule) (s : Watchers) :
    Except (Interruption Watchers) (Schedule × Watchers) :=
  let observer := observer options
  match options.ticks with
  | some n => do
    let (schedule, s) ← schedule.runTicks clock observer n.toNat s
    return (schedule, observer (.stops schedule.time) s)
  | none => schedule.run clock observer stopped s

/-- How a program ends. -/
structure Outcome where
  exitCode : Nat
  output : List String := []
  errors : List String := []
deriving Inhabited

namespace Outcome

/-- The end of a program whose arguments are wrong, or that was only asked for help. -/
def ofUsage (error : UsageError) : Outcome :=
  match error with
  | .help => ⟨0, [], []⟩
  | error => ⟨2, [], ["error: " ++ error.message]⟩

/-- The end of a run that broke off. -/
def ofFault (fault : Fault) : Outcome := ⟨101, [], [fault.message]⟩

/-- The end of a run that failed, or broke off before it began. -/
def ofFailure : RunFailure → Outcome
  | .building (.misuse fault) => ofFault fault
  | failure => ⟨1, [], failure.lines⟩

/-- The end of a run that came to its end. -/
def ofReport (report : RunReport) : Outcome := ⟨0, report.lines, []⟩

end Outcome

/-- The new tables of a run in its output directory, if it has one. -/
def createTables (options : Options) (disk : Files.Disk) : Except RunFailure Unit × Files.Disk :=
  match options.output with
  | none => (.ok (), disk)
  | some directory =>
    match TrajectoryTables.create directory disk with
    | (.error e, disk) => (.error (.output directory e), disk)
    | (.ok _, disk) => (.ok (), disk)

/-- The disk with the tables of a run in its output directory, if it has one. -/
def saveTables (options : Options) (s : Watchers) (disk : Files.Disk) : Files.Disk :=
  match options.output with
  | none => disk
  | some directory => (s.2.sink.save directory disk).2

/-- A whole run by a clock, with the disk that it leaves. -/
def onDisk (clock : Clock Watchers) (stopped : Watchers → Bool) (options : Options)
    (disk : Files.Disk) : Outcome × Files.Disk :=
  match prepare options disk.reader with
  | .error failure => (.ofFailure failure, disk)
  | .ok flock =>
    let (reading, s) := clock (watchers flock)
    match schedule flock reading, createTables options disk with
    | .error failure, _ => (.ofFailure failure, disk)
    | .ok _, (.error failure, disk) => (.ofFailure failure, disk)
    | .ok start, (.ok _, disk) =>
      match drive options clock stopped start s with
      | .error interruption =>
        (.ofFault interruption.fault, saveTables options interruption.state disk)
      | .ok (schedule, s) =>
        let wall := (clock s).1 - reading
        (.ofReport ⟨schedule.time, s.1, wall⟩, saveTables options s disk)

end Run

end Phototaxis
