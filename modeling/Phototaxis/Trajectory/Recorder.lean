import Phototaxis.Schedule.Event
import Phototaxis.Trajectory.Rows

/-!
# Recording

A recorder watches a schedule and writes every frame, or one frame in so many, to a
`Sink`. An observer cannot fail, so the recorder goes on when the sink refuses
something, and keeps the first failure until somebody takes it.

Its counters are words of 64 bits and are not checked. The schedule that hands the frames
over checks its own.
-/

namespace Phototaxis

/-- A place to write rows to: each action changes its state and may fail. -/
structure Sink (ω ε : Type) where
  /-- Writes the vehicles of one frame. -/
  writeVehicles : List VehicleRow → ω → Option ε × ω
  /-- Writes the summary of one frame. -/
  writeSummary : FrameSummary → ω → Option ε × ω
  /-- Writes out what may be held back. -/
  finish : ω → Option ε × ω

/-- A recording. -/
structure Recorder (ω ε : Type) where
  /-- The state of the sink. -/
  sink : ω
  /-- The frames whose number is a multiple of this are recorded. -/
  interval : UInt64 := 1
  /-- The frames seen so far. -/
  seen : UInt64 := 0
  /-- The frames recorded so far. -/
  frames : UInt64 := 0
  /-- The simulated seconds so far. -/
  totalSimulated : Float := 0.0
  /-- The first failure that nobody has taken yet. -/
  firstFailure : Option ε := none

namespace Recorder

variable {ω ε : Type}

/-- A recording of every `n`-th frame; zero counts as one. -/
def everyNth (recorder : Recorder ω ε) (n : UInt64) : Recorder ω ε :=
  { recorder with interval := max n 1 }

/-- The recording after an action of the sink. -/
def after (recorder : Recorder ω ε) (result : Option ε × ω) : Recorder ω ε :=
  { recorder with sink := result.2, firstFailure := recorder.firstFailure.or result.1 }

/-- The recording after the vehicles of a frame. No vehicles are not written. -/
def recordVehicles (out : Sink ω ε) (recorder : Recorder ω ε) (rows : List VehicleRow) :
    Recorder ω ε :=
  if rows.isEmpty then recorder else recorder.after (out.writeVehicles rows recorder.sink)

/-- The summary of the next frame. -/
def summary (recorder : Recorder ω ε) (tick : Tick) (elapsed : Float) (flock : Flock) :
    FrameSummary :=
  ⟨recorder.frames, tick, elapsed, recorder.totalSimulated, .ofNat flock.size, flock.meanSpeed⟩

/-- The recording with the next frame in it. -/
def record (out : Sink ω ε) (recorder : Recorder ω ε) (tick : Tick) (elapsed : Float)
    (flock : Flock) : Recorder ω ε :=
  let recorded := recorder.recordVehicles out (flock.rows recorder.frames tick)
  let recorded := recorded.after
    (out.writeSummary (recorder.summary tick elapsed flock) recorded.sink)
  { recorded with frames := recorder.frames + 1 }

/-- The recording after one more frame was handed over. -/
def onFrame (out : Sink ω ε) (recorder : Recorder ω ε) (tick : Tick) (elapsed : Float)
    (flock : Flock) : Recorder ω ε :=
  let due := recorder.seen % recorder.interval = 0
  let counted :=
    { recorder with
      totalSimulated := recorder.totalSimulated + elapsed
      seen := recorder.seen + 1 }
  if due then counted.record out tick elapsed flock else counted

/-- The recording after its sink has written everything out. -/
def onStop (out : Sink ω ε) (recorder : Recorder ω ε) : Recorder ω ε :=
  recorder.after (out.finish recorder.sink)

/-- Writes everything out, and gives a failure back at once. -/
def finish (out : Sink ω ε) (recorder : Recorder ω ε) : Option ε × Recorder ω ε :=
  let (failure, sink) := out.finish recorder.sink
  (failure, { recorder with sink := sink })

/-- The first failure, which is then forgotten. -/
def takeFailure (recorder : Recorder ω ε) : Option ε × Recorder ω ε :=
  (recorder.firstFailure, { recorder with firstFailure := none })

/-- The observer that keeps a recording. -/
def observer (out : Sink ω ε) : Observer (Recorder ω ε)
  | .frame tick elapsed flock, recorder => recorder.onFrame out tick elapsed flock
  | .stops _, recorder => recorder.onStop out
  | _, recorder => recorder

end Recorder

end Phototaxis
