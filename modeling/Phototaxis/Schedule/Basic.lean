import Phototaxis.Schedule.Event

/-!
# The schedule

A schedule drives a flock in real time. In each tick it

* tells the observer that the tick starts, and then reads the clock;
* takes the real time since the last tick, cut at the longest step, as the step of
  this tick, and adds it to the simulated time since the last frame;
* steps the flock;
* hands a frame over if more than the frame interval has passed since the last one,
  with the simulated time in between, which then starts again at zero;
* tells the observer that the tick has ended.

When the host falls behind, simulated time runs slower than real time; the steps do
not grow.

The clock reads from the state of the observer, which may move it. So whatever
drives the time – readings given beforehand, a clock moved by hand, a clock moved by
the observer itself – is a `Clock`.

A tick may break off by a fault. An `Interruption` keeps what has been done by then.
-/

namespace Phototaxis

/-- A source of real time. -/
abbrev Clock (σ : Type) := σ → Duration × σ

/-- What one tick did. -/
structure TickReport where
  tick : Tick
  /-- The step that was applied. -/
  step : Duration
  /-- The real time since the last tick. -/
  realElapsed : Duration
  /-- Whether a frame was handed over. -/
  handedOver : Bool
deriving DecidableEq

/-- A flock with the times of its schedule. -/
structure Schedule where
  flock : Flock
  timing : Timing
  /-- The steps so far. -/
  time : SimulatedTime
  /-- The reading of the last tick. -/
  lastTick : Duration
  /-- The reading of the last frame. -/
  lastFrame : Duration
  /-- The simulated time since the last frame. -/
  sinceFrame : Duration
  /-- The number of frames. -/
  frames : UInt64

/-- A fault in a tick, with the schedule and the state of the observer as they were then. -/
structure Interruption (σ : Type) where
  fault : Fault
  schedule : Schedule
  state : σ

/-- Why a flock cannot be scheduled. -/
inductive ScheduleError where
  | timing (error : TimingError)

/-- The text of the error. -/
def ScheduleError.message : ScheduleError → String
  | timing error => "scheduler configuration error: " ++ error.message

namespace Schedule

variable {σ : Type}

/-- The schedule of a flock, from a reading of the clock on. -/
def start (flock : Flock) (timing : Timing) (reading : Duration) : Except ScheduleError Schedule :=
  match timing.validate with
  | .error e => .error (.timing e)
  | .ok _ => .ok ⟨flock, timing, .start, reading, reading, .zero, 0⟩

/-- One more frame, unless the number of frames would pass its last value. -/
def countFrame (frames : UInt64) : Except Fault UInt64 :=
  if frames.toNat + 1 < UInt64.size then .ok (frames + 1) else .error .counterOverflow

/-- A result, whose fault interrupts the schedule. -/
def attempt {α : Type} (schedule : Schedule) (s : σ) (result : Except Fault α) :
    Except (Interruption σ) α :=
  result.mapError (⟨·, schedule, s⟩)

/-- Counts the step and steps the flock. -/
def advance (schedule : Schedule) (step : Duration) (s : σ) :
    Except (Interruption σ) Schedule := do
  let sinceFrame ← schedule.attempt s (schedule.sinceFrame.add step)
  let schedule := { schedule with sinceFrame := sinceFrame }
  let flock ← schedule.attempt s (schedule.flock.step step.seconds)
  return { schedule with flock := flock }

/-- Hands a frame over, if one is due at a reading. -/
def handOver (observer : Observer σ) (now : Duration) (schedule : Schedule) (s : σ) :
    Except (Interruption σ) (Bool × Schedule × σ) :=
  if schedule.timing.frameDue (now - schedule.lastFrame) then do
    let s := observer (.frame schedule.time.tick schedule.sinceFrame.seconds schedule.flock) s
    let schedule := { schedule with sinceFrame := .zero, lastFrame := now }
    let frames ← schedule.attempt s (countFrame schedule.frames)
    return (true, { schedule with frames := frames }, s)
  else return (false, schedule, s)

/-- The part of a tick that follows the reading of the clock. -/
def tickAt (observer : Observer σ) (now : Duration) (schedule : Schedule) (s : σ) :
    Except (Interruption σ) (TickReport × Schedule × σ) := do
  let tick := schedule.time.tick
  let realElapsed := now - schedule.lastTick
  let step := schedule.timing.step realElapsed
  let advanced ← schedule.advance step s
  let (handedOver, shown, s) ← advanced.handOver observer now s
  let shown := { shown with lastTick := now }
  let time ← shown.attempt s (shown.time.advance step)
  let s := observer (.tickEnds tick step) s
  return (⟨tick, step, realElapsed, handedOver⟩, { shown with time := time }, s)

/-- One tick. -/
def tick (clock : Clock σ) (observer : Observer σ) (schedule : Schedule) (s : σ) :
    Except (Interruption σ) (TickReport × Schedule × σ) :=
  let (now, s) := clock (observer (.tickStarts schedule.time.tick) s)
  schedule.tickAt observer now s

/-- So many ticks, with their reports in order. -/
def ticks (clock : Clock σ) (observer : Observer σ) :
    Nat → Schedule → σ → Except (Interruption σ) (List TickReport × Schedule × σ)
  | 0, schedule, s => .ok ([], schedule, s)
  | n + 1, schedule, s => do
    let (report, schedule, s) ← schedule.tick clock observer s
    let (reports, schedule, s) ← ticks clock observer n schedule s
    return (report :: reports, schedule, s)

/-- So many ticks, without their reports. -/
def runTicks (clock : Clock σ) (observer : Observer σ) (n : Nat) (schedule : Schedule) (s : σ) :
    Except (Interruption σ) (Schedule × σ) := do
  let (_, schedule, s) ← ticks clock observer n schedule s
  return (schedule, s)

/-- Ticks until the state says stop. A counter of ticks has room for the given number only; the tick
behind the last one is a fault. -/
def runWithin (clock : Clock σ) (observer : Observer σ) (stopped : σ → Bool) :
    Nat → Schedule → σ → Except (Interruption σ) (Schedule × σ)
  | 0, schedule, s => .error ⟨.counterOverflow, schedule, s⟩
  | room + 1, schedule, s =>
    if stopped s then .ok (schedule, observer (.stops schedule.time) s)
    else do
      let (_, schedule, s) ← schedule.tick clock observer s
      runWithin clock observer stopped room schedule s

/-- Ticks until the state says stop, and then tells the observer. The state is asked before each
tick, so a tick is never broken off. -/
def run (clock : Clock σ) (observer : Observer σ) (stopped : σ → Bool) (schedule : Schedule)
    (s : σ) : Except (Interruption σ) (Schedule × σ) :=
  runWithin clock observer stopped (UInt64.size - schedule.time.tick.count.toNat) schedule s

end Schedule

end Phototaxis
