import Phototaxis.Time.Duration

/-!
# Simulated time

Two clocks run side by side. *Real* time is what the schedule's clock shows;
*simulated* time is the sum of the steps that were applied to the flock. A `Tick`
counts the steps, and a `SimulatedTime` pairs that count with their sum.

`Timing` is the policy that relates the two: a step is the real time since the last
tick, cut at the longest step, and a frame is due once more than the frame
interval has passed.
-/

namespace Phototaxis

/-- The number of a step. -/
structure Tick where
  count : UInt64
deriving DecidableEq, Inhabited

namespace Tick

/-- The tick of the first step. -/
def zero : Tick := ⟨0⟩

/-- The tick `n` steps later. -/
def after (t : Tick) (n : UInt64) : Except Fault Tick :=
  if t.count.toNat + n.toNat < UInt64.size then .ok ⟨t.count + n⟩ else .error .counterOverflow

/-- The number of steps since an earlier tick. -/
def since (t earlier : Tick) : Except Fault UInt64 :=
  if earlier.count ≤ t.count then .ok (t.count - earlier.count) else .error .counterUnderflow

/-- The text of a tick. -/
def text (t : Tick) : String := "T" ++ toString t.count.toNat

end Tick

/-- The steps taken so far, and the sum of their lengths. -/
structure SimulatedTime where
  tick : Tick
  simulated : Duration
deriving DecidableEq, Inhabited

namespace SimulatedTime

/-- Before the first step. -/
def start : SimulatedTime := ⟨.zero, .zero⟩

/-- One more step of a given length. -/
def advance (t : SimulatedTime) (step : Duration) : Except Fault SimulatedTime := do
  let tick ← t.tick.after 1
  let simulated ← t.simulated.add step
  return ⟨tick, simulated⟩

/-- The simulated time in seconds. -/
def seconds (t : SimulatedTime) : Float := t.simulated.seconds

/-- The text of a simulated time. -/
def text (t : SimulatedTime) : String :=
  t.tick.text ++ " (" ++ Number.fixed 3 t.seconds ++ " s simulated)"

end SimulatedTime

/-- How real time is turned into steps and frames. -/
structure Timing where
  /-- The longest step of one tick. -/
  maxStep : Duration := ⟨10000000, by decide⟩
  /-- The real time that must be exceeded between two frames. -/
  frameInterval : Duration := ⟨15000000, by decide⟩
deriving DecidableEq, Inhabited

/-- A timing under which the flock could never advance. -/
inductive TimingError where
  | zeroMaxStep

/-- The text of a timing error. -/
def TimingError.message : TimingError → String
  | zeroMaxStep => "configuration error: max_step must be greater than zero"

namespace Timing

/-- The timing of a schedule that is not told otherwise. -/
def standard : Timing := {}

/-- The step for a span of real time. -/
def step (t : Timing) (elapsed : Duration) : Duration := min elapsed t.maxStep

/-- Whether a frame is due after a span of real time without one. -/
def frameDue (t : Timing) (sinceFrame : Duration) : Bool := t.frameInterval < sinceFrame

/-- Refuses a timing whose longest step is zero. -/
def validate (t : Timing) : Except TimingError Unit :=
  if t.maxStep = .zero then .error .zeroMaxStep else .ok ()

end Timing

end Phototaxis
