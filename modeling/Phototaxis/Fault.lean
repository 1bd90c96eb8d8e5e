import Phototaxis.Number.Text

/-!
# Faults

A fault is the misuse of an operation that has no answer there: a counter that
would pass its last value, a duration beyond the longest one, a draw from an empty
range, places that have no order, a vehicle with a negative speed. A fault ends what
is going on; it is not an error that an input can be blamed for.
-/

namespace Phototaxis

/-- The kinds of ranges to draw from, by whether the upper end belongs to them. -/
inductive RangeKind where
  | halfOpen
  | closed
deriving DecidableEq

/-- How a text of a fault names the draw from a range. -/
def RangeKind.sampler : RangeKind → String
  | halfOpen => "UniformSampler::sample_single"
  | closed => "Uniform::new_inclusive"

/-- What can go wrong inside an operation. -/
inductive Fault where
  /-- A counter would pass `2 ^ 64 - 1`. -/
  | counterOverflow
  /-- A counter would fall below zero. -/
  | counterUnderflow
  /-- The sum of two durations is beyond the longest duration. -/
  | durationSum
  /-- A number of seconds and nanoseconds is beyond the longest duration. -/
  | durationRange
  /-- A range without a value to draw. -/
  | emptyRange
  /-- A range whose lower end is no finite float. -/
  | lowEnd (kind : RangeKind)
  /-- A range whose upper end is no finite float. -/
  | highEnd (kind : RangeKind)
  /-- A range too wide for a float. -/
  | wideRange (kind : RangeKind)
  /-- Places to be put in order, one of which has a coordinate that is no number. -/
  | unorderedPlaces
  /-- A speed that is negative or no number. -/
  | speed (speed : Float)

namespace Fault

/-- The text of a fault. -/
def message : Fault → String
  | counterOverflow => "attempt to add with overflow"
  | counterUnderflow => "attempt to subtract with overflow"
  | durationSum => "overflow when adding durations"
  | durationRange => "overflow in Duration::new"
  | emptyRange => "cannot sample empty range"
  | lowEnd kind => kind.sampler ++ " called with `low` non-finite."
  | highEnd kind => kind.sampler ++ " called with `high` non-finite."
  | wideRange kind => kind.sampler ++ ": range overflow"
  | unorderedPlaces => "called `Option::unwrap()` on a `None` value"
  | speed s => "vehicle speed must be non-negative, got " ++ Number.text s

end Fault

end Phototaxis
