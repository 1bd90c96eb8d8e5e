import Phototaxis.Fault

/-!
# Durations

A duration is a natural number of nanoseconds below `2 ^ 64` seconds. The bound is
part of the type; a sum that would pass it is a fault. Differences stop at zero.
-/

namespace Phototaxis

/-- A length of time, in nanoseconds. -/
structure Duration where
  nanos : Nat
  nanos_lt : nanos < UInt64.size * 1000000000
deriving DecidableEq

namespace Duration

/-- No time at all. -/
def zero : Duration := ⟨0, by decide⟩

instance : Inhabited Duration := ⟨zero⟩

/-- The longest duration. -/
def longest : Duration := ⟨UInt64.size * 1000000000 - 1, by decide⟩

/-- The duration of so many nanoseconds, if it is not too long. -/
def ofNanos? (nanos : Nat) : Option Duration :=
  if h : nanos < UInt64.size * 1000000000 then some ⟨nanos, h⟩ else none

/-- The duration of so many nanoseconds, all of which a word can count. -/
def ofWord (nanos : UInt64) : Duration :=
  ⟨nanos.toNat, Nat.lt_of_lt_of_le nanos.toNat_lt (by decide)⟩

/-- The duration of so many seconds and nanoseconds; the nanoseconds carry into the seconds. -/
def ofParts (seconds nanos : Nat) : Except Fault Duration :=
  match ofNanos? (seconds * 1000000000 + nanos) with
  | some d => .ok d
  | none => .error .durationRange

/-- Whole seconds. -/
def wholeSeconds (d : Duration) : Nat := d.nanos / 1000000000

/-- Nanoseconds beyond the whole seconds. -/
def subsecond (d : Duration) : Nat := d.nanos % 1000000000

/-- The duration in seconds. Whole seconds and the rest are converted apart and then added. -/
def seconds (d : Duration) : Float :=
  Float.ofNat d.wholeSeconds + Float.ofNat d.subsecond / 1e9

instance : LT Duration := ⟨fun a b => a.nanos < b.nanos⟩

instance : LE Duration := ⟨fun a b => a.nanos ≤ b.nanos⟩

instance (a b : Duration) : Decidable (a < b) := inferInstanceAs (Decidable (a.nanos < b.nanos))

instance (a b : Duration) : Decidable (a ≤ b) := inferInstanceAs (Decidable (a.nanos ≤ b.nanos))

instance : Min Duration := ⟨fun a b => if a ≤ b then a else b⟩

/-- The sum, unless it is too long. -/
def add (a b : Duration) : Except Fault Duration :=
  match ofNanos? (a.nanos + b.nanos) with
  | some d => .ok d
  | none => .error .durationSum

/-- The difference; zero if the second is the longer. -/
instance : Sub Duration :=
  ⟨fun a b => ⟨a.nanos - b.nanos, Nat.lt_of_le_of_lt (Nat.sub_le ..) a.nanos_lt⟩⟩

end Duration

/-- Why a number of seconds is no duration. -/
inductive SecondsError where
  | negative
  | tooLong

namespace SecondsError

/-- The text of the error. -/
def message : SecondsError → String
  | negative => "cannot convert float seconds to Duration: value is negative"
  | tooLong => "cannot convert float seconds to Duration: value is either too big or NaN"

end SecondsError

/-- The duration nearest to a number of seconds, ties to the even nanosecond. -/
def Duration.ofSeconds (seconds : Float) : Except SecondsError Duration :=
  match Magnitude.of seconds with
  | .nan => .error .tooLong
  | .infinite negative => .error (if negative then .negative else .tooLong)
  | .finite negative value =>
    if negative && value.mantissa != 0 then .error .negative
    else
      match ofNanos? (value.roundScaled 9) with
      | some d => .ok d
      | none => .error .tooLong

end Phototaxis
