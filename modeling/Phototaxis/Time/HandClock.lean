import Phototaxis.Time.Duration

/-!
# A clock moved by hand

The clock holds a word of nanoseconds. Jumping to an absolute reading never moves
it back; advancing adds to the word, which wraps. A duration that does not fit the
word counts as the greatest word.
-/

namespace Phototaxis

/-- A clock that moves only when it is told to. -/
structure HandClock where
  nanos : UInt64 := 0
deriving DecidableEq, Inhabited

/-- The nanoseconds of a duration, at most those of the greatest word. -/
def Duration.word (d : Duration) : UInt64 := UInt64.ofNat (min d.nanos (UInt64.size - 1))

namespace HandClock

/-- The reading. -/
def reading (c : HandClock) : Duration := .ofWord c.nanos

/-- The clock moved forward by a duration. -/
def advance (c : HandClock) (span : Duration) : HandClock := ⟨c.nanos + span.word⟩

/-- The clock set to a reading, unless it is already past it. -/
def set (c : HandClock) (reading : Duration) : HandClock :=
  ⟨if c.nanos ≤ reading.word then reading.word else c.nanos⟩

end HandClock

end Phototaxis
