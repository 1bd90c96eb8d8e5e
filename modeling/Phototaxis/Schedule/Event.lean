import Phototaxis.Flock.Basic
import Phototaxis.Time.Simulated

/-!
# Events of a schedule

A schedule tells an observer what it does, one event after the other. An observer
answers by changing a state of its own choice; nothing that it is told about can be
changed by it.

Two observers watch as one, the left one first.
-/

namespace Phototaxis

/-- What happens in a schedule. -/
inductive Event where
  /-- A tick starts; its clock has not been read yet. -/
  | tickStarts (tick : Tick)
  /-- A frame is handed over, with the simulated seconds since the last one. -/
  | frame (tick : Tick) (elapsed : Float) (flock : Flock)
  /-- A tick has ended, with its step. -/
  | tickEnds (tick : Tick) (step : Duration)
  /-- A run has stopped. -/
  | stops (time : SimulatedTime)

/-- What an event does to a state. -/
abbrev Observer (σ : Type) := Event → σ → σ

namespace Observer

/-- The observer that does nothing. -/
def idle {σ : Type} : Observer σ := fun _ s => s

/-- Both observers, the left one first. -/
def both {σ τ : Type} (left : Observer σ) (right : Observer τ) : Observer (σ × τ) :=
  fun event s => (left event s.1, right event s.2)

end Observer

end Phototaxis
