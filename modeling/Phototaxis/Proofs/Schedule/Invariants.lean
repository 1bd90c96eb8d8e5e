import Mathlib
import Phototaxis.Proofs.Number.Decimal
import Phototaxis.Proofs.Schedule.Ledger

/-!
# What a run keeps

A schedule changes the state of its observer in two ways only: it reads the clock and it tells
events. What neither changes holds of the state after any number of ticks and after any run,
and it also holds of the state that an interruption leaves behind (`Keeps.ticks`, `Keeps.run`).

Not every event need be looked at. A frame comes with the seconds of a duration that has
waited for it (`Event.Timed`), and these are never below zero.
-/

namespace Phototaxis

/-- **Seconds are not below zero.** -/
theorem Duration.nonneg_seconds (d : Duration) : 0.0 ≤ d.seconds :=
  Number.nonneg_add (Number.nonneg_ofNat _)
    (Number.nonneg_div (Number.nonneg_ofNat _) (by decide +kernel) (by decide +kernel))

/-- Whether an event is one that a schedule may tell: a frame comes with the seconds of a
duration. -/
def Event.Timed (event : Event) : Prop :=
  ∀ elapsed ∈ event.elapsed?, ∃ waited : Duration, elapsed = waited.seconds

theorem Event.timed_of_eq_none {event : Event} (h : event.elapsed? = none) : event.Timed := by
  intro elapsed helapsed
  rw [h] at helapsed
  cases helapsed

/-- Whether a property of the state outlives a reading of the clock and every event that a schedule
may tell. -/
structure Keeps {σ : Type} (clock : Clock σ) (observer : Observer σ) (P : σ → Prop) : Prop where
  reads : ∀ {s}, P s → P (clock s).2
  hears : ∀ {event}, event.Timed → ∀ {s}, P s → P (observer event s)

/-- Whether a property holds of the state that is left, by a result or by an interruption. -/
def Leaves {σ α : Type} (P : σ → Prop) (state : α → σ) : Except (Interruption σ) α → Prop
  | .ok a => P (state a)
  | .error i => P i.state

variable {σ α β : Type} {P : σ → Prop} {clock : Clock σ} {observer : Observer σ} {s : σ}
  {schedule : Schedule}

/-- A row of operations leaves what its last one leaves. -/
theorem Leaves.bind {state : α → σ} {state' : β → σ} {result : Except (Interruption σ) α}
    {next : α → Except (Interruption σ) β} (h : Leaves P state result)
    (hnext : ∀ a, P (state a) → Leaves P state' (next a)) : Leaves P state' (result >>= next) := by
  cases result with
  | error i => exact h
  | ok a => exact hnext a h

theorem leaves_attempt (hs : P s) (result : Except Fault α) :
    Leaves P (fun _ => s) (schedule.attempt s result) := by
  cases result <;> exact hs

theorem leaves_advance (hs : P s) (step : Duration) :
    Leaves P (fun _ => s) (schedule.advance step s) :=
  (leaves_attempt hs _).bind fun _ hs => (leaves_attempt hs _).bind fun _ hs => hs

namespace Keeps

theorem handOver (h : Keeps clock observer P) (hs : P s) (now : Duration) :
    Leaves P (·.2.2) (schedule.handOver observer now s) := by
  unfold Schedule.handOver
  split
  · have htold : P (observer
        (.frame schedule.time.tick schedule.sinceFrame.seconds schedule.flock) s) := by
      refine h.hears ?_ hs
      rintro _ ⟨⟩
      exact ⟨schedule.sinceFrame, rfl⟩
    exact (leaves_attempt htold _).bind fun _ hs => hs
  · exact hs

theorem tickAt (h : Keeps clock observer P) (hs : P s) (now : Duration) :
    Leaves P (·.2.2) (schedule.tickAt observer now s) := by
  refine (leaves_advance hs _).bind fun advanced hs => ?_
  refine (h.handOver hs now).bind fun ⟨_, shown, s⟩ hs => ?_
  exact (leaves_attempt hs _).bind fun _ hs => h.hears (Event.timed_of_eq_none rfl) hs

/-- **A tick keeps what its events keep.** -/
theorem tick (h : Keeps clock observer P) (hs : P s) :
    Leaves P (·.2.2) (schedule.tick clock observer s) :=
  h.tickAt (h.reads (h.hears (Event.timed_of_eq_none rfl) hs)) _

/-- **So does any number of ticks.** -/
theorem ticks (h : Keeps clock observer P) (hs : P s) (n : ℕ) :
    Leaves P (·.2.2) (schedule.ticks clock observer n s) := by
  induction n generalizing schedule s with
  | zero => exact hs
  | succ n ih =>
    refine (h.tick hs).bind fun ⟨_, next, s⟩ hs => ?_
    exact (ih hs).bind fun _ hs => hs

/-- **So does a run**, whenever it is stopped. -/
theorem run (h : Keeps clock observer P) (hs : P s) (stopped : σ → Bool) :
    Leaves P (·.2) (schedule.run clock observer stopped s) := by
  unfold Schedule.run
  induction UInt64.size - schedule.time.tick.count.toNat generalizing schedule s with
  | zero => exact hs
  | succ room ih =>
    unfold Schedule.runWithin
    split
    · exact h.hears (Event.timed_of_eq_none rfl) hs
    · exact (h.tick hs).bind fun ⟨_, next, s⟩ hs => ih hs

end Keeps

end Phototaxis
