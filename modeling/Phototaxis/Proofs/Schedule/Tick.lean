import Mathlib.Tactic.Common
import Phototaxis.Proofs.Fault
import Phototaxis.Schedule.Basic

/-!
# What one tick does

A tick is a row of operations, each of which may interrupt it. `Ticked` says what comes
of a tick that nothing interrupts: its report, the schedule that it leaves, and the
events that it tells after the clock has been read. There are two kinds of ticks. One
lets a frame pass by and keeps the simulated time for the next one; the other hands it
over and starts again at zero.

All that is proved of runs rests on `tickAt_eq_ok_iff`: a tick succeeds exactly as
`Ticked` says.
-/

namespace Phototaxis

/-- A clock that shows some readings, one after the other. -/
def Clock.ofReadings : Clock (List Duration)
  | [] => (.zero, [])
  | now :: readings => (now, readings)

namespace Schedule

variable {σ : Type} {clock : Clock σ} {observer : Observer σ} {s s' : σ}
variable {schedule after : Schedule} {now step : Duration} {report : TickReport}

theorem attempt_eq_ok_iff {α : Type} {result : Except Fault α} {a : α} :
    schedule.attempt s result = .ok a ↔ result = .ok a := by
  cases result with
  | error fault =>
    constructor <;> exact nofun
  | ok b =>
    show Except.ok b = Except.ok a ↔ _
    simp only [Except.ok.injEq]

/-! ## The parts of a tick -/

/-- **Advancing adds the step and steps the flock.** -/
theorem advance_eq_ok_iff : schedule.advance step s = .ok after ↔
    ∃ sinceFrame flock, schedule.sinceFrame.add step = .ok sinceFrame ∧
      schedule.flock.step step.seconds = .ok flock ∧
      after = { schedule with sinceFrame := sinceFrame, flock := flock } := by
  unfold advance
  simp only [bind_eq_ok_iff, attempt_eq_ok_iff]
  constructor
  · rintro ⟨sinceFrame, hadd, flock, hflock, h⟩
    exact ⟨sinceFrame, flock, hadd, hflock, (Except.ok.inj h).symm⟩
  · rintro ⟨sinceFrame, flock, hadd, hflock, rfl⟩
    exact ⟨sinceFrame, hadd, flock, hflock, rfl⟩

/-- **Handing over does nothing unless a frame is due**, and else tells the frame and counts it. -/
theorem handOver_eq_ok_iff {handed : Bool} :
    schedule.handOver observer now s = .ok (handed, after, s') ↔
      (schedule.timing.frameDue (now - schedule.lastFrame) = false ∧
        handed = false ∧ after = schedule ∧ s' = s) ∨
      (schedule.timing.frameDue (now - schedule.lastFrame) = true ∧
        ∃ frames, countFrame schedule.frames = .ok frames ∧ handed = true ∧
          after = { schedule with sinceFrame := .zero, lastFrame := now, frames := frames } ∧
          s' = observer
            (.frame schedule.time.tick schedule.sinceFrame.seconds schedule.flock) s) := by
  unfold handOver
  cases schedule.timing.frameDue (now - schedule.lastFrame) with
  | false =>
    constructor
    · intro h
      cases h
      exact .inl ⟨rfl, rfl, rfl, rfl⟩
    · rintro (⟨-, rfl, rfl, rfl⟩ | ⟨h, -⟩)
      · rfl
      · cases h
  | true =>
    rw [if_pos rfl]
    simp only [bind_eq_ok_iff, attempt_eq_ok_iff]
    constructor
    · rintro ⟨frames, hcount, heq⟩
      cases heq
      exact .inr ⟨trivial, frames, hcount, rfl, rfl, rfl⟩
    · rintro (⟨h, -⟩ | ⟨-, frames, hcount, rfl, rfl, rfl⟩)
      · cases h
      · exact ⟨frames, hcount, rfl⟩

/-! ## The whole tick -/

/-- The step of a tick at a reading. -/
def stepAt (schedule : Schedule) (now : Duration) : Duration :=
  schedule.timing.step (now - schedule.lastTick)

/-- The report, the schedule and the events of a tick that is not interrupted. -/
inductive Ticked (schedule : Schedule) (now : Duration) :
    TickReport → Schedule → List Event → Prop
  /-- No frame is due. -/
  | withoutFrame {sinceFrame : Duration} {flock : Flock} {time : SimulatedTime}
      (due : schedule.timing.frameDue (now - schedule.lastFrame) = false)
      (added : schedule.sinceFrame.add (schedule.stepAt now) = .ok sinceFrame)
      (moved : schedule.flock.step (schedule.stepAt now).seconds = .ok flock)
      (advanced : schedule.time.advance (schedule.stepAt now) = .ok time) :
      Ticked schedule now
        ⟨schedule.time.tick, schedule.stepAt now, now - schedule.lastTick, false⟩
        { schedule with flock := flock, time := time, lastTick := now, sinceFrame := sinceFrame }
        [.tickEnds schedule.time.tick (schedule.stepAt now)]
  /-- A frame is handed over. -/
  | withFrame {sinceFrame : Duration} {flock : Flock} {time : SimulatedTime} {frames : UInt64}
      (due : schedule.timing.frameDue (now - schedule.lastFrame) = true)
      (added : schedule.sinceFrame.add (schedule.stepAt now) = .ok sinceFrame)
      (moved : schedule.flock.step (schedule.stepAt now).seconds = .ok flock)
      (counted : countFrame schedule.frames = .ok frames)
      (advanced : schedule.time.advance (schedule.stepAt now) = .ok time) :
      Ticked schedule now
        ⟨schedule.time.tick, schedule.stepAt now, now - schedule.lastTick, true⟩
        { schedule with
          flock := flock, time := time, lastTick := now, lastFrame := now,
          sinceFrame := .zero, frames := frames }
        [.frame schedule.time.tick sinceFrame.seconds flock,
          .tickEnds schedule.time.tick (schedule.stepAt now)]

/-- The state of an observer after some events. -/
def watch (observer : Observer σ) (events : List Event) (s : σ) : σ :=
  events.foldl (fun s event => observer event s) s

/-- **A tick succeeds exactly as `Ticked` says.** -/
theorem tickAt_eq_ok_iff : schedule.tickAt observer now s = .ok (report, after, s') ↔
    ∃ events, Ticked schedule now report after events ∧ s' = watch observer events s := by
  unfold tickAt
  simp only [bind_eq_ok_iff, attempt_eq_ok_iff, advance_eq_ok_iff]
  constructor
  · rintro ⟨_, ⟨sinceFrame, flock, hadd, hflock, rfl⟩, ⟨handed, shown, s₁⟩, hshown, time, htime, h⟩
    rcases handOver_eq_ok_iff.mp hshown with
      ⟨hdue, rfl, rfl, rfl⟩ | ⟨hdue, frames, hcount, rfl, rfl, rfl⟩
    · cases h
      exact ⟨_, .withoutFrame hdue hadd hflock htime, rfl⟩
    · cases h
      exact ⟨_, .withFrame hdue hadd hflock hcount htime, rfl⟩
  · rintro ⟨events, hticked, rfl⟩
    cases hticked with
    | withoutFrame hdue hadd hflock htime =>
      exact ⟨_, ⟨_, _, hadd, hflock, rfl⟩, _,
        handOver_eq_ok_iff.mpr (.inl ⟨hdue, rfl, rfl, rfl⟩), _, htime, rfl⟩
    | withFrame hdue hadd hflock hcount htime =>
      exact ⟨_, ⟨_, _, hadd, hflock, rfl⟩, _,
        handOver_eq_ok_iff.mpr (.inr ⟨hdue, _, hcount, rfl, rfl, rfl⟩), _, htime, rfl⟩

/-- A flock that cannot be stepped interrupts the tick, when the step has been added already. -/
theorem tickAt_eq_error {sinceFrame : Duration} {fault : Fault}
    (hadd : schedule.sinceFrame.add (schedule.stepAt now) = .ok sinceFrame)
    (hflock : schedule.flock.step (schedule.stepAt now).seconds = .error fault) :
    schedule.tickAt observer now s =
      .error ⟨fault, { schedule with sinceFrame := sinceFrame }, s⟩ := by
  have hadvance : schedule.advance (schedule.stepAt now) s =
      .error ⟨fault, { schedule with sinceFrame := sinceFrame }, s⟩ := by
    unfold advance
    rw [hadd]
    show (attempt _ _ (schedule.flock.step _) >>= _) = _
    rw [hflock]
    rfl
  show (schedule.advance (schedule.stepAt now) s >>= _) = _
  rw [hadvance]
  rfl

/-! ## Several ticks -/

theorem eq_of_start {flock : Flock} {timing : Timing} {reading : Duration}
    (h : start flock timing reading = .ok schedule) :
    schedule = ⟨flock, timing, .start, reading, reading, .zero, 0⟩ := by
  unfold start at h
  cases hvalid : timing.validate <;> rw [hvalid] at h <;> cases h
  rfl

variable {final : Schedule} {reports : List TickReport} {n : Nat}

/-- The schedule of a lone follower without lights, as it is started. -/
def lone (reading : Duration) : Schedule :=
  ⟨(Flock.ofArray .empty #[.followerAt .zero]).withSearch .linear, .standard, .start, reading,
    reading, .zero, 0⟩

theorem start_lone (reading : Duration) :
    start (lone reading).flock .standard reading = .ok (lone reading) := rfl

/-- The first of several ticks, and the others. -/
theorem ticks_succ_eq_ok_iff :
    schedule.ticks clock observer (n + 1) s = .ok (reports, final, s') ↔
      ∃ report next s₁ rest, schedule.tick clock observer s = .ok (report, next, s₁) ∧
        next.ticks clock observer n s₁ = .ok (rest, final, s') ∧ reports = report :: rest := by
  conv_lhs => unfold ticks
  simp only [bind_eq_ok_iff]
  constructor
  · rintro ⟨⟨report, next, s₁⟩, htick, ⟨rest, final, s'⟩, hrest, h⟩
    cases h
    exact ⟨report, next, s₁, rest, htick, hrest, rfl⟩
  · rintro ⟨report, next, s₁, rest, htick, hrest, rfl⟩
    exact ⟨_, htick, _, hrest, rfl⟩

/-- Several ticks are interrupted in the first of them or in the others. -/
theorem ticks_succ_eq_error_iff {i : Interruption σ} :
    schedule.ticks clock observer (n + 1) s = .error i ↔
      schedule.tick clock observer s = .error i ∨
        ∃ report next s₁, schedule.tick clock observer s = .ok (report, next, s₁) ∧
          next.ticks clock observer n s₁ = .error i := by
  conv_lhs => unfold ticks
  simp only [bind_eq_error_iff]
  constructor
  · rintro (h | ⟨⟨report, next, s₁⟩, htick, h | ⟨_, _, h⟩⟩)
    · exact .inl h
    · exact .inr ⟨report, next, s₁, htick, h⟩
    · cases h
  · rintro (h | ⟨report, next, s₁, htick, h⟩)
    · exact .inl h
    · exact .inr ⟨_, htick, .inl h⟩

end Schedule

end Phototaxis
