import Mathlib
import Phototaxis.Proofs.Schedule.Tick
import Phototaxis.Proofs.Time.Sums

/-!
# The ledger of simulated time

A schedule keeps several accounts of what it did: the number of steps, the sum of their
lengths, the simulated time since the last frame, and the number of frames. The steps
also leave as the elapsed time of a frame. Every step should be told with exactly one
frame, or still wait for one.

The accounts are changed at different points of a tick, and in the middle of it one of
them may start again at zero. What balances is a whole tick (`Ticked.balanced`): the
step that it reports is added to the simulated time and to what waits for a frame, and a
frame takes out all that waits, the step of its own tick included. Runs balance because
ticks do (`recorded_of_ticks`), whatever the clock reads, back in time as well.

To speak of what an observer is told, a recorder watches beside it. It writes down every
event and changes nothing for the observer or the clock: every run is also a run with a
recorder.
-/

namespace Phototaxis

/-! ## Recording events -/

namespace Observer

/-- The observer that writes down every event. -/
def recorder : Observer (List Event) := fun event log => log ++ [event]

end Observer

/-- A clock beside a state that it does not read. -/
def Clock.beside {σ : Type} (τ : Type) (clock : Clock σ) : Clock (σ × τ) := fun s =>
  ((clock s.1).1, (clock s.1).2, s.2)

/-- The simulated seconds that come with a frame. -/
def Event.elapsed? : Event → Option Float
  | .frame _ elapsed _ => some elapsed
  | _ => none

/-- The simulated seconds of all frames among some events. -/
def elapsedOf (events : List Event) : List Float := events.filterMap Event.elapsed?

namespace Schedule

variable {σ : Type} {clock : Clock σ} {observer : Observer σ} {s s' : σ}
variable {schedule after final : Schedule} {now : Duration} {report : TickReport}
variable {reports : List TickReport} {events log : List Event} {n : Nat}

theorem watch_recorder : watch (observer.both Observer.recorder) events (s, log)
    = (watch observer events s, log ++ events) := by
  induction events generalizing s log with
  | nil => exact congrArg (Prod.mk s) (List.append_nil log).symm
  | cons event events ih =>
    show watch (observer.both Observer.recorder) events (observer event s, log ++ [event]) = _
    rw [ih, List.append_assoc]
    rfl

/-! ## The accounts -/

/-- What waits for a frame after a tick. -/
def pendingAfter (pending : Nat) (report : TickReport) : Nat :=
  if report.handedOver then 0 else pending + report.step.nanos

/-- What waits for a frame after some ticks. -/
def pendingFrom (pending : Nat) (reports : List TickReport) : Nat :=
  reports.foldl pendingAfter pending

/-- What the frames of some ticks take out, one after the other. -/
def spansFrom (pending : Nat) : List TickReport → List Nat
  | [] => []
  | report :: reports =>
    (if report.handedOver then [pending + report.step.nanos] else []) ++
      spansFrom (pendingAfter pending report) reports

/-- The sum of the steps. -/
def total (reports : List TickReport) : Nat := (reports.map (·.step.nanos)).sum

theorem total_cons : total (report :: reports) = report.step.nanos + total reports := rfl

theorem pendingFrom_cons (pending : Nat) : pendingFrom pending (report :: reports)
    = pendingFrom (pendingAfter pending report) reports := rfl

/-- A tick passes on what waits and its own step, to a frame or to the next tick. -/
theorem sum_span (pending : Nat) (report : TickReport) :
    (if report.handedOver then [pending + report.step.nanos] else []).sum
      + pendingAfter pending report = pending + report.step.nanos := by
  unfold pendingAfter
  split
  · exact List.sum_singleton
  · exact Nat.zero_add _

/-- **Nothing is lost between steps and frames.** -/
theorem sum_spansFrom (pending : Nat) (reports : List TickReport) :
    (spansFrom pending reports).sum + pendingFrom pending reports = pending + total reports := by
  induction reports generalizing pending with
  | nil => exact Nat.zero_add pending
  | cons report reports ih =>
    have hrest := ih (pendingAfter pending report)
    have hspan := sum_span pending report
    rw [spansFrom, List.sum_append, pendingFrom_cons, total_cons]
    omega

/-- What waits for a frame are the steps behind the last one. -/
theorem pendingFrom_zero (reports : List TickReport) :
    pendingFrom 0 reports = total (reports.rtakeWhile (!·.handedOver)) := by
  induction reports using List.reverseRecOn with
  | nil => rfl
  | append_singleton reports report ih =>
    unfold pendingFrom at ih ⊢
    rw [List.foldl_append, ih, List.rtakeWhile_concat]
    show pendingAfter _ report = _
    unfold pendingAfter total
    cases report.handedOver
    · simp
    · simp

/-- The accounts before and after some ticks, with what the frames told. -/
structure Balanced (before : Schedule) (reports : List TickReport) (elapsed : List Float)
    (after : Schedule) : Prop where
  tick : after.time.tick.count.toNat = before.time.tick.count.toNat + reports.length
  simulated : after.time.simulated.nanos = before.time.simulated.nanos + total reports
  sinceFrame : after.sinceFrame.nanos = pendingFrom before.sinceFrame.nanos reports
  frames : after.frames.toNat = before.frames.toNat + elapsed.length
  spans : ∃ spans : List Duration, spans.map (·.nanos) = spansFrom before.sinceFrame.nanos reports ∧
    elapsed = spans.map Duration.seconds

theorem balanced_nil : Balanced schedule [] [] schedule :=
  ⟨rfl, rfl, rfl, rfl, [], rfl, rfl⟩

/-- **A tick balances.** -/
theorem Ticked.balanced (h : Ticked schedule now report after events) :
    Balanced schedule [report] (elapsedOf events) after := by
  cases h with
  | withoutFrame hdue hadd hflock htime =>
    rw [Duration.add_eq_ok_iff] at hadd
    rw [SimulatedTime.advance_eq_ok_iff] at htime
    exact ⟨htime.1, htime.2, hadd, rfl, [], rfl, rfl⟩
  | @withFrame sinceFrame flock time frames hdue hadd hflock hcount htime =>
    rw [Duration.add_eq_ok_iff] at hadd
    rw [SimulatedTime.advance_eq_ok_iff] at htime
    rw [countFrame_eq_ok_iff] at hcount
    exact ⟨htime.1, htime.2, rfl, hcount, [sinceFrame], congrArg (fun x => [x]) hadd, rfl⟩

/-- Balances add up. -/
theorem Balanced.cons {before between : Schedule} {elapsed elapsed' : List Float}
    (h : Balanced before [report] elapsed between) (h' : Balanced between reports elapsed' after) :
    Balanced before (report :: reports) (elapsed ++ elapsed') after := by
  obtain ⟨spans, hspans, rfl⟩ := h.spans
  obtain ⟨spans', hspans', rfl⟩ := h'.spans
  have hpending : between.sinceFrame.nanos = pendingAfter before.sinceFrame.nanos report :=
    h.sinceFrame
  have htick := h.tick
  have hsimulated := h.simulated
  have hlength : (report :: reports).length = [report].length + reports.length :=
    Nat.add_comm reports.length 1
  have htotal : total (report :: reports) = total [report] + total reports :=
    congrArg (· + total reports) (Nat.add_zero report.step.nanos).symm
  constructor
  · rw [h'.tick, htick, hlength, Nat.add_assoc]
  · rw [h'.simulated, hsimulated, htotal, Nat.add_assoc]
  · rw [h'.sinceFrame, hpending, pendingFrom_cons]
  · rw [h'.frames, h.frames, List.length_append, Nat.add_assoc]
  · refine ⟨spans ++ spans', ?_, (List.map_append ..).symm⟩
    rw [List.map_append, hspans, hspans', hpending, spansFrom, spansFrom, spansFrom,
      List.append_nil]

/-! ## Runs -/

/-- A tick is the same with the recorder beside it, which adds its events to the log. -/
theorem recorded_of_tick (h : schedule.tick clock observer s = .ok (report, after, s'))
    (log : List Event) : ∃ now events, Ticked schedule now report after events ∧
      schedule.tick (clock.beside _) (observer.both Observer.recorder) (s, log)
        = .ok (report, after, s', log ++ .tickStarts schedule.time.tick :: events) := by
  unfold tick at h
  obtain ⟨events, hticked, rfl⟩ := tickAt_eq_ok_iff.mp h
  refine ⟨_, events, hticked, tickAt_eq_ok_iff.mpr ⟨events, hticked, ?_⟩⟩
  -- the recorder was told of the start before the clock was read
  show _ = watch _ events (_, log ++ [.tickStarts schedule.time.tick])
  rw [watch_recorder, List.append_assoc]
  rfl

/-- **A run balances**, since its ticks do, with what a recorder beside it is told. -/
theorem recorded_of_ticks (h : schedule.ticks clock observer n s = .ok (reports, final, s'))
    (log : List Event) : ∃ told,
      schedule.ticks (clock.beside _) (observer.both Observer.recorder) n (s, log)
        = .ok (reports, final, s', log ++ told) ∧
      reports.length = n ∧ Balanced schedule reports (elapsedOf told) final := by
  -- on the number of ticks, for a log that the ticks before have begun
  induction n generalizing schedule s log reports with
  | zero =>
    cases h
    refine ⟨[], ?_, rfl, balanced_nil⟩
    rw [List.append_nil]
    rfl
  | succ n ih =>
    obtain ⟨report, next, s₁, rest, htick, hrest, rfl⟩ := ticks_succ_eq_ok_iff.mp h
    obtain ⟨now, events, hticked, hrecorded⟩ := recorded_of_tick htick log
    obtain ⟨told, htold, hlength, hbalanced⟩ :=
      ih hrest (log ++ .tickStarts schedule.time.tick :: events)
    rw [List.append_assoc] at htold
    refine ⟨.tickStarts schedule.time.tick :: events ++ told,
      ticks_succ_eq_ok_iff.mpr ⟨_, _, _, _, hrecorded, htold, rfl⟩, congrArg Nat.succ hlength, ?_⟩
    show Balanced _ _ ((events ++ told).filterMap Event.elapsed?) _
    rw [List.filterMap_append]
    exact hticked.balanced.cons hbalanced

/-- Every tick is counted. -/
theorem count_of_ticks (h : schedule.ticks clock observer n s = .ok (reports, final, s')) :
    final.time.tick.count.toNat = schedule.time.tick.count.toNat + n := by
  obtain ⟨_, -, hlength, hbalanced⟩ := recorded_of_ticks h []
  rw [hbalanced.tick, hlength]

/-- **The ledger of simulated time.** After any number of ticks from the start, whatever the clock
read, the tick is the number of ticks, the simulated time is the sum of the steps, the time since
the last frame is the sum of the steps behind the last tick with a frame, and as many frames are
counted as a recorder beside the observer is told. Each of these is told with the seconds of a span
of simulated time, and the spans together with the time since the last frame make up the simulated
time. -/
theorem ledger_balances (clock : Clock σ) (observer : Observer σ)
    {flock : Flock} {timing : Timing} {reading : Duration}
    (hstart : start flock timing reading = .ok schedule)
    (h : schedule.ticks clock observer n s = .ok (reports, final, s')) :
    ∃ log, schedule.ticks (clock.beside _) (observer.both Observer.recorder) n (s, [])
        = .ok (reports, final, s', log) ∧
      final.time.tick.count.toNat = n ∧
      final.time.simulated.nanos = total reports ∧
      final.sinceFrame.nanos = total (reports.rtakeWhile (!·.handedOver)) ∧
      final.frames.toNat = (elapsedOf log).length ∧
      ∃ spans : List Duration, elapsedOf log = spans.map Duration.seconds ∧
        spans.map (·.nanos) = spansFrom 0 reports ∧
        final.time.simulated.nanos = (spans.map (·.nanos)).sum + final.sinceFrame.nanos := by
  obtain ⟨log, hlog, hlength, hbalanced⟩ := recorded_of_ticks h []
  rw [List.nil_append] at hlog
  rw [eq_of_start hstart] at hbalanced
  obtain ⟨htick, hsimulated, hsince, hframes, spans, hspans, helapsed⟩ := hbalanced
  -- all accounts start at zero
  change final.time.tick.count.toNat = 0 + reports.length at htick
  change final.time.simulated.nanos = 0 + total reports at hsimulated
  change final.frames.toNat = 0 + (elapsedOf log).length at hframes
  change final.sinceFrame.nanos = pendingFrom 0 reports at hsince
  change spans.map (·.nanos) = spansFrom 0 reports at hspans
  refine ⟨log, hlog, ?_, ?_, ?_, ?_, spans, helapsed, hspans, ?_⟩
  · rw [htick, Nat.zero_add, hlength]
  · rw [hsimulated, Nat.zero_add]
  · rw [hsince, pendingFrom_zero]
  · rw [hframes, Nat.zero_add]
  · rw [hsimulated, hspans, hsince, sum_spansFrom]

/-- Readings that once fall back by fifteen milliseconds. -/
def fallingBack : List Duration :=
  [.ofWord 20000000, .ofWord 5000000, .ofWord 30000000, .ofWord 36000000, .ofWord 37000000]

/-- Under such readings the first frame takes out ten milliseconds and the second one sixteen, and
one is left. -/
theorem ledger_balances_fallingBack :
    start (lone .zero).flock .standard .zero = .ok (lone .zero) ∧ ∃ reports final log,
      (lone .zero).ticks Clock.ofReadings .idle 5 fallingBack = .ok (reports, final, []) ∧
      (lone .zero).ticks (Clock.ofReadings.beside _) (Observer.idle.both Observer.recorder) 5
        (fallingBack, []) = .ok (reports, final, [], log) ∧
      final.time.tick.count.toNat = 5 ∧
      final.time.simulated.nanos = 27000000 ∧
      final.sinceFrame.nanos = 1000000 ∧
      final.frames.toNat = (elapsedOf log).length ∧
      ∃ spans : List Duration, elapsedOf log = spans.map Duration.seconds ∧
        spans.map (·.nanos) = [10000000, 16000000] := by
  obtain ⟨reports, final, hticks, htotal, hrest, hframes⟩ : ∃ reports final,
      (lone .zero).ticks Clock.ofReadings .idle 5 fallingBack = .ok (reports, final, []) ∧
      total reports = 27000000 ∧
      total (reports.rtakeWhile (!·.handedOver)) = 1000000 ∧
      spansFrom 0 reports = [10000000, 16000000] := by
    refine ⟨_, _, rfl, ?_, ?_, ?_⟩ <;> rfl
  obtain ⟨log, hlog, htick, hsimulated, hsince, hcount, spans, helapsed, hspans, -⟩ :=
    ledger_balances Clock.ofReadings .idle (start_lone .zero) hticks
  exact ⟨start_lone .zero, reports, final, log, hticks, hlog, htick, hsimulated.trans htotal,
    hsince.trans hrest, hcount, spans, helapsed, hspans.trans hframes⟩

end Schedule

end Phototaxis
