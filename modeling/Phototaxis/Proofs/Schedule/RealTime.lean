import Mathlib
import Phototaxis.Proofs.Flock.SearchAgreement
import Phototaxis.Proofs.Schedule.Tick
import Phototaxis.Proofs.Time.Sums

/-!
# Simulated time stays behind real time

The longest step may be as long as any duration, so the bound on a single step does not
keep the sums of steps from overflowing. What does is the clock: as long as it does not
fall back, the steps fit into the real time between the readings, and readings are
durations themselves.

The invariant (`Paced`) ties every sum to a span between two readings. The simulated
time fits into the span since the start, the time since the last frame into the span
since that frame, and both spans end with the last tick. A tick moves the end of both
forward by at least its step; a frame brings the one sum and the one span back to zero
together. Frames are counted by the tick, so there are no more of them than ticks.

Therefore no sum and no counter interrupts a tick. The flock can: if its vehicles cannot
be searched, there is no step (`simulated_behind_real`).
-/

namespace Phototaxis

namespace Schedule

variable {σ : Type} {clock : Clock σ} {observer : Observer σ} {s s' : σ}
variable {schedule after final : Schedule} {origin now : Duration} {report : TickReport}
variable {reports : List TickReport} {events : List Event} {n : Nat}

/-- The readings of so many ticks, up to the one that is interrupted. -/
def readings (clock : Clock σ) (observer : Observer σ) : Nat → Schedule → σ → List Duration
  | 0, _, _ => []
  | n + 1, schedule, s =>
    (clock (observer (.tickStarts schedule.time.tick) s)).1 ::
      match schedule.tick clock observer s with
      | .ok (_, next, s') => readings clock observer n next s'
      | .error _ => []

theorem readings_succ_of_ok (h : schedule.tick clock observer s = .ok (report, after, s')) :
    readings clock observer (n + 1) schedule s =
      (clock (observer (.tickStarts schedule.time.tick) s)).1 ::
        readings clock observer n after s' := by
  conv_lhs => unfold readings
  rw [h]

theorem readings_succ_of_error {i : Interruption σ}
    (h : schedule.tick clock observer s = .error i) :
    readings clock observer (n + 1) schedule s =
      [(clock (observer (.tickStarts schedule.time.tick) s)).1] := by
  conv_lhs => unfold readings
  rw [h]

/-! ## The invariant -/

/-- A schedule that was started at a reading and kept pace with the clock. -/
structure Paced (origin : Duration) (schedule : Schedule) : Prop where
  simulated_le : schedule.time.simulated.nanos + origin.nanos ≤ schedule.lastTick.nanos
  simulated_le_mul : schedule.time.simulated.nanos ≤
    schedule.time.tick.count.toNat * schedule.timing.maxStep.nanos
  sinceFrame_le : schedule.sinceFrame.nanos + schedule.lastFrame.nanos ≤ schedule.lastTick.nanos
  frames_le : schedule.frames.toNat ≤ schedule.time.tick.count.toNat

/-- A report whose step is bounded by the real time and by the longest step. -/
structure Bounded (maxStep : Duration) (report : TickReport) : Prop where
  step_le_elapsed : report.step ≤ report.realElapsed
  step_le_maxStep : report.step ≤ maxStep

theorem stepAt_le_elapsed (schedule : Schedule) (now : Duration) :
    (schedule.stepAt now).nanos ≤ now.nanos - schedule.lastTick.nanos := by
  unfold stepAt
  rw [Timing.nanos_step]
  exact Nat.min_le_left _ _

theorem stepAt_le_maxStep (schedule : Schedule) (now : Duration) :
    (schedule.stepAt now).nanos ≤ schedule.timing.maxStep.nanos := by
  unfold stepAt
  rw [Timing.nanos_step]
  exact Nat.min_le_right _ _

/-- What a tick changes for the clock and the counters. -/
structure Follows (schedule : Schedule) (now : Duration) (after : Schedule) : Prop where
  timing_eq : after.timing = schedule.timing
  lastTick_eq : after.lastTick = now
  count_eq : after.time.tick.count.toNat = schedule.time.tick.count.toNat + 1

/-- Advancing keeps the simulated time behind the reading, and counts the longest step. -/
theorem Paced.advance (hpaced : Paced origin schedule) (hnow : schedule.lastTick ≤ now)
    {time : SimulatedTime} (htime : schedule.time.advance (schedule.stepAt now) = .ok time) :
    time.tick.count.toNat = schedule.time.tick.count.toNat + 1 ∧
      time.simulated.nanos + origin.nanos ≤ now.nanos ∧
      time.simulated.nanos ≤ time.tick.count.toNat * schedule.timing.maxStep.nanos := by
  obtain ⟨hcount, hsum⟩ := SimulatedTime.advance_eq_ok_iff.mp htime
  have hsimulated := hpaced.simulated_le
  have helapsed := stepAt_le_elapsed schedule now
  change schedule.lastTick.nanos ≤ now.nanos at hnow
  refine ⟨hcount, by omega, ?_⟩
  rw [hcount, hsum, Nat.succ_mul]
  exact Nat.add_le_add hpaced.simulated_le_mul (stepAt_le_maxStep schedule now)

/-- **A tick keeps pace.** -/
theorem Ticked.paced (h : Ticked schedule now report after events) (hpaced : Paced origin schedule)
    (hnow : schedule.lastTick ≤ now) : Paced origin after ∧ Follows schedule now after ∧
      Bounded schedule.timing.maxStep report := by
  have hsince := hpaced.sinceFrame_le
  have hframes := hpaced.frames_le
  have helapsed := stepAt_le_elapsed schedule now
  have hmax := stepAt_le_maxStep schedule now
  cases h with
  | @withoutFrame sinceFrame flock time hdue hadd hflock htime =>
    rw [Duration.add_eq_ok_iff] at hadd
    obtain ⟨hcount, hle, hlemul⟩ := hpaced.advance hnow htime
    refine ⟨⟨hle, hlemul, ?_, ?_⟩, ⟨rfl, rfl, hcount⟩, ⟨helapsed, hmax⟩⟩
    · show sinceFrame.nanos + schedule.lastFrame.nanos ≤ now.nanos
      change schedule.lastTick.nanos ≤ now.nanos at hnow
      omega
    · show schedule.frames.toNat ≤ _
      rw [hcount]
      exact Nat.le_succ_of_le hframes
  | withFrame hdue hadd hflock hframe htime =>
    rw [countFrame_eq_ok_iff] at hframe
    obtain ⟨hcount, hle, hlemul⟩ := hpaced.advance hnow htime
    refine ⟨⟨hle, hlemul, Nat.le_of_eq (Nat.zero_add _), ?_⟩, ⟨rfl, rfl, hcount⟩,
      ⟨helapsed, hmax⟩⟩
    show _ ≤ _
    rw [hcount, hframe]
    exact Nat.succ_le_succ hframes

/-- The time since the last frame has room for the next step. -/
theorem Paced.exists_sum (hpaced : Paced origin schedule) (hnow : schedule.lastTick ≤ now) :
    ∃ sinceFrame, schedule.sinceFrame.add (schedule.stepAt now) = .ok sinceFrame := by
  have hsince := hpaced.sinceFrame_le
  have helapsed := stepAt_le_elapsed schedule now
  have hlt := now.nanos_lt
  change schedule.lastTick.nanos ≤ now.nanos at hnow
  exact ⟨⟨schedule.sinceFrame.nanos + (schedule.stepAt now).nanos, by omega⟩,
    Duration.add_eq_ok_iff.mpr rfl⟩

/-- **Nothing overflows in a tick that keeps pace**: it succeeds once the flock is stepped. -/
theorem Paced.exists_ticked (hpaced : Paced origin schedule) (hnow : schedule.lastTick ≤ now)
    (hcount : schedule.time.tick.count.toNat + 1 < UInt64.size) {flock : Flock}
    (hflock : schedule.flock.step (schedule.stepAt now).seconds = .ok flock) :
    ∃ report after events, Ticked schedule now report after events := by
  obtain ⟨sinceFrame, hadd⟩ := hpaced.exists_sum hnow
  obtain ⟨hsimulated, hmul, hsince, hframes⟩ := hpaced
  have helapsed := stepAt_le_elapsed schedule now
  have hlt := now.nanos_lt
  change schedule.lastTick.nanos ≤ now.nanos at hnow
  have htime : ∃ time, schedule.time.advance (schedule.stepAt now) = .ok time :=
    ⟨⟨⟨schedule.time.tick.count + 1⟩,
      ⟨schedule.time.simulated.nanos + (schedule.stepAt now).nanos, by omega⟩⟩,
      SimulatedTime.advance_eq_ok_iff.mpr ⟨toNat_succ hcount, rfl⟩⟩
  have hframe : ∃ frames, countFrame schedule.frames = .ok frames :=
    ⟨schedule.frames + 1, countFrame_eq_ok_iff.mpr (toNat_succ (by omega))⟩
  obtain ⟨time, htime⟩ := htime
  obtain ⟨frames, hframe⟩ := hframe
  cases hdue : schedule.timing.frameDue (now - schedule.lastFrame) with
  | false => exact ⟨_, _, _, .withoutFrame hdue hadd hflock htime⟩
  | true => exact ⟨_, _, _, .withFrame hdue hadd hflock hframe htime⟩

/-- **A tick under a clock that does not fall back** succeeds and keeps pace if the vehicles can be
searched, and else is interrupted for that reason. -/
theorem Paced.tick (hpaced : Paced origin schedule)
    (hcount : schedule.time.tick.count.toNat + 1 < UInt64.size)
    (hnow : schedule.lastTick ≤ (clock (observer (.tickStarts schedule.time.tick) s)).1) :
    (schedule.flock.Searchable ∧ ∃ report next s₁,
      schedule.tick clock observer s = .ok (report, next, s₁) ∧ Paced origin next ∧
        Follows schedule (clock (observer (.tickStarts schedule.time.tick) s)).1 next ∧
        Bounded schedule.timing.maxStep report) ∨
    (¬ schedule.flock.Searchable ∧ ∃ i, schedule.tick clock observer s = .error i ∧
      i.fault = .unorderedPlaces ∧ i.schedule.flock = schedule.flock) := by
  by_cases hsearch : schedule.flock.Searchable
  · obtain ⟨flock, hflock⟩ : ∃ flock, schedule.flock.step (schedule.stepAt _).seconds = .ok flock :=
      Flock.step_of_searchable hsearch
    obtain ⟨report, next, events, hticked⟩ := hpaced.exists_ticked hnow hcount hflock
    exact .inl ⟨hsearch, report, next, _, tickAt_eq_ok_iff.mpr ⟨events, hticked, rfl⟩,
      hticked.paced hpaced hnow⟩
  · obtain ⟨sinceFrame, hadd⟩ := hpaced.exists_sum hnow
    exact .inr ⟨hsearch, _, tickAt_eq_error hadd (Flock.step_of_not_searchable hsearch), rfl, rfl⟩

/-! ## Runs -/

/-- Whether the vehicles can be searched before each of some ticks. -/
def SearchableThroughout (clock : Clock σ) (observer : Observer σ) (n : Nat) (schedule : Schedule)
    (s : σ) : Prop :=
  ∀ m < n, ∀ reports final s', schedule.ticks clock observer m s = .ok (reports, final, s') →
    final.flock.Searchable

theorem searchableThroughout_succ_iff
    (h : schedule.tick clock observer s = .ok (report, after, s')) :
    SearchableThroughout clock observer (n + 1) schedule s ↔
      schedule.flock.Searchable ∧ SearchableThroughout clock observer n after s' := by
  constructor
  · intro hall
    refine ⟨hall 0 (Nat.succ_pos n) _ _ _ rfl, fun m hm reports final s'' hticks => ?_⟩
    exact hall (m + 1) (Nat.succ_lt_succ hm) _ _ _
      (ticks_succ_eq_ok_iff.mpr ⟨_, _, _, _, h, hticks, rfl⟩)
  · rintro ⟨hfirst, hall⟩ m hm reports final s'' hticks
    cases m with
    | zero =>
      cases hticks
      exact hfirst
    | succ m =>
      obtain ⟨_, _, _, rest, htick, hrest, -⟩ := ticks_succ_eq_ok_iff.mp hticks
      rw [h] at htick
      cases htick
      exact hall m (Nat.lt_of_succ_lt_succ hm) _ _ _ hrest

/-- **A run keeps pace, or stops at a flock that cannot be searched.** -/
theorem Paced.ticks (hpaced : Paced origin schedule)
    (hcount : schedule.time.tick.count.toNat + n < UInt64.size)
    (hclock : (schedule.lastTick :: readings clock observer n schedule s).IsChain (· ≤ ·)) :
    (SearchableThroughout clock observer n schedule s ∧ ∃ reports final s',
      schedule.ticks clock observer n s = .ok (reports, final, s') ∧ Paced origin final ∧
        final.timing = schedule.timing ∧
        final.time.tick.count.toNat = schedule.time.tick.count.toNat + n ∧
        ∀ report ∈ reports, Bounded schedule.timing.maxStep report) ∨
    (¬ SearchableThroughout clock observer n schedule s ∧ ∃ i,
      schedule.ticks clock observer n s = .error i ∧ i.fault = .unorderedPlaces ∧
        ¬ i.schedule.flock.Searchable) := by
  -- on the number of ticks: the invariant holds of the schedule that the first one leaves
  induction n generalizing schedule s with
  | zero => exact .inl ⟨nofun, [], schedule, s, rfl, hpaced, rfl, rfl, nofun⟩
  | succ n ih =>
    obtain ⟨hnow, hrest⟩ := List.isChain_cons_cons.mp hclock
    rcases hpaced.tick (by omega) hnow with
      ⟨hsearch, report, next, s₁, htick, hnext, ⟨htiming, hlast, hsucc⟩, hbounded⟩ |
      ⟨hsearch, i, htick, hfault, hflock⟩
    · rw [readings_succ_of_ok htick] at hclock
      have hchain := (List.isChain_cons_cons.mp hclock).2
      rw [← hlast] at hchain
      rcases ih hnext (by omega) hchain with
        ⟨hall, reports, final, s', hticks, hfinal, htiming', hcount', hreports⟩ |
        ⟨hall, i, hi, hfault, hunsearchable⟩
      · refine .inl ⟨(searchableThroughout_succ_iff htick).mpr ⟨hsearch, hall⟩, report :: reports,
          final, s', ticks_succ_eq_ok_iff.mpr ⟨_, _, _, _, htick, hticks, rfl⟩, hfinal,
          htiming'.trans htiming, by omega, List.forall_mem_cons.mpr ⟨hbounded, ?_⟩⟩
        exact htiming ▸ hreports
      · exact .inr ⟨fun h => hall ((searchableThroughout_succ_iff htick).mp h).2, i,
          ticks_succ_eq_error_iff.mpr (.inr ⟨_, _, _, htick, hi⟩), hfault, hunsearchable⟩
    · exact .inr ⟨fun h => hsearch (h 0 (Nat.succ_pos n) _ _ _ rfl), i,
        ticks_succ_eq_error_iff.mpr (.inl htick), hfault, hflock ▸ hsearch⟩

theorem paced_of_start {flock : Flock} {timing : Timing} {reading : Duration}
    (h : start flock timing reading = .ok schedule) : Paced reading schedule := by
  rw [eq_of_start h]
  exact ⟨Nat.le_of_eq (Nat.zero_add _), Nat.zero_le _, Nat.le_of_eq (Nat.zero_add _),
    Nat.zero_le _⟩

/-- **Simulated time stays behind real time, and nothing overflows.** Let the clock never fall back
below the reading at the start, nor later. After any number of ticks that a counter can hold, the
simulated time is at most the real time since the start, and at most so many longest steps; the time
since the last frame is at most the real time since then; and no step is longer than the real time
before it or than the longest step. The only fault that can interrupt the ticks is that the vehicles
cannot be searched, and it does so exactly if they cannot before one of the ticks. -/
theorem simulated_behind_real (clock : Clock σ) (observer : Observer σ) (k : Nat)
    {flock : Flock} {timing : Timing} {reading : Duration}
    (hstart : start flock timing reading = .ok schedule) (hk : k < UInt64.size)
    (hclock : (reading :: readings clock observer k schedule s).IsChain (· ≤ ·)) :
    (∀ reports final s', schedule.ticks clock observer k s = .ok (reports, final, s') →
      final.time.simulated.nanos ≤ final.lastTick.nanos - reading.nanos ∧
      final.time.simulated.nanos ≤ k * timing.maxStep.nanos ∧
      final.sinceFrame.nanos ≤ final.lastTick.nanos - final.lastFrame.nanos ∧
      final.lastFrame ≤ final.lastTick ∧
      ∀ report ∈ reports, report.step ≤ report.realElapsed ∧ report.step ≤ timing.maxStep) ∧
    (∀ i, schedule.ticks clock observer k s = .error i →
      i.fault = .unorderedPlaces ∧ ¬ i.schedule.flock.Searchable) ∧
    ((∃ result, schedule.ticks clock observer k s = .ok result) ↔
      SearchableThroughout clock observer k schedule s) := by
  have hschedule := eq_of_start hstart
  have hlast : schedule.lastTick = reading := congrArg lastTick hschedule
  have htiming : schedule.timing = timing := congrArg Schedule.timing hschedule
  have hzero : schedule.time.tick.count.toNat = 0 :=
    congrArg (fun schedule => schedule.time.tick.count.toNat) hschedule
  rw [← hlast] at hclock
  rcases (paced_of_start hstart).ticks (by omega) hclock with
    ⟨hall, reports, final, s', hticks, hpaced, htiming', hcount, hreports⟩ |
    ⟨hall, i, hi, hfault, hunsearchable⟩
  · obtain ⟨hsimulated, hmul, hsince, -⟩ := hpaced
    rw [hcount, hzero, Nat.zero_add, htiming', htiming] at hmul
    refine ⟨fun _ _ _ h => ?_, fun i h => ?_, fun _ => hall, fun _ => ⟨_, hticks⟩⟩
    · rw [hticks] at h
      cases h
      refine ⟨by omega, hmul, by omega, ?_, fun report hr => ?_⟩
      · show _ ≤ final.lastTick.nanos
        exact Nat.le_trans (Nat.le_add_left _ _) hsince
      · obtain ⟨helapsed, hmax⟩ := hreports report hr
        exact ⟨helapsed, htiming ▸ hmax⟩
    · rw [hticks] at h
      cases h
  · refine ⟨fun _ _ _ h => ?_, fun j h => ?_, ?_, fun h => absurd h hall⟩
    · rw [hi] at h
      cases h
    · rw [hi] at h
      cases h
      exact ⟨hfault, hunsearchable⟩
    · rintro ⟨result, h⟩
      rw [hi] at h
      cases h

/-- Readings between which no time passes, little time, and much time. -/
def uneven : List Duration :=
  [.ofWord 25000000, .ofWord 25000000, .ofWord 27000000, .ofWord 60000000]

/-- A reading before all of these. -/
def early : Duration := .ofWord 5000000

/-- Under such readings the bounds hold of four ticks, the last of which hands over a frame. -/
theorem simulated_behind_real_uneven :
    start (lone early).flock .standard early = .ok (lone early) ∧ 4 < UInt64.size ∧
      (early :: readings Clock.ofReadings .idle 4 (lone early) uneven).IsChain (· ≤ ·) ∧
      ∃ reports final, (lone early).ticks Clock.ofReadings .idle 4 uneven
          = .ok (reports, final, []) ∧
        final.time.simulated.nanos ≤ 60000000 - 5000000 ∧
        final.time.simulated.nanos ≤ 4 * 10000000 ∧
        final.sinceFrame.nanos ≤ 60000000 - 60000000 ∧
        ∀ report ∈ reports, report.step ≤ report.realElapsed ∧ report.step.nanos ≤ 10000000 := by
  have hclock : (early :: readings Clock.ofReadings .idle 4 (lone early) uneven).IsChain
      (· ≤ ·) := by
    have hreadings : readings Clock.ofReadings .idle 4 (lone early) uneven = uneven := by rfl
    rw [hreadings]
    decide
  obtain ⟨reports, final, hticks, hlast, hframe⟩ : ∃ reports final,
      (lone early).ticks Clock.ofReadings .idle 4 uneven = .ok (reports, final, []) ∧
      final.lastTick.nanos = 60000000 ∧ final.lastFrame.nanos = 60000000 := by
    refine ⟨_, _, rfl, ?_, ?_⟩ <;> rfl
  obtain ⟨hok, -, -⟩ := simulated_behind_real Clock.ofReadings .idle 4 (start_lone early)
    (by decide) hclock
  obtain ⟨hreal, hmul, hsince, -, hreports⟩ := hok _ _ _ hticks
  rw [hlast] at hreal hsince
  rw [hframe] at hsince
  exact ⟨start_lone early, by decide, hclock, reports, final, hticks, hreal, hmul, hsince, hreports⟩

/-- The crowd in the glare, as it is started. -/
def crowded : Schedule := ⟨.ofArray glare crowd, .standard, .start, .zero, .zero, .zero, 0⟩

/-- **A flock of finite numbers can interrupt a tick.** Under a clock that stands still the crowd is
nowhere after the first tick, and has no order for the second. -/
theorem interrupted_in_glare : start (.ofArray glare crowd) .standard .zero = .ok crowded ∧
    (Duration.zero :: readings (fun s => (.zero, s)) Observer.idle 2 crowded ()).IsChain (· ≤ ·) ∧
    ∃ i, crowded.ticks (fun s => (.zero, s)) Observer.idle 2 () = .error i ∧
      i.fault = .unorderedPlaces := by
  have hseconds : (crowded.stepAt .zero).seconds = 0.0 := by decide +kernel
  -- before the first tick the crowd is still at the origin, and can be searched
  obtain ⟨flock, hflock⟩ : ∃ flock, crowded.flock.step (crowded.stepAt .zero).seconds = .ok flock :=
    Flock.step_of_searchable (.inr orderable_crowd)
  have hunsearchable : ¬ flock.Searchable := by
    obtain ⟨-, hsearch⟩ := Flock.lights_and_search_of_step hflock
    obtain ⟨peers, -, hvehicles⟩ := Flock.vehicles_of_step hflock
    rintro (hlinear | horderable)
    · rw [hsearch] at hlinear
      cases hlinear
    · rw [hvehicles, hseconds] at horderable
      exact not_orderable_crowd peers horderable
  let next : Schedule := { crowded with
    flock := flock, time := ⟨⟨1⟩, .zero⟩, lastTick := .zero, sinceFrame := .zero }
  have hfirst : crowded.tick (fun s => (.zero, s)) Observer.idle () = .ok (_, next, ()) :=
    tickAt_eq_ok_iff.mpr ⟨_, .withoutFrame rfl rfl hflock rfl, rfl⟩
  have hsecond : next.tick (fun s => (.zero, s)) Observer.idle () = .error _ :=
    tickAt_eq_error rfl (Flock.step_of_not_searchable hunsearchable)
  refine ⟨rfl, ?_, _, ticks_succ_eq_error_iff.mpr (.inr ⟨_, _, _, hfirst,
    ticks_succ_eq_error_iff.mpr (.inl hsecond)⟩), rfl⟩
  rw [readings_succ_of_ok hfirst, readings_succ_of_error hsecond]
  show [Duration.zero, .zero, .zero].IsChain (· ≤ ·)
  decide

end Schedule

end Phototaxis
