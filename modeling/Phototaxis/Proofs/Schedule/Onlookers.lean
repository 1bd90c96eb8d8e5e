import Mathlib
import Phototaxis.Proofs.Schedule.Ledger

/-!
# Onlookers change nothing

A schedule tells its observers what it does and hears nothing from them, so an observer that
leaves the clock alone should make no difference to what happens. Two things could let it.

One is the frames. Whether a frame is handed over depends on an interval that has nothing to
do with the simulation, but the tick writes its accounts of frames in the middle of its
work, and an account that overflows interrupts it. It never does so before the accounts of
the ticks do: what waits for a frame is part of the simulated time, and there are no more
frames than ticks (`Schedule.Covered`). So two schedules that differ in their frames only go
through the same ticks, whoever watches them (`Schedule.Alike.ticks`).

The other is the company. Observers that watch together form an `Audience`, nested as one
likes, and share one state. A part of an audience sees of this state its own share, and on
its share clock and observer act as they would for the part by itself. Such a view of the
state passes through ticks, runs and interruptions (`View.ticks`, `View.run`), so every part
comes out as if it had been alone.
-/

namespace Phototaxis

/-! ## Views of the state -/

/-- The interruption with what is seen of its state. -/
def Interruption.seen {σ τ : Type} (view : σ → τ) (i : Interruption σ) : Interruption τ :=
  ⟨i.fault, i.schedule, view i.state⟩

/-- What is seen of a result or of an interruption. -/
def seenAs {σ τ α β : Type} (view : σ → τ) (f : α → β) (result : Except (Interruption σ) α) :
    Except (Interruption τ) β :=
  (result.map f).mapError (.seen view)

/-- **A row is seen part by part.** -/
theorem bind_seenAs {σ τ α β α' β' : Type} {view : σ → τ} {f : α → α'} {g : β → β'}
    {result : Except (Interruption σ) α} {result' : Except (Interruption τ) α'}
    {next : α → Except (Interruption σ) β} {next' : α' → Except (Interruption τ) β'}
    (hresult : result' = seenAs view f result)
    (hnext : ∀ a, next' (f a) = seenAs view g (next a)) :
    result' >>= next' = seenAs view g (result >>= next) := by
  subst hresult
  cases result with
  | error i => rfl
  | ok a => exact hnext a

/-- A view of the state on which clock and observer act by themselves. -/
structure View {σ τ : Type} (clock : Clock σ) (observer : Observer σ) (clock' : Clock τ)
    (observer' : Observer τ) (view : σ → τ) : Prop where
  reads : ∀ s, clock' (view s) = ((clock s).1, view (clock s).2)
  hears : ∀ event s, observer' event (view s) = view (observer event s)

namespace View

open Schedule

variable {σ τ : Type} {clock : Clock σ} {observer : Observer σ} {clock' : Clock τ}
variable {observer' : Observer τ} {view : σ → τ}

theorem attempt {α : Type} (view : σ → τ) (schedule : Schedule) (s : σ)
    (result : Except Fault α) :
    schedule.attempt (view s) result = seenAs view id (schedule.attempt s result) := by
  cases result <;> rfl

theorem advance (schedule : Schedule) (step : Duration) (s : σ) :
    schedule.advance step (view s) = seenAs view id (schedule.advance step s) := by
  unfold Schedule.advance
  simp only [attempt view]
  cases schedule.sinceFrame.add step with
  | error fault => rfl
  | ok sinceFrame => cases schedule.flock.step step.seconds <;> rfl

theorem handOver (h : View clock observer clock' observer' view) (now : Duration)
    (schedule : Schedule) (s : σ) : schedule.handOver observer' now (view s)
      = seenAs view (Prod.map id (Prod.map id view)) (schedule.handOver observer now s) := by
  unfold Schedule.handOver
  cases schedule.timing.frameDue (now - schedule.lastFrame) with
  | false => rfl
  | true =>
    rw [if_pos rfl, if_pos rfl]
    dsimp only
    rw [h.hears]
    cases countFrame schedule.frames <;> rfl

theorem tickAt (h : View clock observer clock' observer' view) (now : Duration)
    (schedule : Schedule) (s : σ) : schedule.tickAt observer' now (view s)
      = seenAs view (Prod.map id (Prod.map id view)) (schedule.tickAt observer now s) := by
  unfold Schedule.tickAt
  refine bind_seenAs (advance schedule _ s) fun advanced => ?_
  refine bind_seenAs (h.handOver now advanced s) ?_
  rintro ⟨handedOver, shown, s⟩
  refine bind_seenAs (attempt view _ s _) fun time => ?_
  dsimp only [Prod.map]
  rw [h.hears]
  rfl

/-- **A tick is seen as a tick.** -/
theorem tick (h : View clock observer clock' observer' view) (schedule : Schedule) (s : σ) :
    schedule.tick clock' observer' (view s)
      = seenAs view (Prod.map id (Prod.map id view)) (schedule.tick clock observer s) := by
  unfold Schedule.tick
  rw [h.hears, h.reads]
  exact h.tickAt _ schedule _

/-- **Ticks are seen as ticks.** -/
theorem ticks (h : View clock observer clock' observer' view) (n : ℕ) (schedule : Schedule)
    (s : σ) : schedule.ticks clock' observer' n (view s)
      = seenAs view (Prod.map id (Prod.map id view)) (schedule.ticks clock observer n s) := by
  induction n generalizing schedule s with
  | zero => rfl
  | succ n ih =>
    unfold Schedule.ticks
    refine bind_seenAs (h.tick schedule s) ?_
    rintro ⟨report, next, s⟩
    exact bind_seenAs (ih next s) fun _ => rfl

/-- **A run is seen as a run.** -/
theorem run (h : View clock observer clock' observer' view) (stopped : τ → Bool)
    (schedule : Schedule) (s : σ) : schedule.run clock' observer' stopped (view s)
      = seenAs view (Prod.map id view)
        (schedule.run clock observer (fun s => stopped (view s)) s) := by
  unfold Schedule.run
  induction UInt64.size - schedule.time.tick.count.toNat generalizing schedule s with
  | zero => rfl
  | succ room ih =>
    unfold runWithin
    cases stopped (view s) with
    | true =>
      rw [if_pos rfl, if_pos rfl, h.hears]
      rfl
    | false =>
      rw [if_neg Bool.false_ne_true, if_neg Bool.false_ne_true]
      refine bind_seenAs (h.tick schedule s) ?_
      rintro ⟨report, next, s⟩
      exact ih next s

end View

/-! ## Audiences -/

/-- Observers that watch together, nested as one likes. -/
inductive Audience : Type 1
  /-- One observer by itself. -/
  | one {σ : Type} (observer : Observer σ)
  /-- Two audiences, the left one first. -/
  | both (left right : Audience)

namespace Audience

/-- What the observers of an audience keep. -/
def State : Audience → Type
  | @one σ _ => σ
  | both left right => left.State × right.State

/-- The audience as one observer. -/
def observer : (audience : Audience) → Observer audience.State
  | one observer => observer
  | both left right => left.observer.both right.observer

/-- A part of an audience, with its share of the state. -/
inductive Part (part : Audience) : (whole : Audience) → (whole.State → part.State) → Prop
  | whole : Part part part id
  | left {left right : Audience} {share : left.State → part.State} (h : Part part left share) :
      Part part (both left right) fun s => share s.1
  | right {left right : Audience} {share : right.State → part.State} (h : Part part right share) :
      Part part (both left right) fun s => share s.2

variable {part whole : Audience} {share : whole.State → part.State}

/-- **Every part hears every event by itself.** -/
theorem Part.hears (h : Part part whole share) (event : Event) (s : whole.State) :
    part.observer event (share s) = share (whole.observer event s) := by
  induction h with
  | whole => rfl
  | left h ih => exact ih s.1
  | right h ih => exact ih s.2

/-- Beside a host that has the clock, a part has a view of its own share. -/
theorem Part.view {τ : Type} (h : Part part whole share) (clock : Clock τ) (host : Observer τ) :
    View (clock.beside whole.State) (host.both whole.observer) (clock.beside part.State)
      (host.both part.observer) (Prod.map id share) :=
  ⟨fun _ => rfl, fun event s => congrArg (Prod.mk (host event s.1)) (h.hears event s.2)⟩

end Audience

namespace Schedule

variable {σ τ : Type} {clock : Clock τ} {observer : Observer σ}
variable {schedule after final twin : Schedule} {now : Duration} {report : TickReport}
variable {reports : List TickReport} {events : List Event} {n : ℕ} {c c' : τ} {s s' : σ}

/-! ## What an onlooker is told -/

theorem watch_both {left : Observer σ} {right : Observer τ} (events : List Event) (s : σ) (t : τ) :
    watch (left.both right) events (s, t) = (watch left events s, watch right events t) := by
  induction events generalizing s t with
  | nil => rfl
  | cons event events ih => exact ih _ _

theorem watch_idle (events : List Event) (s : σ) : watch .idle events s = s := by
  induction events with
  | nil => rfl
  | cons event events ih => exact ih

/-! ## Ticks apart from their frames -/

/-- What a tick does, apart from its frame. -/
structure Moved (schedule : Schedule) (now : Duration) (report : TickReport) (after : Schedule) :
    Prop where
  tick_eq : report.tick = schedule.time.tick
  step_eq : report.step = schedule.stepAt now
  realElapsed_eq : report.realElapsed = now - schedule.lastTick
  flock_eq : schedule.flock.step (schedule.stepAt now).seconds = .ok after.flock
  time_eq : schedule.time.advance (schedule.stepAt now) = .ok after.time
  lastTick_eq : after.lastTick = now
  timing_eq : after.timing = schedule.timing

theorem Ticked.moved (h : Ticked schedule now report after events) :
    Moved schedule now report after := by
  cases h with
  | withoutFrame hdue hadd hflock htime => exact ⟨rfl, rfl, rfl, hflock, htime, rfl, rfl⟩
  | withFrame hdue hadd hflock hcount htime => exact ⟨rfl, rfl, rfl, hflock, htime, rfl, rfl⟩

/-- Whether the accounts of the frames are covered by those of the ticks. -/
structure Covered (schedule : Schedule) : Prop where
  sinceFrame_le : schedule.sinceFrame.nanos ≤ schedule.time.simulated.nanos
  frames_le : schedule.frames.toNat ≤ schedule.time.tick.count.toNat

/-- **A tick keeps its frames covered.** -/
theorem Ticked.covered (h : Ticked schedule now report after events) (hcovered : Covered schedule) :
    Covered after := by
  obtain ⟨hsince, hframes⟩ := hcovered
  cases h with
  | @withoutFrame sinceFrame flock time hdue hadd hflock htime =>
    rw [Duration.add_eq_ok_iff] at hadd
    obtain ⟨htick, hsimulated⟩ := SimulatedTime.advance_eq_ok_iff.mp htime
    constructor
    · show sinceFrame.nanos ≤ time.simulated.nanos
      omega
    · show schedule.frames.toNat ≤ time.tick.count.toNat
      omega
  | @withFrame _ flock time frames hdue hadd hflock hcount htime =>
    rw [countFrame_eq_ok_iff] at hcount
    obtain ⟨htick, -⟩ := SimulatedTime.advance_eq_ok_iff.mp htime
    constructor
    · exact Nat.zero_le _
    · show frames.toNat ≤ time.tick.count.toNat
      omega

/-- **Nothing else interrupts a tick**: where the flock is stepped and the time has room for the
step, so have the accounts of the frames. -/
theorem Covered.exists_ticked (hcovered : Covered schedule) {flock : Flock} {time : SimulatedTime}
    (hflock : schedule.flock.step (schedule.stepAt now).seconds = .ok flock)
    (htime : schedule.time.advance (schedule.stepAt now) = .ok time) :
    ∃ report after events, Ticked schedule now report after events := by
  obtain ⟨hsince, hframes⟩ := hcovered
  obtain ⟨htick, hsimulated⟩ := SimulatedTime.advance_eq_ok_iff.mp htime
  have hsum := time.simulated.nanos_lt
  have hcount : time.tick.count.toNat < UInt64.size := time.tick.count.toNat_lt
  obtain ⟨sinceFrame, hadd⟩ : ∃ sinceFrame,
      schedule.sinceFrame.add (schedule.stepAt now) = .ok sinceFrame :=
    ⟨⟨schedule.sinceFrame.nanos + (schedule.stepAt now).nanos, by omega⟩,
      Duration.add_eq_ok_iff.mpr rfl⟩
  obtain ⟨frames, hframe⟩ : ∃ frames, countFrame schedule.frames = .ok frames :=
    ⟨schedule.frames + 1, countFrame_eq_ok_iff.mpr (toNat_succ (by omega))⟩
  cases hdue : schedule.timing.frameDue (now - schedule.lastFrame) with
  | false => exact ⟨_, _, _, .withoutFrame hdue hadd hflock htime⟩
  | true => exact ⟨_, _, _, .withFrame hdue hadd hflock hframe htime⟩

/-- Whether two schedules differ in their frames at most. -/
structure Alike (schedule twin : Schedule) : Prop where
  flock_eq : schedule.flock = twin.flock
  time_eq : schedule.time = twin.time
  lastTick_eq : schedule.lastTick = twin.lastTick
  maxStep_eq : schedule.timing.maxStep = twin.timing.maxStep

end Schedule

/-- Whether two reports differ in their frames at most. -/
structure TickReport.Alike (report twin : TickReport) : Prop where
  tick_eq : report.tick = twin.tick
  step_eq : report.step = twin.step
  realElapsed_eq : report.realElapsed = twin.realElapsed

namespace Schedule

variable {σ σ' τ : Type} {clock : Clock τ} {observer : Observer σ} {observer' : Observer σ'}
variable {schedule after final twin : Schedule} {now : Duration} {report : TickReport}
variable {reports : List TickReport} {events : List Event} {n : ℕ} {c c' : τ} {s s' : σ} {t : σ'}

theorem Alike.stepAt_eq (h : Alike schedule twin) : schedule.stepAt now = twin.stepAt now := by
  unfold stepAt Timing.step
  rw [h.maxStep_eq, h.lastTick_eq]

/-- **Schedules that differ in their frames only tick alike.** -/
theorem Alike.ticked (h : Alike schedule twin) (hcovered : Covered twin)
    (hticked : Ticked schedule now report after events) : ∃ report' after' events',
      Ticked twin now report' after' events' ∧ Alike after after' ∧ report.Alike report' := by
  have hmoved := hticked.moved
  have hflock := hmoved.flock_eq
  have htime := hmoved.time_eq
  rw [h.stepAt_eq, h.flock_eq] at hflock
  rw [h.stepAt_eq, h.time_eq] at htime
  obtain ⟨report', after', events', hticked'⟩ := hcovered.exists_ticked hflock htime
  have hmoved' := hticked'.moved
  refine ⟨report', after', events', hticked', ⟨?_, ?_, ?_, ?_⟩, ⟨?_, ?_, ?_⟩⟩
  · exact Except.ok.inj (hflock.symm.trans hmoved'.flock_eq)
  · exact Except.ok.inj (htime.symm.trans hmoved'.time_eq)
  · rw [hmoved.lastTick_eq, hmoved'.lastTick_eq]
  · rw [hmoved.timing_eq, hmoved'.timing_eq, h.maxStep_eq]
  · rw [hmoved.tick_eq, hmoved'.tick_eq, h.time_eq]
  · rw [hmoved.step_eq, hmoved'.step_eq, h.stepAt_eq]
  · rw [hmoved.realElapsed_eq, hmoved'.realElapsed_eq, h.lastTick_eq]

/-- A tick that nobody can move the clock of: the reading, and what becomes of the state. -/
theorem tick_beside_eq_ok_iff : schedule.tick (clock.beside σ) (Observer.idle.both observer) (c, s)
      = .ok (report, after, c', s') ↔
    ∃ events, Ticked schedule (clock c).1 report after events ∧ c' = (clock c).2 ∧
      s' = watch observer (.tickStarts schedule.time.tick :: events) s := by
  unfold tick
  refine tickAt_eq_ok_iff.trans (exists_congr fun events => and_congr_right' ?_)
  show _ = watch _ events ((clock c).2, observer (.tickStarts schedule.time.tick) s) ↔ _
  rw [watch_both, watch_idle, Prod.mk.injEq]
  rfl

/-- **Runs of such schedules are alike**, under the same readings, whoever watches them. -/
theorem Alike.ticks (h : Alike schedule twin) (hcovered : Covered twin)
    (hrun : schedule.ticks (clock.beside σ) (Observer.idle.both observer) n (c, s)
      = .ok (reports, final, c', s')) : ∃ reports' final' t',
      twin.ticks (clock.beside σ') (Observer.idle.both observer') n (c, t)
        = .ok (reports', final', c', t') ∧
      Alike final final' ∧ List.Forall₂ TickReport.Alike reports reports' := by
  -- on the number of ticks: the first one leaves schedules that are alike again
  induction n generalizing schedule twin c s t reports with
  | zero =>
    cases hrun
    exact ⟨[], twin, t, rfl, h, .nil⟩
  | succ n ih =>
    obtain ⟨report, next, ⟨c₁, s₁⟩, rest, htick, hrest, rfl⟩ := ticks_succ_eq_ok_iff.mp hrun
    obtain ⟨events, hticked, rfl, rfl⟩ := tick_beside_eq_ok_iff.mp htick
    obtain ⟨report', next', events', hticked', hnext, hreport⟩ := h.ticked hcovered hticked
    obtain ⟨rest', final', t', hrest', hfinal, hreports⟩ :=
      ih hnext (hticked'.covered hcovered) hrest
    exact ⟨report' :: rest', final', t', ticks_succ_eq_ok_iff.mpr ⟨_, _, _, _,
      tick_beside_eq_ok_iff.mpr ⟨events', hticked', rfl, rfl⟩, hrest', rfl⟩, hfinal,
      .cons hreport hreports⟩

theorem covered_of_start {flock : Flock} {timing : Timing} {reading : Duration}
    (h : start flock timing reading = .ok schedule) : Covered schedule := by
  rw [eq_of_start h]
  exact ⟨Nat.le_refl _, Nat.le_refl _⟩

theorem alike_of_start {flock : Flock} {maxStep interval interval' reading : Duration}
    (h : start flock ⟨maxStep, interval⟩ reading = .ok schedule)
    (h' : start flock ⟨maxStep, interval'⟩ reading = .ok twin) : Alike schedule twin := by
  rw [eq_of_start h, eq_of_start h']
  exact ⟨rfl, rfl, rfl, rfl⟩

/-- **Onlookers change nothing.** Two schedules that are started with the same flock, the same
longest step and at the same reading, and may differ in their frame intervals, go through the same
ticks under a clock that their observers leave alone: if the one completes so many ticks, so does
the other, with the same flock, the same simulated time and the same reports, but for the frames.

Observers that watch together, beside any host of the clock and from any schedule on, do not notice
each other: every part of the audience comes out of ticks, runs and interruptions as it does by
itself, and so does the schedule. -/
theorem onlookers_change_nothing :
    (∀ {σ σ' τ : Type} (clock : Clock τ) (observer : Observer σ) (observer' : Observer σ')
      (flock : Flock) (maxStep interval interval' reading : Duration) (schedule twin : Schedule),
      start flock ⟨maxStep, interval⟩ reading = .ok schedule →
      start flock ⟨maxStep, interval'⟩ reading = .ok twin →
      ∀ n c s t reports final c' s',
        schedule.ticks (clock.beside σ) (Observer.idle.both observer) n (c, s)
          = .ok (reports, final, c', s') →
        ∃ reports' final' t',
          twin.ticks (clock.beside σ') (Observer.idle.both observer') n (c, t)
            = .ok (reports', final', c', t') ∧
          final.flock = final'.flock ∧ final.time = final'.time ∧
          List.Forall₂ TickReport.Alike reports reports') ∧
    ∀ {τ : Type} (clock : Clock τ) (host : Observer τ) (stopped : τ → Bool)
      {part whole : Audience} {share : whole.State → part.State}, Audience.Part part whole share →
      ∀ (schedule : Schedule) (c : τ) (s : whole.State),
        (∀ n reports final c' s',
          schedule.ticks (clock.beside _) (host.both whole.observer) n (c, s)
            = .ok (reports, final, c', s') →
          schedule.ticks (clock.beside _) (host.both part.observer) n (c, share s)
            = .ok (reports, final, c', share s')) ∧
        (∀ n i, schedule.ticks (clock.beside _) (host.both whole.observer) n (c, s) = .error i →
          schedule.ticks (clock.beside _) (host.both part.observer) n (c, share s)
            = .error (i.seen (Prod.map id share))) ∧
        (∀ final c' s',
          schedule.run (clock.beside _) (host.both whole.observer) (fun s => stopped s.1) (c, s)
            = .ok (final, c', s') →
          schedule.run (clock.beside _) (host.both part.observer) (fun s => stopped s.1)
            (c, share s) = .ok (final, c', share s')) ∧
        ∀ i, schedule.run (clock.beside _) (host.both whole.observer) (fun s => stopped s.1) (c, s)
            = .error i →
          schedule.run (clock.beside _) (host.both part.observer) (fun s => stopped s.1)
            (c, share s) = .error (i.seen (Prod.map id share)) := by
  constructor
  · intro σ σ' τ clock observer observer' flock maxStep interval interval' reading schedule twin
      hstart hstart' n c s t reports final c' s' hrun
    obtain ⟨reports', final', t', hrun', hfinal, hreports⟩ :=
      (alike_of_start hstart hstart').ticks (covered_of_start hstart') hrun
    exact ⟨reports', final', t', hrun', hfinal.flock_eq, hfinal.time_eq, hreports⟩
  · intro τ clock host stopped part whole share hpart schedule c s
    have hview := hpart.view clock host
    have hticks := fun n => hview.ticks n schedule (c, s)
    have hrun := hview.run (fun s => stopped s.1) schedule (c, s)
    exact ⟨fun n _ _ _ _ h => (hticks n).trans (congrArg (seenAs _ _) h),
      fun n _ h => (hticks n).trans (congrArg (seenAs _ _) h),
      fun _ _ _ h => hrun.trans (congrArg (seenAs _ _) h),
      fun _ h => hrun.trans (congrArg (seenAs _ _) h)⟩

/-- The schedule of a lone follower that hands a frame over whenever the clock has moved. -/
def eager : Schedule :=
  { lone .zero with timing := ⟨Timing.standard.maxStep, .zero⟩ }

/-- Nobody, beside somebody who writes everything down twice. -/
def clerks : Audience :=
  .both (.one (Observer.idle : Observer Unit))
    (.both (.one Observer.recorder) (.one Observer.recorder))

/-- Under readings that once fall back, the eager schedule hands over more frames, all of which are
written down, and moves the same flock by the same steps. The one clerk writes down what it would
write down by itself. -/
theorem onlookers_change_nothing_eager : ∃ reports final reports' final' log log',
    start (lone .zero).flock .standard .zero = .ok (lone .zero) ∧
    start (lone .zero).flock ⟨Timing.standard.maxStep, .zero⟩ .zero = .ok eager ∧
    (lone .zero).ticks (Clock.ofReadings.beside Unit) (Observer.idle.both .idle) 5
      (fallingBack, ()) = .ok (reports, final, [], ()) ∧
    eager.ticks (Clock.ofReadings.beside _) (Observer.idle.both Observer.recorder) 5
      (fallingBack, []) = .ok (reports', final', [], log) ∧
    final.frames.toNat = 2 ∧ final'.frames.toNat = 4 ∧ final.flock = final'.flock ∧
    final.time = final'.time ∧
    List.Forall₂ TickReport.Alike reports reports' ∧
    eager.ticks (Clock.ofReadings.beside _) (Observer.idle.both clerks.observer) 5
      (fallingBack, (), [], []) = .ok (reports', final', [], (), log', log) := by
  obtain ⟨halike, hparts⟩ := onlookers_change_nothing
  obtain ⟨reports', final', log', log, hclerks, hframes'⟩ : ∃ reports' final' log' log,
      eager.ticks (Clock.ofReadings.beside (Unit × List Event × List Event))
        (Observer.idle.both (Observer.idle.both (Observer.recorder.both Observer.recorder))) 5
        (fallingBack, (), [], []) = .ok (reports', final', [], (), log', log) ∧
      final'.frames.toNat = 4 := ⟨_, _, _, _, rfl, rfl⟩
  obtain ⟨reports, final, hlone, hframes⟩ : ∃ reports final,
      (lone .zero).ticks (Clock.ofReadings.beside Unit) (Observer.idle.both .idle) 5
        (fallingBack, ()) = .ok (reports, final, [], ()) ∧ final.frames.toNat = 2 :=
    ⟨_, _, rfl, rfl⟩
  have hlast : Audience.Part (.one Observer.recorder) clerks fun s => s.2.2 :=
    .right (.right .whole)
  have hclerk : eager.ticks (Clock.ofReadings.beside (List Event))
      (Observer.idle.both Observer.recorder) 5 (fallingBack, [])
        = .ok (reports', final', [], log) :=
    (hparts Clock.ofReadings .idle (fun _ => false) hlast eager fallingBack ((), [], [])).1 5
      reports' final' [] ((), log', log) hclerks
  obtain ⟨_, _, _, heager, hflock, htime, hreports⟩ :=
    halike Clock.ofReadings .idle Observer.recorder _ _ _ .zero _ _ _ (start_lone .zero)
      (rfl : start _ _ _ = .ok eager) 5 fallingBack () [] _ _ _ _ hlone
  cases hclerk.symm.trans heager
  exact ⟨reports, final, reports', final', log, log', start_lone .zero, rfl, hlone, heager,
    hframes, hframes', hflock, htime, hreports, hclerks⟩

end Schedule

end Phototaxis
