import Mathlib
import Phototaxis.Proofs.Flock.SearchAgreement
import Phototaxis.Proofs.Schedule.Ledger
import Phototaxis.Time.HandClock

/-!
# What a schedule tells, and when

An observer may act while it is told something: it can move the clock, or ask for a stop.
So it matters in which order a schedule tells its events, and where in between it reads
the clock and looks whether to stop.

Whatever a schedule has to do with the outside is a `Contact`: it reads the clock or it
tells an event. Clock and observer can be made to note their contacts in one common log,
which changes nothing else (`Clock.noted`, `Observer.noted`). The log of a run is that of
its ticks, one after the other; and the contacts of a tick are those of a `TickRecord`: the
start, the reading, the frame if one is handed over, and the end. The flock that comes with
a frame has made all steps so far, that of the frame's own tick included
(`noted_of_ticks`).

A run that is to be stopped asks the state before each tick, and so goes through the very
ticks before which the state did not say stop (`run_eq_ok_iff`). Whoever asks for a stop
while a tick is going on lets that tick end, and is told of no other one.
-/

namespace Phototaxis

/-- What a schedule has to do with the outside. -/
inductive Contact where
  /-- The clock is read. -/
  | reads (reading : Duration)
  /-- The observer is told an event. -/
  | tells (event : Event)

/-- The clock that notes when it is read. -/
def Clock.noted {σ : Type} (clock : Clock σ) : Clock (σ × List Contact) := fun s =>
  ((clock s.1).1, (clock s.1).2, s.2 ++ [.reads (clock s.1).1])

/-- The observer that notes what it is told. -/
def Observer.noted {σ : Type} (observer : Observer σ) : Observer (σ × List Contact) :=
  fun event s => (observer event s.1, s.2 ++ [.tells event])

/-- The interruption with a log beside the state. -/
def Interruption.beside {σ τ : Type} (log : τ) (i : Interruption σ) : Interruption (σ × τ) :=
  ⟨i.fault, i.schedule, i.state, log⟩

/-- What can be said of a tick that is over. -/
structure TickRecord where
  /-- What the clock showed. -/
  reading : Duration
  report : TickReport
  /-- The simulated seconds since the last frame, with the step of this tick. -/
  elapsed : Float
  /-- The flock after the step. -/
  flock : Flock

/-- The contacts of a tick, in their order. -/
def TickRecord.contacts (record : TickRecord) : List Contact :=
  .tells (.tickStarts record.report.tick) :: .reads record.reading ::
    ((if record.report.handedOver then
        [.tells (.frame record.report.tick record.elapsed record.flock)] else []) ++
      [.tells (.tickEnds record.report.tick record.report.step)])

namespace Schedule

variable {σ : Type} {clock : Clock σ} {observer : Observer σ} {stopped : σ → Bool} {s s' s₁ : σ}
variable {schedule after final : Schedule} {now : Duration} {report : TickReport}
variable {reports : List TickReport} {events : List Event} {log : List Contact} {n room : Nat}
variable {record : TickRecord} {records : List TickRecord}

/-- The records of successive ticks: the ticks are numbered one by one, each flock has made all
steps so far, and the seconds of a frame are those of the time that waited for it. -/
def Recorded (schedule : Schedule) (records : List TickRecord) : Prop :=
  ∀ i record, records[i]? = some record →
    record.report.tick.count.toNat = schedule.time.tick.count.toNat + i ∧
    schedule.flock.steps ((records.take (i + 1)).map (·.report.step.seconds))
      = .ok record.flock ∧
    ∃ waited : Duration, record.elapsed = waited.seconds ∧
      waited.nanos = pendingFrom schedule.sinceFrame.nanos ((records.take i).map (·.report))
        + record.report.step.nanos

/-! ## One tick -/

theorem watch_noted : watch observer.noted events (s, log)
    = (watch observer events s, log ++ events.map .tells) := by
  induction events generalizing s log with
  | nil => exact congrArg (Prod.mk s) (List.append_nil log).symm
  | cons event events ih =>
    show watch observer.noted events (observer event s, log ++ [.tells event]) = _
    rw [ih, List.append_assoc]
    rfl

/-- What a record says of the schedules before and after its tick. -/
structure Leads (schedule : Schedule) (record : TickRecord) (after : Schedule) : Prop where
  tick_eq : record.report.tick = schedule.time.tick
  flock_eq : record.flock = after.flock
  step_eq : schedule.flock.step record.report.step.seconds = .ok after.flock
  waited : ∃ waited : Duration, record.elapsed = waited.seconds ∧
    waited.nanos = schedule.sinceFrame.nanos + record.report.step.nanos

/-- **A tick that is over has a record**, and has told what the record says. -/
theorem Ticked.exists_record (h : Ticked schedule now report after events) :
    ∃ record : TickRecord, record.report = report ∧ Leads schedule record after ∧
      record.contacts
        = .tells (.tickStarts schedule.time.tick) :: .reads now :: events.map .tells := by
  cases h with
  | @withoutFrame sinceFrame flock time hdue hadd hflock htime =>
    have hwaited := Duration.add_eq_ok_iff.mp hadd
    exact ⟨⟨now, _, sinceFrame.seconds, flock⟩, rfl, ⟨rfl, rfl, hflock, sinceFrame, rfl, hwaited⟩,
      rfl⟩
  | @withFrame sinceFrame flock time frames hdue hadd hflock hcount htime =>
    have hwaited := Duration.add_eq_ok_iff.mp hadd
    exact ⟨⟨now, _, sinceFrame.seconds, flock⟩, rfl, ⟨rfl, rfl, hflock, sinceFrame, rfl, hwaited⟩,
      rfl⟩

/-- A tick is the same when its contacts are noted. -/
theorem noted_of_tick (h : schedule.tick clock observer s = .ok (report, after, s'))
    (log : List Contact) : ∃ now events record, Ticked schedule now report after events ∧
      record.report = report ∧ Leads schedule record after ∧
      schedule.tick clock.noted observer.noted (s, log)
        = .ok (report, after, s', log ++ record.contacts) := by
  unfold tick at h
  obtain ⟨events, hticked, rfl⟩ := tickAt_eq_ok_iff.mp h
  obtain ⟨record, hreport, hleads, hcontacts⟩ := hticked.exists_record
  refine ⟨_, events, record, hticked, hreport, hleads,
    tickAt_eq_ok_iff.mpr ⟨events, hticked, ?_⟩⟩
  -- the start is noted before the clock is read, and the reading after it
  show _ = watch observer.noted events (_, log ++ [.tells (.tickStarts schedule.time.tick)] ++ _)
  rw [watch_noted, hcontacts, List.append_assoc, List.append_assoc]
  rfl

/-! ## Several ticks -/

theorem recorded_nil : Recorded schedule [] := fun _ _ h => nomatch h

/-- Records of a tick and of those after it. -/
theorem Recorded.cons {next : Schedule} (hticked : Ticked schedule now record.report next events)
    (hleads : Leads schedule record next) (h : Recorded next records) :
    Recorded schedule (record :: records) := by
  have hbalanced := hticked.balanced
  intro i record' hget
  cases i with
  | zero =>
    cases hget
    refine ⟨congrArg (fun tick => tick.count.toNat) hleads.tick_eq, ?_, hleads.waited⟩
    rw [hleads.flock_eq, ← hleads.step_eq]
    exact bind_pure _
  | succ i =>
    obtain ⟨htick, hsteps, waited, helapsed, hwaited⟩ := h i record' hget
    refine ⟨?_, ?_, waited, helapsed, ?_⟩
    · rw [htick, hbalanced.tick]
      exact Nat.succ_add_eq_add_succ _ i
    · show (schedule.flock.step record.report.step.seconds >>= (·.steps _)) = _
      rw [hleads.step_eq]
      exact hsteps
    · rw [hwaited, hbalanced.sinceFrame]
      rfl

/-- **The log of a run is that of its records**, tick by tick. -/
theorem noted_of_ticks (h : schedule.ticks clock observer n s = .ok (reports, final, s'))
    (log : List Contact) : ∃ records : List TickRecord,
      schedule.ticks clock.noted observer.noted n (s, log)
        = .ok (reports, final, s', log ++ records.flatMap TickRecord.contacts) ∧
      records.map (·.report) = reports ∧ records.length = n ∧ Recorded schedule records := by
  -- on the number of ticks, for a log that the ticks before have begun
  induction n generalizing schedule s log reports with
  | zero =>
    cases h
    refine ⟨[], ?_, rfl, rfl, recorded_nil⟩
    rw [List.flatMap_nil, List.append_nil]
    rfl
  | succ n ih =>
    obtain ⟨report, next, s₁, rest, htick, hrest, rfl⟩ := ticks_succ_eq_ok_iff.mp h
    obtain ⟨now, events, record, hticked, rfl, hleads, hnoted⟩ := noted_of_tick htick log
    obtain ⟨records, hnoted', hreports, hlength, hrecorded⟩ := ih hrest (log ++ record.contacts)
    rw [List.append_assoc] at hnoted'
    exact ⟨record :: records, ticks_succ_eq_ok_iff.mpr ⟨_, _, _, _, hnoted, hnoted', rfl⟩,
      congrArg _ hreports, congrArg Nat.succ hlength, hrecorded.cons hticked hleads⟩

/-! ## Interrupted ticks -/

theorem attempt_beside {α : Type} (result : Except Fault α) : schedule.attempt (s, log) result
    = (schedule.attempt s result).mapError (Interruption.beside log) := by
  cases result <;> rfl

theorem advance_beside (step : Duration) : schedule.advance step (s, log)
    = (schedule.advance step s).mapError (Interruption.beside log) := by
  unfold advance
  simp only [attempt_beside]
  cases schedule.sinceFrame.add step with
  | error fault => rfl
  | ok sinceFrame => cases schedule.flock.step step.seconds <;> rfl

/-- The frame that a schedule tells at a reading, if one is due. -/
def frameTold (schedule : Schedule) (now : Duration) : List Contact :=
  if schedule.timing.frameDue (now - schedule.lastFrame) then
    [.tells (.frame schedule.time.tick schedule.sinceFrame.seconds schedule.flock)]
  else []

theorem handOver_noted : schedule.handOver observer.noted now (s, log)
    = ((schedule.handOver observer now s).map fun (handed, shown, s) =>
        (handed, shown, s, log ++ schedule.frameTold now)).mapError
      (Interruption.beside (log ++ schedule.frameTold now)) := by
  unfold handOver frameTold
  cases schedule.timing.frameDue (now - schedule.lastFrame) with
  | false =>
    rw [if_neg Bool.false_ne_true, if_neg Bool.false_ne_true, if_neg Bool.false_ne_true,
      List.append_nil]
    rfl
  | true =>
    rw [if_pos rfl, if_pos rfl, if_pos rfl]
    dsimp only
    cases countFrame schedule.frames <;> rfl

/-- The contacts of a tick that is broken off. -/
inductive BrokenOff (tick : Tick) : List Contact → Prop
  /-- Before a frame, or without one. -/
  | early (now : Duration) : BrokenOff tick [.tells (.tickStarts tick), .reads now]
  /-- With a frame, whose number was one too many for the counter. -/
  | late (now : Duration) (elapsed : Float) (flock : Flock) :
      BrokenOff tick [.tells (.tickStarts tick), .reads now, .tells (.frame tick elapsed flock)]

theorem noted_of_tickAt_error {i : Interruption σ} (h : schedule.tickAt observer now s = .error i)
    (log : List Contact) : ∃ told,
      BrokenOff schedule.time.tick (.tells (.tickStarts schedule.time.tick) :: .reads now :: told) ∧
      schedule.tickAt observer.noted now (s, log) = .error (i.beside (log ++ told)) := by
  unfold tickAt at h
  rcases bind_eq_error_iff.mp h with hadvance | ⟨advanced, hadvance, hrest⟩
  · refine ⟨[], .early now, ?_⟩
    show (schedule.advance (schedule.stepAt now) (s, log) >>= _) = _
    rw [advance_beside, stepAt, hadvance, List.append_nil]
    rfl
  · obtain ⟨sinceFrame, flock, -, -, rfl⟩ := advance_eq_ok_iff.mp hadvance
    refine ⟨frameTold { schedule with sinceFrame := sinceFrame, flock := flock } now, ?_, ?_⟩
    · unfold frameTold
      split
      · exact .late now _ _
      · exact .early now
    · show (schedule.advance (schedule.stepAt now) (s, log) >>= _) = _
      rw [advance_beside, stepAt, hadvance]
      show (handOver observer.noted now _ (s, log) >>= _) = _
      rw [handOver_noted]
      rcases bind_eq_error_iff.mp hrest with hover | ⟨⟨handed, shown, s₁⟩, hover, hlast⟩
      · rw [hover]
        rfl
      · rw [hover]
        rcases bind_eq_error_iff.mp hlast with htime | ⟨_, -, hnone⟩
        · show (attempt _ (s₁, _) _ >>= _) = _
          rw [attempt_beside, htime]
          rfl
        · cases hnone

/-- **An interrupted tick has told its start**, and at most a frame. -/
theorem noted_of_tick_error {i : Interruption σ} (h : schedule.tick clock observer s = .error i)
    (log : List Contact) : ∃ told, BrokenOff schedule.time.tick told ∧
      schedule.tick clock.noted observer.noted (s, log) = .error (i.beside (log ++ told)) := by
  obtain ⟨told, hbroken, hnoted⟩ := noted_of_tickAt_error h
    (log ++ [.tells (.tickStarts schedule.time.tick)] ++ [.reads _])
  refine ⟨_, hbroken, hnoted.trans ?_⟩
  rw [List.append_assoc, List.append_assoc]
  rfl

/-- **An interrupted run has told of the ticks before**, and of no end of the interrupted one. -/
theorem noted_of_ticks_error {i : Interruption σ}
    (h : schedule.ticks clock observer n s = .error i) (log : List Contact) :
    ∃ records tick told, records.length < n ∧ Recorded schedule records ∧
      tick.count.toNat = schedule.time.tick.count.toNat + records.length ∧ BrokenOff tick told ∧
      schedule.ticks clock.noted observer.noted n (s, log)
        = .error (i.beside (log ++ (records.flatMap TickRecord.contacts ++ told))) := by
  induction n generalizing schedule s log with
  | zero => cases h
  | succ n ih =>
    rcases ticks_succ_eq_error_iff.mp h with htick | ⟨report, next, s₁, htick, hrest⟩
    · obtain ⟨told, hbroken, hnoted⟩ := noted_of_tick_error htick log
      exact ⟨[], _, told, Nat.succ_pos n, recorded_nil, rfl, hbroken,
        ticks_succ_eq_error_iff.mpr (.inl hnoted)⟩
    · obtain ⟨now, events, record, hticked, rfl, hleads, hnoted⟩ := noted_of_tick htick log
      obtain ⟨records, tick, told, hlength, hrecorded, hcount, hbroken, hnoted'⟩ :=
        ih hrest (log ++ record.contacts)
      rw [List.append_assoc, ← List.append_assoc record.contacts] at hnoted'
      refine ⟨record :: records, tick, told, Nat.succ_lt_succ hlength,
        hrecorded.cons hticked hleads, ?_, hbroken,
        ticks_succ_eq_error_iff.mpr (.inr ⟨_, _, _, hnoted, hnoted'⟩)⟩
      rw [hcount, hticked.balanced.tick]
      exact Nat.succ_add_eq_add_succ _ _

/-! ## Stopping -/

/-- The state says stop behind so many ticks, and not before any of them. -/
structure StopsBehind (clock : Clock σ) (observer : Observer σ) (stopped : σ → Bool) (n : Nat)
    (schedule : Schedule) (s : σ) (final : Schedule) (s₁ : σ) : Prop where
  ticks_eq : ∃ reports, schedule.ticks clock observer n s = .ok (reports, final, s₁)
  stopped_eq : stopped s₁ = true
  unstopped : ∀ m < n, ∀ reports between s₂,
    schedule.ticks clock observer m s = .ok (reports, between, s₂) → stopped s₂ = false

theorem stopsBehind_zero_iff : StopsBehind clock observer stopped 0 schedule s final s₁ ↔
    stopped s = true ∧ final = schedule ∧ s₁ = s := by
  constructor
  · rintro ⟨⟨reports, h⟩, hstopped, -⟩
    cases h
    exact ⟨hstopped, rfl, rfl⟩
  · rintro ⟨hstopped, rfl, rfl⟩
    exact ⟨⟨[], rfl⟩, hstopped, nofun⟩

theorem stopsBehind_succ_iff : StopsBehind clock observer stopped (n + 1) schedule s final s₁ ↔
    stopped s = false ∧ ∃ report next s₂, schedule.tick clock observer s = .ok (report, next, s₂) ∧
      StopsBehind clock observer stopped n next s₂ final s₁ := by
  constructor
  · rintro ⟨⟨reports, h⟩, hstopped, hun⟩
    obtain ⟨report, next, s₂, rest, htick, hrest, -⟩ := ticks_succ_eq_ok_iff.mp h
    refine ⟨hun 0 (Nat.succ_pos n) _ _ _ rfl, report, next, s₂, htick, ⟨rest, hrest⟩, hstopped,
      fun m hm _ _ _ hticks => ?_⟩
    exact hun (m + 1) (Nat.succ_lt_succ hm) _ _ _
      (ticks_succ_eq_ok_iff.mpr ⟨_, _, _, _, htick, hticks, rfl⟩)
  · rintro ⟨hs, report, next, s₂, htick, ⟨rest, hrest⟩, hstopped, hun⟩
    refine ⟨⟨_, ticks_succ_eq_ok_iff.mpr ⟨_, _, _, _, htick, hrest, rfl⟩⟩, hstopped,
      fun m hm _ _ _ hticks => ?_⟩
    cases m with
    | zero =>
      cases hticks
      exact hs
    | succ m =>
      obtain ⟨_, _, _, _, htick', hrest', -⟩ := ticks_succ_eq_ok_iff.mp hticks
      rw [htick] at htick'
      cases htick'
      exact hun m (Nat.lt_of_succ_lt_succ hm) _ _ _ hrest'

/-- A run with room for so many ticks stops behind fewer of them. -/
theorem runWithin_eq_ok_iff :
    schedule.runWithin clock observer stopped room s = .ok (final, s') ↔
      ∃ n < room, ∃ s₁, StopsBehind clock observer stopped n schedule s final s₁ ∧
        s' = observer (.stops final.time) s₁ := by
  induction room generalizing schedule s with
  | zero =>
    constructor
    · exact nofun
    · rintro ⟨n, hn, -⟩
      exact absurd hn (Nat.not_lt_zero n)
  | succ room ih =>
    unfold runWithin
    cases hs : stopped s with
    | true =>
      rw [if_pos rfl]
      constructor
      · intro h
        cases h
        exact ⟨0, Nat.succ_pos room, s, stopsBehind_zero_iff.mpr ⟨hs, rfl, rfl⟩, rfl⟩
      · rintro ⟨n, -, s₁, hstops, rfl⟩
        cases n with
        | zero =>
          obtain ⟨-, rfl, rfl⟩ := stopsBehind_zero_iff.mp hstops
          rfl
        | succ n =>
          obtain ⟨hun, -⟩ := stopsBehind_succ_iff.mp hstops
          rw [hs] at hun
          cases hun
    | false =>
      rw [if_neg Bool.false_ne_true]
      simp only [bind_eq_ok_iff]
      constructor
      · rintro ⟨⟨report, next, s₂⟩, htick, h⟩
        obtain ⟨n, hn, s₁, hstops, rfl⟩ := ih.mp h
        exact ⟨n + 1, Nat.succ_lt_succ hn, s₁,
          stopsBehind_succ_iff.mpr ⟨hs, report, next, s₂, htick, hstops⟩, rfl⟩
      · rintro ⟨n, hn, s₁, hstops, rfl⟩
        cases n with
        | zero =>
          obtain ⟨hstopped, -, -⟩ := stopsBehind_zero_iff.mp hstops
          rw [hs] at hstopped
          cases hstopped
        | succ n =>
          obtain ⟨-, report, next, s₂, htick, hstops⟩ := stopsBehind_succ_iff.mp hstops
          exact ⟨_, htick, ih.mpr ⟨n, Nat.lt_of_succ_lt_succ hn, s₁, hstops, rfl⟩⟩

/-- **A run stops behind the first tick after which the state says so**, or before the first one. -/
theorem run_eq_ok_iff : schedule.run clock observer stopped s = .ok (final, s') ↔
    ∃ n s₁, StopsBehind clock observer stopped n schedule s final s₁ ∧
      s' = observer (.stops final.time) s₁ := by
  unfold run
  rw [runWithin_eq_ok_iff]
  constructor
  · rintro ⟨n, -, h⟩
    exact ⟨n, h⟩
  · rintro ⟨n, s₁, hstops, rfl⟩
    obtain ⟨reports, hticks⟩ := hstops.ticks_eq
    -- the counter has had room for the ticks that there were
    have hcount := count_of_ticks hticks
    have hlt : final.time.tick.count.toNat < UInt64.size := final.time.tick.count.toNat_lt
    exact ⟨n, by omega, s₁, hstops, rfl⟩

/-- It stops behind the same tick when its contacts are noted: the state is the same with the log as
without it. -/
theorem StopsBehind.noted (h : StopsBehind clock observer stopped n schedule s final s₁)
    (log : List Contact) : ∃ records : List TickRecord, records.length = n ∧
      Recorded schedule records ∧
      StopsBehind clock.noted observer.noted (fun noted => stopped noted.1) n schedule (s, log)
        final (s₁, log ++ records.flatMap TickRecord.contacts) := by
  obtain ⟨reports, hticks⟩ := h.ticks_eq
  obtain ⟨records, hnoted, -, hlength, hrecorded⟩ := noted_of_ticks hticks log
  refine ⟨records, hlength, hrecorded, ⟨⟨reports, hnoted⟩, h.stopped_eq,
    fun m hm reports' between s₂ hticks' => ?_⟩⟩
  cases hplain : schedule.ticks clock observer m s with
  | error i =>
    obtain ⟨_, _, _, -, -, -, -, hnoted'⟩ := noted_of_ticks_error hplain log
    rw [hnoted'] at hticks'
    cases hticks'
  | ok result =>
    obtain ⟨_, hnoted', -⟩ := noted_of_ticks hplain log
    rw [hnoted'] at hticks'
    cases hticks'
    exact h.unstopped m hm _ _ _ hplain

/-- **What a schedule tells, and when.** So many ticks make the contacts of their records, one after
the other, and no other ones; each record says what the report of its tick says. If they are
interrupted, they have made the contacts of the ticks before, and of the interrupted tick its start,
the reading and at most its frame. A run that is to be stopped makes just the ticks before which the
state did not say stop, and then, once, tells the time that it returns. -/
theorem contacts_in_order (clock : Clock σ) (observer : Observer σ) (stopped : σ → Bool)
    (schedule : Schedule) (s : σ) :
    (∀ n reports final s', schedule.ticks clock observer n s = .ok (reports, final, s') →
      schedule.runTicks clock observer n s = .ok (final, s') ∧
      ∃ records : List TickRecord, records.map (·.report) = reports ∧ records.length = n ∧
        Recorded schedule records ∧
        schedule.ticks clock.noted observer.noted n (s, [])
          = .ok (reports, final, s', records.flatMap TickRecord.contacts)) ∧
    (∀ n i, schedule.ticks clock observer n s = .error i →
      ∃ records tick told, records.length < n ∧ Recorded schedule records ∧
        tick.count.toNat = schedule.time.tick.count.toNat + records.length ∧ BrokenOff tick told ∧
        schedule.ticks clock.noted observer.noted n (s, [])
          = .error (i.beside (records.flatMap TickRecord.contacts ++ told))) ∧
    (∀ final s', schedule.run clock observer stopped s = .ok (final, s') ↔
      ∃ n s₁, StopsBehind clock observer stopped n schedule s final s₁ ∧
        s' = observer (.stops final.time) s₁) ∧
    ∀ n final s₁, StopsBehind clock observer stopped n schedule s final s₁ →
      ∃ records : List TickRecord, records.length = n ∧ Recorded schedule records ∧
        schedule.run clock.noted observer.noted (fun noted => stopped noted.1) (s, [])
          = .ok (final, observer (.stops final.time) s₁,
            records.flatMap TickRecord.contacts ++ [.tells (.stops final.time)]) := by
  refine ⟨fun n reports final s' h => ⟨?_, ?_⟩, fun n i h => ?_, fun final s' => run_eq_ok_iff,
    fun n final s₁ h => ?_⟩
  · unfold runTicks
    rw [h]
    rfl
  · obtain ⟨records, hnoted, hreports, hlength, hrecorded⟩ := noted_of_ticks h []
    exact ⟨records, hreports, hlength, hrecorded, hnoted⟩
  · exact noted_of_ticks_error h []
  · obtain ⟨records, hlength, hrecorded, hstops⟩ := h.noted []
    exact ⟨records, hlength, hrecorded, run_eq_ok_iff.mpr ⟨n, _, hstops, rfl⟩⟩

/-- Who drives a schedule: a clock moved by hand, and whether a stop is asked for. -/
structure Driver where
  hand : HandClock
  stopping : Bool

/-- The driver's own clock. -/
def Driver.reads : Clock Driver := fun driver => (driver.hand.reading, driver)

/-- Moves the clock by six milliseconds at the start of each tick, and asks for a stop when it is
handed a frame. -/
def Driver.hears : Observer Driver
  | .tickStarts _, driver => { driver with hand := driver.hand.advance (.ofWord 6000000) }
  | .frame .., driver => { driver with stopping := true }
  | _, driver => driver

/-- The driver is handed a frame in the third tick, which still ends, and there is no fourth one. -/
theorem contacts_in_order_driven : ∃ final,
    StopsBehind Driver.reads Driver.hears Driver.stopping 3 (lone .zero) ⟨{}, false⟩ final
      ⟨⟨18000000⟩, true⟩ ∧
    (lone .zero).run Driver.reads Driver.hears Driver.stopping ⟨{}, false⟩
      = .ok (final, ⟨⟨18000000⟩, true⟩) ∧
    ∃ records : List TickRecord, records.length = 3 ∧ Recorded (lone .zero) records ∧
      (lone .zero).run Driver.reads.noted Driver.hears.noted (fun noted => Driver.stopping noted.1)
        (⟨{}, false⟩, []) = .ok (final, ⟨⟨18000000⟩, true⟩,
          records.flatMap TickRecord.contacts ++ [.tells (.stops final.time)]) := by
  obtain ⟨final, hstops⟩ : ∃ final, StopsBehind Driver.reads Driver.hears Driver.stopping 3
      (lone .zero) ⟨{}, false⟩ final ⟨⟨18000000⟩, true⟩ :=
    ⟨_, stopsBehind_succ_iff.mpr ⟨rfl, _, _, _, rfl, stopsBehind_succ_iff.mpr ⟨rfl, _, _, _, rfl,
      stopsBehind_succ_iff.mpr ⟨rfl, _, _, _, rfl, stopsBehind_zero_iff.mpr ⟨rfl, rfl, rfl⟩⟩⟩⟩⟩
  obtain ⟨-, -, hrun, hlog⟩ :=
    contacts_in_order Driver.reads Driver.hears Driver.stopping (lone .zero) ⟨{}, false⟩
  exact ⟨final, hstops, (hrun final _).mpr ⟨3, _, hstops, rfl⟩, hlog 3 final _ hstops⟩

end Schedule

end Phototaxis
