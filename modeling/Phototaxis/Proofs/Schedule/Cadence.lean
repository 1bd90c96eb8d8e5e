import Mathlib
import Phototaxis.Proofs.Schedule.Ledger
import Phototaxis.Proofs.Schedule.RealTime

/-!
# The cadence of frames

A frame is due once more than the frame interval has passed since the last one, and it is
handed over by the first tick that finds it due. The interval is counted from the reading
at which the last frame was handed over, and not from the moment at which that frame was
due: frames have no fixed grid to catch up with, and a late frame delays the next one.

What a single tick does is `Ticked.handedOver_iff`. Over a run it says of every tick
whether it hands a frame over (`OnTime`), by nothing but the readings before it. The rest
is a consequence: consecutive frames lie more than the interval apart (`OnTime.isChain`),
so real time has room for so many of them only (`length_mul_le`). That the last frame is
not later than the last tick is where the clock must not fall back.
-/

namespace Phototaxis

/-- A frame is due if its reading is more than the interval past the last one. -/
theorem Timing.frameDue_iff {t : Timing} {now last : Duration} :
    t.frameDue (now - last) = true ↔ last.nanos + t.frameInterval.nanos < now.nanos := by
  unfold frameDue
  rw [decide_eq_true_iff]
  exact Nat.lt_sub_iff_add_lt'

namespace Schedule

variable {σ : Type} {clock : Clock σ} {observer : Observer σ} {s s' : σ}
variable {schedule after final : Schedule} {now last : Duration} {report : TickReport}
variable {reports : List TickReport} {events : List Event} {n interval : Nat}
variable {stamped : List (Duration × TickReport)}

/-! ## Frames among ticks -/

/-- The readings of the ticks that handed a frame over. -/
def frameReadings (stamped : List (Duration × TickReport)) : List Duration :=
  (stamped.filter (·.2.handedOver)).map (·.1)

/-- The reading of the last frame after a tick, from that before it. -/
def frameAfter (last now : Duration) (report : TickReport) : Duration :=
  if report.handedOver then now else last

/-- The reading of the last frame after some ticks, from that before them. -/
def frameBehind (last : Duration) (stamped : List (Duration × TickReport)) : Duration :=
  (frameReadings stamped).getLastD last

/-- Every tick hands a frame over exactly if its reading is more than the interval past the last
frame. -/
def OnTime (interval : Nat) (last : Duration) (stamped : List (Duration × TickReport)) : Prop :=
  ∀ before now report rest, stamped = before ++ (now, report) :: rest →
    (report.handedOver = true ↔ (frameBehind last before).nanos + interval < now.nanos)

theorem frameReadings_cons : frameReadings ((now, report) :: stamped)
    = (if report.handedOver then [now] else []) ++ frameReadings stamped := by
  unfold frameReadings
  rw [List.filter_cons]
  cases report.handedOver <;> rfl

theorem frameBehind_cons : frameBehind last ((now, report) :: stamped)
    = frameBehind (frameAfter last now report) stamped := by
  unfold frameBehind frameAfter
  rw [frameReadings_cons]
  cases report.handedOver
  · rfl
  · exact List.getLastD_cons ..

/-- The first tick is on time, and the others are after it. -/
theorem onTime_cons : OnTime interval last ((now, report) :: stamped) ↔
    (report.handedOver = true ↔ last.nanos + interval < now.nanos) ∧
      OnTime interval (frameAfter last now report) stamped := by
  constructor
  · intro h
    refine ⟨h [] now report stamped rfl, fun before now' report' rest hsplit => ?_⟩
    rw [← frameBehind_cons]
    exact h ((now, report) :: before) now' report' rest (congrArg _ hsplit)
  · rintro ⟨hfirst, hrest⟩ before now' report' rest hsplit
    cases before with
    | nil =>
      cases hsplit
      exact hfirst
    | cons tick before =>
      obtain ⟨rfl, hbehind⟩ := List.cons.inj hsplit
      rw [frameBehind_cons]
      exact hrest before now' report' rest hbehind

/-- **Frames lie more than the interval apart**, the first one from where the interval starts. -/
theorem OnTime.isChain (h : OnTime interval last stamped) :
    (last :: frameReadings stamped).IsChain fun a b => a.nanos + interval < b.nanos := by
  induction stamped generalizing last with
  | nil => exact List.isChain_singleton last
  | cons tick stamped ih =>
    obtain ⟨now, report⟩ := tick
    obtain ⟨hfirst, hrest⟩ := onTime_cons.mp h
    have hchain := ih hrest
    rw [frameReadings_cons]
    unfold frameAfter at hchain
    cases hover : report.handedOver with
    | false =>
      rw [hover] at hchain
      exact hchain
    | true =>
      rw [hover] at hchain
      exact List.isChain_cons_cons.mpr ⟨hfirst.mp hover, hchain⟩

/-- Readings that lie apart have room between the first and the last. -/
theorem length_mul_le {l : List Duration}
    (h : (last :: l).IsChain fun a b => a.nanos + interval < b.nanos) :
    l.length * (interval + 1) + last.nanos ≤ (l.getLastD last).nanos := by
  induction l generalizing last with
  | nil => exact Nat.le_of_eq (Nat.zero_mul _ ▸ Nat.zero_add _)
  | cons next l ih =>
    obtain ⟨hnext, hrest⟩ := List.isChain_cons_cons.mp h
    have hle := ih hrest
    rw [List.getLastD_cons, List.length_cons, Nat.succ_mul]
    omega

/-! ## Ticks on time -/

/-- **A tick hands a frame over exactly if one is due**, and starts the interval again. -/
theorem Ticked.handedOver_iff (h : Ticked schedule now report after events) :
    (report.handedOver = true ↔
        schedule.lastFrame.nanos + schedule.timing.frameInterval.nanos < now.nanos) ∧
      after.lastFrame = frameAfter schedule.lastFrame now report ∧
      after.timing = schedule.timing := by
  cases h with
  | withoutFrame hdue =>
    rw [← Timing.frameDue_iff, hdue]
    exact ⟨Iff.rfl, rfl, rfl⟩
  | withFrame hdue =>
    rw [← Timing.frameDue_iff, hdue]
    exact ⟨Iff.rfl, rfl, rfl⟩

/-- A tick counts the frame that it hands over. -/
theorem Ticked.frames_eq (h : Ticked schedule now report after events) : after.frames.toNat
    = schedule.frames.toNat + (frameReadings [(now, report)]).length := by
  cases h with
  | withoutFrame => rfl
  | withFrame hdue hadd hflock hcount => exact countFrame_eq_ok_iff.mp hcount

/-- **The ticks of a run are on time**, whatever the clock reads. -/
theorem onTime_of_ticks (h : schedule.ticks clock observer n s = .ok (reports, final, s')) :
    ∃ stamped : List (Duration × TickReport),
      stamped.map Prod.fst = readings clock observer n schedule s ∧
      stamped.map Prod.snd = reports ∧
      OnTime schedule.timing.frameInterval.nanos schedule.lastFrame stamped ∧
      final.lastFrame = frameBehind schedule.lastFrame stamped ∧
      final.frames.toNat = schedule.frames.toNat + (frameReadings stamped).length := by
  -- on the number of ticks, from wherever the interval has started
  induction n generalizing schedule s reports with
  | zero =>
    cases h
    exact ⟨[], rfl, rfl, fun before _ _ _ hsplit => absurd hsplit (by simp), rfl, rfl⟩
  | succ n ih =>
    obtain ⟨report, next, s₁, rest, htick, hrest, rfl⟩ := ticks_succ_eq_ok_iff.mp h
    obtain ⟨stamped, hreadings, hreports, honTime, hlast, hframes⟩ := ih hrest
    obtain ⟨events, hticked, -⟩ := tickAt_eq_ok_iff.mp htick
    obtain ⟨hover, hafter, htiming⟩ := hticked.handedOver_iff
    have hcount := hticked.frames_eq
    refine ⟨(_, report) :: stamped, ?_, congrArg _ hreports,
      onTime_cons.mpr ⟨hover, ?_⟩, ?_, ?_⟩
    · rw [readings_succ_of_ok htick, ← hreadings]
      rfl
    · rwa [hafter, htiming] at honTime
    · rw [hlast, hafter, frameBehind_cons]
    · rw [hframes, hcount, frameReadings_cons, frameReadings_cons]
      simp only [List.length_append]
      exact Nat.add_assoc _ _ _

/-- **Frames keep their cadence.** Under a clock that does not fall back, every tick hands a frame
over exactly if its reading is more than the frame interval past the reading of the last frame, or
past the reading at the start if there was none. So frames lie more than the interval apart, and in
the real time between the start and the last tick there are at most as many of them as it has room
for the interval and one nanosecond. -/
theorem frames_keep_cadence (clock : Clock σ) (observer : Observer σ)
    {flock : Flock} {timing : Timing} {reading : Duration}
    (hstart : start flock timing reading = .ok schedule)
    (hclock : (reading :: readings clock observer n schedule s).IsChain (· ≤ ·))
    (h : schedule.ticks clock observer n s = .ok (reports, final, s')) :
    ∃ stamped : List (Duration × TickReport),
      stamped.map Prod.fst = readings clock observer n schedule s ∧
      stamped.map Prod.snd = reports ∧
      OnTime timing.frameInterval.nanos reading stamped ∧
      ((reading :: frameReadings stamped).IsChain fun last next =>
        last.nanos + timing.frameInterval.nanos < next.nanos) ∧
      final.frames.toNat = (frameReadings stamped).length ∧
      final.frames.toNat * (timing.frameInterval.nanos + 1)
        ≤ final.lastTick.nanos - reading.nanos := by
  obtain ⟨stamped, hreadings, hreports, honTime, hlast, hframes⟩ := onTime_of_ticks h
  have hschedule := eq_of_start hstart
  have hfirst : schedule.lastTick = reading := congrArg lastTick hschedule
  -- the ticks were counted, so there were no more of them than the counter holds
  have hlt : schedule.time.tick.count.toNat + n < UInt64.size := by
    rw [← count_of_ticks h]
    exact final.time.tick.count.toNat_lt
  have hpaced : Paced reading final := by
    rcases (paced_of_start hstart).ticks hlt (hfirst ▸ hclock) with
      ⟨-, _, _, _, hticks, hpaced, -⟩ | ⟨-, i, hi, -⟩
    · rw [h] at hticks
      cases hticks
      exact hpaced
    · rw [h] at hi
      cases hi
  rw [hschedule] at honTime hlast hframes
  change final.frames.toNat = 0 + _ at hframes
  rw [Nat.zero_add] at hframes
  have hroom := length_mul_le honTime.isChain
  have hle := hpaced.sinceFrame_le
  change final.lastFrame = frameBehind reading stamped at hlast
  change _ ≤ (frameBehind reading stamped).nanos at hroom
  refine ⟨stamped, hreadings, hreports, honTime, honTime.isChain, hframes, ?_⟩
  rw [hframes]
  rw [← hlast] at hroom
  exact Nat.le_sub_of_add_le (hroom.trans (Nat.le_trans (Nat.le_add_left _ _) hle))

/-- Under uneven readings the first and the last of four ticks hand a frame over, thirty-five
milliseconds apart. -/
theorem frames_keep_cadence_uneven :
    start (lone early).flock .standard early = .ok (lone early) ∧
      (early :: readings Clock.ofReadings .idle 4 (lone early) uneven).IsChain (· ≤ ·) ∧
      ∃ reports final stamped, (lone early).ticks Clock.ofReadings .idle 4 uneven
          = .ok (reports, final, []) ∧
        stamped.map Prod.fst = uneven ∧ stamped.map Prod.snd = reports ∧
        OnTime 15000000 early stamped ∧
        frameReadings stamped = [.ofWord 25000000, .ofWord 60000000] ∧
        final.frames.toNat = 2 ∧ 2 * (15000000 + 1) ≤ 60000000 - 5000000 := by
  have hreadings : readings Clock.ofReadings .idle 4 (lone early) uneven = uneven := by rfl
  have hclock : (early :: readings Clock.ofReadings .idle 4 (lone early) uneven).IsChain
      (· ≤ ·) := by
    rw [hreadings]
    decide
  obtain ⟨reports, final, hticks, hover, hlast⟩ : ∃ reports final,
      (lone early).ticks Clock.ofReadings .idle 4 uneven = .ok (reports, final, []) ∧
      frameReadings (uneven.zip reports) = [.ofWord 25000000, .ofWord 60000000] ∧
      final.lastTick.nanos = 60000000 := by
    refine ⟨_, _, rfl, ?_, ?_⟩ <;> rfl
  obtain ⟨stamped, hfst, hsnd, honTime, -, hframes, hroom⟩ :=
    frames_keep_cadence Clock.ofReadings .idle (start_lone early) hclock hticks
  rw [hreadings] at hfst
  rw [← List.zip_of_prod hfst hsnd] at hover
  rw [hover] at hframes
  rw [hframes, hlast] at hroom
  exact ⟨start_lone early, hclock, reports, final, stamped, hticks, hfst, hsnd, honTime, hover,
    hframes, hroom⟩

end Schedule

end Phototaxis
