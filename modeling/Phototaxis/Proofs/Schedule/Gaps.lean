import Mathlib
import Phototaxis.Proofs.Schedule.Onlookers
import Phototaxis.Proofs.Schedule.RealTime

/-!
# Ticking more often loses nothing

The step of a tick is the gap since the last reading, cut at the longest step. So the simulated time
after a run is a sum over its readings alone (`simulated_of_ticks`), and nothing else about the
schedule matters to it: neither the flock nor the frames, nor who watches.

A reading more splits one gap into two, and what is cut of the two is no more than what is cut of
the one (`cutGap_le`). Therefore the sum over some readings is at most the sum over these readings
among others (`cutGaps_le_of_sublist`), whether the clock falls back in between or not. Under a
clock that does not fall back the gaps add up to all the real time there was, and nothing is lost
of it exactly if no gap is cut (`cutGaps_eq_iff`).
-/

namespace Phototaxis

namespace Schedule

variable {maxStep : ℕ} {a b c last : Duration} {l l' : List Duration}

/-! ## Gaps between readings -/

/-- The gap between two readings, cut at the longest step. A clock that falls back leaves none. -/
def cutGap (maxStep : ℕ) (a b : Duration) : ℕ := min (b.nanos - a.nanos) maxStep

/-- The gaps between some readings, cut and added up, from a reading before them on. -/
def cutGaps (maxStep : ℕ) (last : Duration) : List Duration → ℕ
  | [] => 0
  | now :: readings => cutGap maxStep last now + cutGaps maxStep now readings

/-- **Splitting a gap loses nothing.** -/
theorem cutGap_le : cutGap maxStep a c ≤ cutGap maxStep a b + cutGap maxStep b c := by
  unfold cutGap
  omega

/-- A reading more in front. -/
theorem cutGaps_le_cons (now : Duration) :
    cutGaps maxStep last l ≤ cutGaps maxStep last (now :: l) := by
  cases l with
  | nil => exact Nat.zero_le _
  | cons next l =>
    calc cutGap maxStep last next + cutGaps maxStep next l
        ≤ cutGap maxStep last now + cutGap maxStep now next + cutGaps maxStep next l :=
          Nat.add_le_add_right cutGap_le _
      _ = cutGaps maxStep last (now :: next :: l) := Nat.add_assoc ..

/-- **More readings, not less simulated time.** -/
theorem cutGaps_le_of_sublist (h : l.Sublist l') (last : Duration) :
    cutGaps maxStep last l ≤ cutGaps maxStep last l' := by
  induction h generalizing last with
  | slnil => exact Nat.le_refl 0
  | cons now _ ih => exact (cutGaps_le_cons now).trans (Nat.add_le_add_left (ih now) _)
  | cons_cons now _ ih => exact Nat.add_le_add_left (ih now) _

/-- **Nothing is lost exactly if no gap is cut**, under a clock that does not fall back. -/
theorem cutGaps_eq_iff (maxStep : ℕ) (h : (last :: l).IsChain (· ≤ ·)) :
    cutGaps maxStep last l + last.nanos ≤ (l.getLastD last).nanos ∧
      (cutGaps maxStep last l + last.nanos = (l.getLastD last).nanos ↔
        (last :: l).IsChain fun a b => b.nanos - a.nanos ≤ maxStep) := by
  induction l generalizing last with
  | nil => exact ⟨Nat.le_of_eq (Nat.zero_add _), iff_of_true (Nat.zero_add _) (.singleton last)⟩
  | cons now l ih =>
    obtain ⟨hnow, hrest⟩ := List.isChain_cons_cons.mp h
    obtain ⟨hle, heq⟩ := ih hrest
    change last.nanos ≤ now.nanos at hnow
    rw [List.isChain_cons_cons, ← heq, List.getLastD_cons, cutGaps, cutGap]
    -- both the first gap and the others fit in, and the whole is filled only if both are
    omega

/-! ## The simulated time of a run -/

variable {σ τ : Type} {clock : Clock σ} {clock' : Clock τ}
variable {observer : Observer σ} {observer' : Observer τ}
variable {schedule final schedule' final' : Schedule} {s s₁ : σ} {t t₁ : τ}
variable {reports reports' : List TickReport} {n n' : ℕ}

/-- A step is the gap since the last reading, cut at the longest step. -/
theorem nanos_stepAt (schedule : Schedule) (now : Duration) :
    (schedule.stepAt now).nanos = cutGap schedule.timing.maxStep.nanos schedule.lastTick now :=
  Timing.nanos_step

/-- **The simulated time of a run is that of its readings.** -/
theorem simulated_of_ticks (h : schedule.ticks clock observer n s = .ok (reports, final, s₁)) :
    final.time.simulated.nanos = schedule.time.simulated.nanos
      + cutGaps schedule.timing.maxStep.nanos schedule.lastTick
          (readings clock observer n schedule s) := by
  induction n generalizing schedule s reports with
  | zero =>
    cases h
    rfl
  | succ n ih =>
    obtain ⟨report, next, s', rest, htick, hrest, rfl⟩ := ticks_succ_eq_ok_iff.mp h
    have hreadings := readings_succ_of_ok (n := n) htick
    obtain ⟨events, hticked, -⟩ := tickAt_eq_ok_iff.mp htick
    have hmoved := hticked.moved
    obtain ⟨-, hsum⟩ := SimulatedTime.advance_eq_ok_iff.mp hmoved.time_eq
    rw [ih hrest, hreadings, hsum, hmoved.timing_eq, hmoved.lastTick_eq, nanos_stepAt, cutGaps,
      Nat.add_assoc]

/-- From the start on, the simulated time is nothing but the sum of the gaps. -/
theorem simulated_of_start {flock : Flock} {timing : Timing} {reading : Duration}
    (hstart : start flock timing reading = .ok schedule)
    (h : schedule.ticks clock observer n s = .ok (reports, final, s₁)) :
    final.time.simulated.nanos
      = cutGaps timing.maxStep.nanos reading (readings clock observer n schedule s) := by
  have hschedule := eq_of_start hstart
  have hzero : schedule.time.simulated.nanos = 0 :=
    congrArg (fun schedule => schedule.time.simulated.nanos) hschedule
  have hlast : schedule.lastTick = reading := congrArg lastTick hschedule
  have htiming : schedule.timing = timing := congrArg Schedule.timing hschedule
  rw [simulated_of_ticks h, hzero, hlast, htiming, Nat.zero_add]

/-- **Ticking more often loses nothing.** Let two schedules be started at the same reading and with
the same longest step, and let the readings of a run of the first be found among those of a run of
the second, in their order. Then the second has simulated at least as much time as the first,
whatever else distinguishes the two, and even if the clock falls back. If the clock does not fall
back, the first has simulated all the time up to its last reading exactly if no gap between its
readings, from the start on, is longer than the longest step. -/
theorem more_ticks_lose_nothing {flock flock' : Flock} {timing timing' : Timing}
    {reading : Duration} (hstart : start flock timing reading = .ok schedule)
    (hstart' : start flock' timing' reading = .ok schedule')
    (hmaxStep : timing.maxStep = timing'.maxStep)
    (hticks : schedule.ticks clock observer n s = .ok (reports, final, s₁))
    (hticks' : schedule'.ticks clock' observer' n' t = .ok (reports', final', t₁))
    (hreadings : (readings clock observer n schedule s).Sublist
      (readings clock' observer' n' schedule' t)) :
    final.time.simulated.nanos ≤ final'.time.simulated.nanos ∧
      ((reading :: readings clock observer n schedule s).IsChain (· ≤ ·) →
        (final.time.simulated.nanos
            = ((readings clock observer n schedule s).getLastD reading).nanos - reading.nanos ↔
          (reading :: readings clock observer n schedule s).IsChain
            fun a b => b.nanos - a.nanos ≤ timing.maxStep.nanos)) := by
  rw [simulated_of_start hstart hticks, simulated_of_start hstart' hticks', ← hmaxStep]
  refine ⟨cutGaps_le_of_sublist hreadings reading, fun hclock => ?_⟩
  obtain ⟨hle, heq⟩ := cutGaps_eq_iff timing.maxStep.nanos hclock
  rw [← heq]
  omega

/-- Two of the uneven readings, the first one and the last. -/
def sparse : List Duration := [.ofWord 27000000, .ofWord 60000000]

/-- A schedule that ticks at two readings only simulates twice the longest step. One with other
frames that ticks at two readings more simulates the two milliseconds between them as well. -/
theorem more_ticks_lose_nothing_uneven : ∃ reports final reports' final',
    start (lone early).flock .standard early = .ok (lone early) ∧
    start (lone early).flock ⟨Timing.standard.maxStep, .zero⟩ early
      = .ok { lone early with timing := ⟨Timing.standard.maxStep, .zero⟩ } ∧
    (lone early).ticks Clock.ofReadings .idle 2 sparse = .ok (reports, final, []) ∧
    ({ lone early with timing := ⟨Timing.standard.maxStep, .zero⟩ } : Schedule).ticks
        Clock.ofReadings .idle 4 uneven = .ok (reports', final', []) ∧
    sparse.Sublist uneven ∧ (early :: sparse).IsChain (· ≤ ·) ∧
    final.time.simulated.nanos = 20000000 ∧ final'.time.simulated.nanos = 22000000 ∧
    final.time.simulated.nanos ≤ final'.time.simulated.nanos ∧
    final.time.simulated.nanos ≠ 60000000 - 5000000 := by
  obtain ⟨reports, final, hticks, hsimulated⟩ : ∃ reports final,
      (lone early).ticks Clock.ofReadings .idle 2 sparse = .ok (reports, final, []) ∧
      final.time.simulated.nanos = 20000000 := ⟨_, _, rfl, rfl⟩
  obtain ⟨reports', final', hticks', hsimulated'⟩ : ∃ reports final,
      ({ lone early with timing := ⟨Timing.standard.maxStep, .zero⟩ } : Schedule).ticks
        Clock.ofReadings .idle 4 uneven = .ok (reports, final, []) ∧
      final.time.simulated.nanos = 22000000 := ⟨_, _, rfl, rfl⟩
  have hstart' : start (lone early).flock ⟨Timing.standard.maxStep, .zero⟩ early
      = .ok { lone early with timing := ⟨Timing.standard.maxStep, .zero⟩ } := rfl
  have hsub : sparse.Sublist uneven := by decide
  have hclock : (early :: sparse).IsChain (· ≤ ·) := by decide
  have hgap : ¬ (early :: sparse).IsChain
      fun a b => b.nanos - a.nanos ≤ Timing.standard.maxStep.nanos := by decide
  obtain ⟨hle, hall⟩ := more_ticks_lose_nothing (start_lone early) hstart' rfl hticks hticks' hsub
  exact ⟨reports, final, reports', final', start_lone early, hstart', hticks, hticks', hsub, hclock,
    hsimulated, hsimulated', hle, mt (hall hclock).mp hgap⟩

end Schedule

end Phototaxis
