import Mathlib.Tactic.Common
import Phototaxis.Proofs.Fault
import Phototaxis.Schedule.Basic

/-!
# Sums of times and counters

Durations and counters have a greatest value, and passing it is a fault. Each sum is
described by one equivalence: it succeeds with a result exactly if the result is the
exact sum. That the result exists as a value is then the same as that the sum fits.
-/

namespace Phototaxis

namespace Duration

variable {a b c : Duration}

theorem eq_of_nanos (h : a.nanos = b.nanos) : a = b := by
  cases a
  cases b
  cases h
  rfl

/-- **A sum of durations is exact**, where there is one. -/
theorem add_eq_ok_iff : a.add b = .ok c ↔ c.nanos = a.nanos + b.nanos := by
  unfold add ofNanos?
  by_cases h : a.nanos + b.nanos < UInt64.size * 1000000000
  · rw [dif_pos h]
    constructor
    · intro heq
      cases heq
      rfl
    · intro heq
      exact congrArg Except.ok (eq_of_nanos heq.symm)
  · rw [dif_neg h]
    constructor
    · exact nofun
    · intro heq
      exact absurd (heq ▸ c.nanos_lt) h

end Duration

/-- The number behind a counter. -/
theorem toNat_succ {count : UInt64} (h : count.toNat + 1 < UInt64.size) :
    (count + 1).toNat = count.toNat + 1 := by
  rw [UInt64.toNat_add]
  exact Nat.mod_eq_of_lt h

theorem eq_succ_of_toNat {count count' : UInt64} (h : count'.toNat = count.toNat + 1) :
    count' = count + 1 := by
  have hlt := count'.toNat_lt
  rw [h] at hlt
  exact UInt64.toNat_inj.mp (h.trans (toNat_succ hlt).symm)

theorem Tick.after_one_eq_ok_iff {t t' : Tick} :
    t.after 1 = .ok t' ↔ t'.count.toNat = t.count.toNat + 1 := by
  unfold after
  by_cases h : t.count.toNat + (1 : UInt64).toNat < UInt64.size
  · rw [if_pos h]
    constructor
    · intro heq
      cases heq
      exact toNat_succ h
    · intro heq
      rw [← eq_succ_of_toNat heq]
  · rw [if_neg h]
    constructor
    · exact nofun
    · intro heq
      exact absurd (heq ▸ t'.count.toNat_lt) h

/-- **Advancing counts one step and adds its length.** -/
theorem SimulatedTime.advance_eq_ok_iff {t t' : SimulatedTime} {step : Duration} :
    t.advance step = .ok t' ↔ t'.tick.count.toNat = t.tick.count.toNat + 1 ∧
      t'.simulated.nanos = t.simulated.nanos + step.nanos := by
  rw [← Tick.after_one_eq_ok_iff, ← Duration.add_eq_ok_iff]
  unfold advance
  simp only [bind_eq_ok_iff]
  constructor
  · rintro ⟨tick, htick, simulated, hsimulated, h⟩
    cases h
    exact ⟨htick, hsimulated⟩
  · rintro ⟨htick, hsimulated⟩
    exact ⟨_, htick, _, hsimulated, rfl⟩

theorem Schedule.countFrame_eq_ok_iff {frames frames' : UInt64} :
    countFrame frames = .ok frames' ↔ frames'.toNat = frames.toNat + 1 := by
  have htick : countFrame frames = .ok frames' ↔ (Tick.mk frames).after 1 = .ok ⟨frames'⟩ := by
    show (if frames.toNat + 1 < UInt64.size then _ else _) = _ ↔
      (if frames.toNat + 1 < UInt64.size then _ else _) = _
    split <;> simp
  exact htick.trans Tick.after_one_eq_ok_iff

namespace Timing

variable {t : Timing} {elapsed : Duration}

/-- **A step is the real time, cut at the longest step.** -/
theorem nanos_step : (t.step elapsed).nanos = min elapsed.nanos t.maxStep.nanos := by
  unfold step
  show (if elapsed ≤ t.maxStep then elapsed else t.maxStep).nanos = _
  split
  · rename_i h
    exact (Nat.min_eq_left h).symm
  · rename_i h
    exact (Nat.min_eq_right (Nat.le_of_not_le h)).symm

end Timing

end Phototaxis
