import Mathlib.Tactic.Common
import Phototaxis.Proofs.Time.Sums
import Phototaxis.Time.HandClock

/-!
# Where a clock moved by hand stays monotonic

A clock is expected never to go back. Setting this one never takes it back, and a reading that does
not fit its word counts as the greatest one (`nanos_set`). Advancing it takes the same care of the
span, but not of the sum, which wraps (`nanos_advance`).

An advance has room if its sum fits the word. With room it moves the clock forward by its span, up
to the greatest reading. Without room it takes the clock back (`lt_of_not_hasRoom`), so that one
such advance is enough for the readings not to be in order. They are in order exactly if there is
none (`readings_ordered_iff`).
-/

namespace Phototaxis

theorem Duration.toNat_word (d : Duration) : d.word.toNat = min d.nanos (UInt64.size - 1) :=
  UInt64.toNat_ofNat_of_lt (Nat.lt_of_le_of_lt (Nat.min_le_right _ _) (by decide))

namespace HandClock

variable {c : HandClock} {span : Duration}

/-! ## One call -/

/-- Whether the clock can be advanced by a span without passing the end of its word. -/
def HasRoom (c : HandClock) (span : Duration) : Prop :=
  c.reading.nanos + min span.nanos (UInt64.size - 1) < UInt64.size

theorem nanos_reading_lt (c : HandClock) : c.reading.nanos < UInt64.size := c.nanos.toNat_lt

/-- **An advance wraps.** -/
theorem nanos_advance (c : HandClock) (span : Duration) : (c.advance span).reading.nanos
    = (c.reading.nanos + min span.nanos (UInt64.size - 1)) % UInt64.size := by
  show (c.nanos + span.word).toNat = (c.nanos.toNat + _) % _
  rw [UInt64.toNat_add, Duration.toNat_word]

/-- **A clock that is set does not go back.** -/
theorem nanos_set (c : HandClock) (reading : Duration) : (c.set reading).reading.nanos
    = max c.reading.nanos (min reading.nanos (UInt64.size - 1)) := by
  show (if c.nanos ≤ reading.word then reading.word else c.nanos).toNat = max c.nanos.toNat _
  rw [← Duration.toNat_word]
  split
  · next h => exact (Nat.max_eq_right (UInt64.le_iff_toNat_le.mp h)).symm
  · next h => exact (Nat.max_eq_left (Nat.le_of_not_le (mt UInt64.le_iff_toNat_le.mpr h))).symm

theorem nanos_advance_of_hasRoom (h : c.HasRoom span) : (c.advance span).reading.nanos
    = min (c.reading.nanos + span.nanos) (UInt64.size - 1) := by
  have hsum : (c.advance span).reading.nanos
      = c.reading.nanos + min span.nanos (UInt64.size - 1) := by
    rw [nanos_advance]
    exact Nat.mod_eq_of_lt h
  unfold HasRoom at h
  omega

/-- **An advance without room takes the clock back.** -/
theorem lt_of_not_hasRoom (h : ¬ c.HasRoom span) : (c.advance span).reading < c.reading := by
  have hreading := c.nanos_reading_lt
  unfold HasRoom at h
  show (c.advance span).reading.nanos < c.reading.nanos
  rw [nanos_advance, Nat.mod_eq_sub_mod (Nat.le_of_not_lt h), Nat.mod_eq_of_lt (by omega)]
  omega

theorem le_advance_iff : c.reading ≤ (c.advance span).reading ↔ c.HasRoom span := by
  constructor
  · intro hle
    by_contra hroom
    exact Nat.not_lt_of_le hle (lt_of_not_hasRoom hroom)
  · intro hroom
    have hreading := c.nanos_reading_lt
    show c.reading.nanos ≤ (c.advance span).reading.nanos
    rw [nanos_advance_of_hasRoom hroom]
    omega

/-! ## All calls -/

/-- A call that moves a clock. -/
inductive Call where
  | advance (span : Duration)
  | set (reading : Duration)

/-- The clock after a call. Whoever holds a clock holds the same one, so it does not matter who
makes the call. -/
def call (c : HandClock) : Call → HandClock
  | .advance span => c.advance span
  | .set reading => c.set reading

/-- The readings after each of some calls. -/
def readings (c : HandClock) : List Call → List Duration
  | [] => []
  | next :: calls => (c.call next).reading :: (c.call next).readings calls

/-- Whether each advance among some calls has room when its turn comes. -/
def HasRoomThroughout (c : HandClock) (calls : List Call) : Prop :=
  ∀ before span rest, calls = before ++ .advance span :: rest → (before.foldl call c).HasRoom span

theorem hasRoomThroughout_cons {next : Call} {calls : List Call} :
    c.HasRoomThroughout (next :: calls) ↔
      c.reading ≤ (c.call next).reading ∧ (c.call next).HasRoomThroughout calls := by
  have hfirst : c.reading ≤ (c.call next).reading ↔
      ∀ span, next = .advance span → c.HasRoom span := by
    cases next with
    | advance span =>
      rw [call, le_advance_iff]
      exact ⟨fun h _ heq => Call.advance.inj heq ▸ h, fun h => h span rfl⟩
    | set reading =>
      refine iff_of_true ?_ nofun
      show c.reading.nanos ≤ (c.set reading).reading.nanos
      rw [nanos_set]
      exact Nat.le_max_left _ _
  rw [hfirst]
  constructor
  · intro h
    refine ⟨fun span heq => h [] span calls (congrArg (· :: calls) heq), ?_⟩
    exact fun before span rest heq => h (next :: before) span rest (congrArg (next :: ·) heq)
  · rintro ⟨hnext, hrest⟩ before span rest heq
    cases before with
    | nil => exact hnext span (List.cons.inj heq).1
    | cons first before =>
      obtain ⟨rfl, hsplit⟩ := List.cons.inj heq
      exact hrest before span rest hsplit

/-- **Where a clock moved by hand stays monotonic.** The readings after some calls never go back
exactly if each advance among them has room. An advance moves the reading forward by its span, up to
the greatest reading, exactly if it has room, and else it takes the clock back. Setting the clock
moves it forward to the reading, up to the greatest one, or not at all. -/
theorem readings_ordered_iff (c : HandClock) (calls : List Call) :
    ((c.reading :: c.readings calls).IsChain (· ≤ ·) ↔ c.HasRoomThroughout calls) ∧
    ∀ d : Duration,
      ((c.advance d).reading.nanos = min (c.reading.nanos + d.nanos) (UInt64.size - 1) ↔
        c.HasRoom d) ∧
      ((c.advance d).reading < c.reading ↔ ¬ c.HasRoom d) ∧
      (c.set d).reading.nanos = max c.reading.nanos (min d.nanos (UInt64.size - 1)) := by
  refine ⟨?_, fun d => ⟨⟨fun h => ?_, nanos_advance_of_hasRoom⟩, ?_, c.nanos_set d⟩⟩
  · induction calls generalizing c with
    | nil =>
      refine iff_of_true (.singleton _) fun before span rest h => ?_
      exact absurd h.symm (List.append_ne_nil_of_right_ne_nil before (List.cons_ne_nil _ _))
    | cons next calls ih =>
      rw [hasRoomThroughout_cons, ← ih (c.call next)]
      exact List.isChain_cons_cons
  · have hreading := c.nanos_reading_lt
    refine le_advance_iff.mp ?_
    show c.reading.nanos ≤ (c.advance d).reading.nanos
    omega
  · rw [← le_advance_iff]
    exact Nat.not_le.symm

/-- **A clock that has been set to its greatest reading falls back to zero** when it is advanced by
a nanosecond, and does not stay where it is. -/
theorem falls_back_at_its_end :
    let full : HandClock := HandClock.set {} .longest
    ({} : HandClock).readings [.set .longest, .advance (.ofWord 1)]
        = [.ofWord 18446744073709551615, .zero] ∧
      ¬ (({} : HandClock).reading ::
        ({} : HandClock).readings [.set .longest, .advance (.ofWord 1)]).IsChain (· ≤ ·) ∧
      (full.advance (.ofWord 1)).reading.nanos
        ≠ min (full.reading.nanos + (Duration.ofWord 1).nanos) (UInt64.size - 1) := by
  decide

end HandClock

end Phototaxis
