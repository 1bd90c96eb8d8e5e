import Mathlib.Data.List.Basic
import Phototaxis.Proofs.Schedule.Tick
import Phototaxis.Proofs.Table.Reading
import Phototaxis.Trajectory.Tables

/-!
# What a recording holds

A recorder counts the frames that are handed over and records those whose number is a
multiple of its interval. The recorded frames are numbered in their turn, without gaps.

The table of vehicles is its header and, frame by frame, the rows of the recorded flocks
(`Recorder.vehicles_tablesAfter`). Nothing else that happens in a schedule shows in it,
neither the ticks between the frames nor a stop.
-/

namespace Phototaxis

/-- A frame as it is handed over. -/
structure HandOver where
  tick : Tick
  elapsed : Float
  flock : Flock

/-- The frame that is handed over, if there is one. -/
def Event.handOver? : Event → Option HandOver
  | .frame tick elapsed flock => some ⟨tick, elapsed, flock⟩
  | _ => none

theorem Event.handOvers_frame {tick : Tick} {elapsed : Float} {flock : Flock}
    (events : List Event) : (Event.frame tick elapsed flock :: events).filterMap handOver?
      = ⟨tick, elapsed, flock⟩ :: events.filterMap handOver? := rfl

/-- The lines of a table of vehicles. -/
def VehicleRow.lines (rows : List VehicleRow) : List (List String) := columns :: rows.map fields

theorem TrajectoryTables.toList_addVehicles (tables : TrajectoryTables) (rows : List VehicleRow) :
    (tables.addVehicles rows).vehicles.toList
      = tables.vehicles.toList ++ Table.written (rows.map VehicleRow.fields) := by
  unfold addVehicles
  generalize tables.vehicles = text
  dsimp only
  induction rows generalizing text with
  | nil => exact (List.append_nil _).symm
  | cons row rows ih =>
    rw [List.foldl_cons, ih, String.toList_append, List.append_assoc, Table.writeRecord,
      String.toList_ofList]
    rfl

namespace Recorder

variable {ε : Type} {tick : Tick} {elapsed : Float} {flock : Flock} {frame : HandOver}
variable {frames : List HandOver}

/-! ## Which frames are recorded -/

/-- The frames that are recorded, the first of them being number `seen`. -/
def recorded (interval : UInt64) : UInt64 → List HandOver → List HandOver
  | _, [] => []
  | seen, frame :: frames =>
    (if seen % interval = 0 then [frame] else []) ++ recorded interval (seen + 1) frames

/-- The rows of recorded frames, the first of them being number `first`. -/
def rows : UInt64 → List HandOver → List VehicleRow
  | _, [] => []
  | first, frame :: frames => frame.flock.rows first frame.tick ++ rows (first + 1) frames

/-- A number is due as a word if it is due. -/
theorem due_ofNat_iff {number : ℕ} (h : number < UInt64.size) (interval : UInt64) :
    UInt64.ofNat number % interval = 0 ↔ number % interval.toNat = 0 := by
  rw [← UInt64.toNat_inj, UInt64.toNat_mod, UInt64.toNat_ofNat_of_lt' h]
  rfl

/-- **The recorded frames are those whose number is a multiple of the interval**, as long as every
frame has a number of its own. -/
theorem recorded_eq (interval : UInt64) {seen : ℕ} (h : seen + frames.length ≤ UInt64.size) :
    recorded interval (.ofNat seen) frames
      = ((frames.zipIdx seen).filter (·.2 % interval.toNat = 0)).map (·.1) := by
  induction frames generalizing seen with
  | nil => rfl
  | cons frame frames ih =>
    rw [List.length_cons] at h
    have hrest : recorded interval (.ofNat (seen + 1)) frames = _ := ih (by omega)
    rw [UInt64.ofNat_add] at hrest
    rw [recorded, List.zipIdx_cons, List.filter_cons]
    by_cases hdue : seen % interval.toNat = 0
    · rw [if_pos ((due_ofNat_iff (by omega) interval).mpr hdue), if_pos (decide_eq_true hdue),
        List.map_cons, ← hrest]
      rfl
    · rw [if_neg (mt (due_ofNat_iff (by omega) interval).mp hdue),
        if_neg (fun h => hdue (of_decide_eq_true h)), ← hrest]
      rfl

/-! ## One frame -/

section OneFrame

variable {ω : Type} (out : Sink ω ε) (r : Recorder ω ε)

theorem observer_frame :
    observer out (.frame tick elapsed flock) r = r.onFrame out tick elapsed flock := rfl

theorem interval_onFrame : (r.onFrame out tick elapsed flock).interval = r.interval := by
  unfold onFrame record recordVehicles
  dsimp only
  split
  · split <;> rfl
  · rfl

theorem seen_onFrame : (r.onFrame out tick elapsed flock).seen = r.seen + 1 := by
  unfold onFrame record recordVehicles
  dsimp only
  split
  · split <;> rfl
  · rfl

theorem frames_onFrame : (r.onFrame out tick elapsed flock).frames
    = if r.seen % r.interval = 0 then r.frames + 1 else r.frames := by
  unfold onFrame
  dsimp only
  split <;> rfl

end OneFrame

/-- A recorded frame adds its rows. Without rows nothing is written, which comes to the same. -/
theorem vehicles_record (r : Recorder TrajectoryTables ε) :
    (r.record (TrajectoryTables.sink ε) tick elapsed flock).sink.vehicles.toList
      = r.sink.vehicles.toList
        ++ Table.written ((flock.rows r.frames tick).map VehicleRow.fields) := by
  show (r.recordVehicles (TrajectoryTables.sink ε) (flock.rows r.frames tick)).sink.vehicles.toList
    = _
  unfold recordVehicles
  split
  · next hempty =>
    rw [List.isEmpty_iff.mp hempty]
    exact (List.append_nil _).symm
  · exact TrajectoryTables.toList_addVehicles _ _

/-- **What one frame adds to the table of vehicles.** -/
theorem vehicles_onFrame (r : Recorder TrajectoryTables ε) :
    (r.onFrame (TrajectoryTables.sink ε) tick elapsed flock).sink.vehicles.toList
      = r.sink.vehicles.toList ++ if r.seen % r.interval = 0 then
          Table.written ((flock.rows r.frames tick).map VehicleRow.fields) else [] := by
  unfold onFrame
  dsimp only
  split
  · exact vehicles_record _
  · exact (List.append_nil _).symm

/-! ## All frames -/

/-- **The table of vehicles has the rows of the recorded frames**, and nothing else is added to
it. -/
theorem vehicles_watch (r : Recorder TrajectoryTables ε) (events : List Event) :
    (Schedule.watch (observer (TrajectoryTables.sink ε)) events r).sink.vehicles.toList
      = r.sink.vehicles.toList ++ Table.written ((rows r.frames
          (recorded r.interval r.seen (events.filterMap Event.handOver?))).map
            VehicleRow.fields) := by
  induction events generalizing r with
  | nil => exact (List.append_nil _).symm
  | cons event events ih =>
    show (Schedule.watch (observer (TrajectoryTables.sink ε)) events
      (observer (TrajectoryTables.sink ε) event r)).sink.vehicles.toList = _
    rw [ih]
    cases event with
    | frame tick elapsed flock =>
      rw [observer_frame, vehicles_onFrame, frames_onFrame, interval_onFrame, seen_onFrame,
        Event.handOvers_frame, recorded, List.append_assoc]
      by_cases hdue : r.seen % r.interval = 0
      · rw [if_pos hdue, if_pos hdue, if_pos hdue, List.singleton_append, rows,
          List.map_append, Table.written_append]
      · rw [if_neg hdue, if_neg hdue, if_neg hdue]
        rfl
    | tickStarts tick => rfl
    | tickEnds tick step => rfl
    | stops time => rfl

/-- The frames that a recording of every `n`-th frame has. -/
def recordedAmong (n : UInt64) (events : List Event) : List HandOver :=
  recorded (max n 1) 0 (events.filterMap Event.handOver?)

/-- The tables of a recording of every `n`-th frame. -/
def tablesAfter (ε : Type) (n : UInt64) (events : List Event) : TrajectoryTables :=
  (Schedule.watch (observer (TrajectoryTables.sink ε)) events (everyNth { sink := {} } n)).sink

/-- **A new recording has a header and the rows of the recorded frames**, numbered from zero on. -/
theorem vehicles_tablesAfter (n : UInt64) (events : List Event) :
    (tablesAfter ε n events).vehicles.toList
      = Table.written (VehicleRow.lines (rows 0 (recordedAmong n events))) := by
  rw [tablesAfter, vehicles_watch]
  exact congrArg (· ++ _) String.toList_ofList

end Recorder

end Phototaxis
