import Mathlib
import Phototaxis.Proofs.Files.Disk
import Phototaxis.Proofs.Number.Text
import Phototaxis.Proofs.Scenario.Grammar
import Phototaxis.Proofs.Trajectory.Recording
import Phototaxis.Proofs.Vehicle.Overflow

/-!
# A recording can be reloaded

The table of vehicles that a recorder writes is a table that a world can be assembled from.
It gives back every recorded vehicle, bit for bit (`Recorder.vehicles_reload`), as long as
the numbers of the vehicles are finite.

The writer and the reader agree in three things. The columns of a vehicle are the last ones
of the table, so what stands before them is passed over. Every cell is a word, so it is
neither quoted nor trimmed. And the cells of a vehicle are read as what they were written
from: a number from its text, a behavior from its name.
-/

namespace Phototaxis

variable {label name : String} {x : Float} {v : Vehicle}

/-! ## One row -/

theorem Record.number_text (h : x.isFinite) :
    Record.number label name (Number.text x) = .ok x := by
  rw [Record.number, Number.ofText?_text h]
  exact if_pos h

theorem Record.speed_text (h : x.isFinite) (h0 : 0.0 ≤ x) :
    Record.speed label (Number.text x) = .ok x := by
  have hnonneg : ¬ x < 0.0 := Number.not_lt_of_le h0
  rw [Record.speed, Record.number_text h]
  exact if_neg hnonneg

/-- Whether a row is that of a vehicle with finite numbers, in whatever frame and slot. -/
structure VehicleRow.Shows (row : VehicleRow) (v : Vehicle) : Prop where
  isFinite : v.IsFinite
  eq : ∃ frame tick id, row = .ofVehicle frame tick id v

namespace VehicleRow

variable {row : VehicleRow} {rows : List VehicleRow} {vehicles : List Vehicle}

theorem Shows.isWord (h : row.Shows v) : ∀ text ∈ row.fields, Text.IsWord text := by
  obtain ⟨frame, tick, id, rfl⟩ := h.eq
  obtain ⟨hx, hy⟩ := Vector2.isFinite_iff.mp h.isFinite.position
  have hname : Text.IsWord v.behavior.name := by
    cases v.behavior <;> decide
  simp only [fields, ofVehicle, List.forall_mem_cons]
  exact ⟨Number.isWord_toString _, Number.isWord_toString _, Number.isWord_toString _,
    Number.isWord_text hx, Number.isWord_text hy, Number.isWord_text h.isFinite.heading,
    Number.isWord_text h.isFinite.speed, hname, nofun⟩

/-- **The last cells of a row are read as its vehicle.** -/
theorem Shows.read (h : row.Shows v) (label : String) :
    Table.vehicleOfRow label (row.fields.drop 3) = .ok v := by
  obtain ⟨frame, tick, id, rfl⟩ := h.eq
  obtain ⟨hx, hy⟩ := Vector2.isFinite_iff.mp h.isFinite.position
  show Vehicle.ofFields label (Number.text v.position.x) (Number.text v.position.y)
    (Number.text v.heading) (Number.text v.speed) v.behavior.name = _
  rw [Vehicle.ofFields_eq, Record.number_text hx, Record.number_text hy,
    Record.number_text h.isFinite.heading,
    Record.speed_text h.isFinite.speed h.isFinite.nonneg, Record.behavior_name]
  rfl

/-- A table of vehicles is read as its lines. -/
theorem fields_records_lines {text : String} (htext : text.toList = Table.written (lines rows)) :
    (Table.records text.toUTF8.toList).map Table.RawRecord.fields
      = (lines rows).map (·.map Text.encodeUtf8) := by
  refine Table.fields_records_written htext ?_ ?_
  · rw [lines, List.forall_mem_cons, List.forall_mem_map]
    exact ⟨⟨by decide, by decide⟩, fun row _ =>
      ⟨List.cons_ne_nil _ _, fun h => nomatch (List.cons.inj h).2⟩⟩
  · rw [htext]
    exact fun h => nomatch Option.some.inj h

/-- **A table of rows is loaded as their vehicles.** -/
theorem vehicles_lines {text : String} (htext : text.toList = Table.written (lines rows))
    (h : List.Forall₂ Shows rows vehicles) :
    Table.vehicles text.toUTF8.toList = .ok vehicles := by
  obtain ⟨hwords, hread⟩ := (List.forall₂_and_left _ _).mp
    (h.imp fun _ _ hshows => ⟨hshows.isWord, hshows.read ""⟩)
  have hlines : ∀ texts ∈ rows.map fields, texts.length = columns.length ∧
      ∀ text ∈ texts, Text.IsWord text := by
    rw [List.forall_mem_map]
    exact fun row hrow => ⟨rfl, hwords row hrow⟩
  have hrows : Table.vehicleLayout.rows text.toUTF8.toList
      = rows.map fun row => .ok (row.fields.drop 3) :=
    (Table.Layout.rows_of_fields ["frame", "tick", "vehicle_id"] (fields_records_lines htext)
      (by decide) (by decide) hlines).trans List.map_map
  rw [Table.vehicles, hrows]
  exact (Table.itemsFrom_eq_ok_iff Table.labelled_vehicleOfRow "").mpr hread

end VehicleRow

/-! ## Whole recordings -/

/-- The file of the vehicles is that of their table, also after the other file was written. -/
theorem TrajectoryTables.reader_of_save {tables : TrajectoryTables} {directory : String}
    {disk disk' : Files.Disk} (h : tables.save directory disk = (.ok (), disk')) :
    disk'.reader (Path.join directory vehiclesName)
      = .ok (.file tables.vehicles.toUTF8.toList) := by
  unfold save at h
  split at h
  · exact nomatch h
  · next between hvehicles =>
    split at h
    · exact nomatch h
    · next after hsummaries =>
      cases h
      refine Files.Disk.reader_of_write_elsewhere ?_ ?_ (by decide)
        (Files.Disk.reader_of_write hvehicles) hsummaries
      · exact ⟨by decide, by decide, by decide, by decide⟩
      · exact ⟨by decide, by decide, by decide, by decide⟩

theorem Flock.shows_rows {flock : Flock} (h : ∀ v ∈ flock.vehicles.toList, v.IsFinite)
    (frame : UInt64) (tick : Tick) :
    List.Forall₂ VehicleRow.Shows (flock.rows frame tick) flock.vehicles.toList := by
  unfold rows numbered
  rw [List.map_map]
  generalize flock.vehicles.toList = vehicles at h
  generalize 0 = first
  induction vehicles generalizing first with
  | nil => exact .nil
  | cons v vehicles ih =>
    obtain ⟨hv, h⟩ := List.forall_mem_cons.mp h
    rw [List.zipIdx_cons, List.map_cons]
    exact .cons ⟨hv, frame, tick, _, rfl⟩ (ih h (first + 1))

namespace Recorder

variable {ε : Type} {frames : List HandOver}

theorem shows_rows (h : ∀ frame ∈ frames, ∀ v ∈ frame.flock.vehicles.toList, v.IsFinite)
    (first : UInt64) : List.Forall₂ VehicleRow.Shows (rows first frames)
      (frames.flatMap (·.flock.vehicles.toList)) := by
  induction frames generalizing first with
  | nil => exact .nil
  | cons frame frames ih =>
    obtain ⟨hframe, h⟩ := List.forall_mem_cons.mp h
    rw [rows, List.flatMap_cons]
    exact List.rel_append (Flock.shows_rows hframe first frame.tick) (ih h (first + 1))

/-- **A recording can be reloaded**, from its table or from the file that the table was saved in. -/
theorem vehicles_reload (n : UInt64) (events : List Event)
    (h : ∀ frame ∈ recordedAmong n events, ∀ v ∈ frame.flock.vehicles.toList, v.IsFinite) :
    Table.vehicles (tablesAfter ε n events).vehicles.toUTF8.toList
        = .ok ((recordedAmong n events).flatMap (·.flock.vehicles.toList)) ∧
      ∀ directory disk disk', (tablesAfter ε n events).save directory disk = (.ok (), disk') →
        Table.load disk'.reader Table.vehicles
            (Path.join directory TrajectoryTables.vehiclesName)
          = .ok ((recordedAmong n events).flatMap (·.flock.vehicles.toList)) := by
  have hread := VehicleRow.vehicles_lines (vehicles_tablesAfter (ε := ε) n events) (shows_rows h 0)
  refine ⟨hread, fun directory disk disk' hsave => ?_⟩
  rw [Table.load, TrajectoryTables.reader_of_save hsave]
  exact hread

/-- Two vehicles with numbers that are easily lost in writing, such as the negative zero and the
smallest float above zero. -/
def pair : Flock := .ofArray (.ofList [])
  #[⟨⟨-0.0, 0.1⟩, -2.5, 0.0, .leaderClockwise⟩, ⟨⟨1e22, 5e-324⟩, 0.3, 12.5, .follower⟩]

/-- A vehicle that is nowhere. -/
def lost : Flock := .ofArray (.ofList []) #[.followerAt ⟨0.0 / 0.0, 0.0⟩]

/-- Every second frame is recorded, and so the vehicle that is nowhere is not. -/
theorem vehicles_reload_everySecond :
    let events : List Event := [.frame ⟨0⟩ 0.0 pair, .frame ⟨1⟩ 0.5 lost, .frame ⟨2⟩ 0.5 pair]
    (∀ frame ∈ recordedAmong 2 events, ∀ v ∈ frame.flock.vehicles.toList, v.IsFinite) ∧
      ∃ disk, (tablesAfter Empty 2 events).save "" .empty = (.ok (), disk) ∧
        Table.load disk.reader Table.vehicles TrajectoryTables.vehiclesName
          = .ok (pair.vehicles.toList ++ pair.vehicles.toList) := by
  intro events
  have hrecorded : recordedAmong 2 events = [⟨⟨0⟩, 0.0, pair⟩, ⟨⟨2⟩, 0.5, pair⟩] := rfl
  have hpair : ∀ v ∈ pair.vehicles.toList, v.IsFinite := by
    refine List.forall_mem_cons.mpr ⟨?_, List.forall_mem_singleton.mpr ?_⟩
    · exact ⟨by decide +kernel, by decide +kernel, by decide +kernel, by decide +kernel⟩
    · exact ⟨by decide +kernel, by decide +kernel, by decide +kernel, by decide +kernel⟩
  have hfinite : ∀ frame ∈ recordedAmong 2 events, ∀ v ∈ frame.flock.vehicles.toList,
      v.IsFinite := by
    rw [hrecorded]
    exact List.forall_mem_cons.mpr ⟨hpair, List.forall_mem_singleton.mpr hpair⟩
  refine ⟨hfinite, _, rfl, ?_⟩
  exact (vehicles_reload (ε := Empty) 2 events hfinite).2 "" .empty _ rfl

end Recorder

end Phototaxis
