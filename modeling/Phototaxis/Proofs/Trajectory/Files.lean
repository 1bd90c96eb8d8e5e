import Mathlib
import Phototaxis.Proofs.Table.Standard
import Phototaxis.Proofs.Trajectory.Writes
import Phototaxis.Trajectory.Files

/-!
# What the files of a trajectory hold

Rows go to two files, each through a buffer of its own, and the files may be finished at any time.
None of this shows in the end. As long as the files are open, what is in a file and what is still in
its buffer are together the text of its table (`TrajectoryFiles.Holds`), and both closing the files
and finishing them for the first time leave nothing in a buffer.

The text of a table depends on its own rows only, and a table that was written is read back without
loss, whatever texts are in it. So every file tells all of its rows
(`TrajectoryFiles.files_lose_nothing`).
-/

namespace Phototaxis

/-! ## Buffers -/

namespace BufferedFile

/-- All that was written to a file, whether it is still in the buffer or not. -/
def written (file : BufferedFile) : ByteArray := file.content ++ file.held

theorem content_flush (file : BufferedFile) : file.flush.content = file.written := rfl

theorem written_flush (file : BufferedFile) : file.flush.written = file.written :=
  ByteArray.append_empty

/-- A byte that there is room for. -/
theorem written_hold (file : BufferedFile) (byte : UInt8) :
    { file with held := file.held.push byte }.written = file.written ++ [byte].toByteArray := by
  unfold written
  rw [← ByteArray.append_toByteArray_singleton, ByteArray.append_assoc]

/-- **Nothing is lost on the way through a buffer**, whether it is full or not. -/
theorem written_push (file : BufferedFile) (byte : UInt8) :
    (file.push byte).written = file.written ++ [byte].toByteArray := by
  unfold push
  dsimp only
  split
  · exact file.written_hold byte
  · rw [written_hold, written_flush]

theorem written_pushes (file : BufferedFile) (bytes : List UInt8) :
    (bytes.foldl push file).written = file.written ++ bytes.toByteArray := by
  induction bytes using List.reverseRecOn with
  | nil => exact ByteArray.append_empty.symm
  | append_singleton bytes byte ih =>
    rw [List.foldl_concat, written_push, ih, List.toByteArray_append, ByteArray.append_assoc]

theorem written_write (file : BufferedFile) (text : String) :
    (file.write text).written = file.written ++ text.toUTF8 := by
  rw [write, written_pushes]
  exact congrArg (file.written ++ ·) String.utf8Encode_toList

theorem written_write_empty (text : String) :
    (BufferedFile.write {} text).written = text.toUTF8 := by
  rw [written_write, written, ByteArray.append_empty, ByteArray.empty_append]

/-- A file to which a text was written is one to which the longer text was. -/
theorem written_write_append {file : BufferedFile} {text : String}
    (h : file.written = text.toUTF8) (more : String) :
    (file.write more).written = (text ++ more).toUTF8 := by
  rw [written_write, h]
  exact String.toByteArray_append.symm

end BufferedFile

/-! ## What is in the tables -/

/-- The vehicles that are written at once. -/
def Write.vehicleRows : Write → List VehicleRow
  | .vehicles rows => rows
  | _ => []

/-- The summaries that are written at once. -/
def Write.summaryRows : Write → List FrameSummary
  | .summary row => [row]
  | _ => []

/-- The lines of a table of frames. -/
def FrameSummary.lines (rows : List FrameSummary) : List (List String) := columns :: rows.map fields

namespace TrajectoryTables

variable (ε : Type) {writes writes' : List Write}

theorem toList_addSummary (tables : TrajectoryTables) (row : FrameSummary) :
    (tables.addSummary row).summaries.toList
      = tables.summaries.toList ++ Table.written [row.fields] := by
  unfold addSummary Table.writeRecord Table.written
  rw [String.toList_append, String.toList_ofList, List.flatMap_singleton]

theorem vehicles_perform (write : Write) (tables : TrajectoryTables) :
    ((sink ε).perform write tables).2.vehicles.toList
      = tables.vehicles.toList ++ Table.written (write.vehicleRows.map VehicleRow.fields) := by
  cases write with
  | vehicles rows => exact toList_addVehicles tables rows
  | summary row => exact (List.append_nil _).symm
  | finish => exact (List.append_nil _).symm

theorem summaries_perform (write : Write) (tables : TrajectoryTables) :
    ((sink ε).perform write tables).2.summaries.toList
      = tables.summaries.toList ++ Table.written (write.summaryRows.map FrameSummary.fields) := by
  cases write with
  | vehicles rows => exact (List.append_nil _).symm
  | summary row => exact toList_addSummary tables row
  | finish => exact (List.append_nil _).symm

/-- The tables after some writes. -/
def after (writes : List Write) : TrajectoryTables := (sink ε).performAll writes {}

/-- **The table of vehicles has all vehicles that were written**, in turn. -/
theorem vehicles_after (writes : List Write) : (after ε writes).vehicles.toList
    = Table.written (VehicleRow.lines (writes.flatMap Write.vehicleRows)) := by
  have hcolumns : ({} : TrajectoryTables).vehicles.toList = Table.written [VehicleRow.columns] :=
    String.toList_ofList
  have hall := Sink.performAll_appends (String.toList ∘ vehicles) (vehicles_perform ε) writes {}
  rw [VehicleRow.lines, List.map_flatMap, ← List.singleton_append, Table.written_append, ← hcolumns,
    Table.written, List.flatMap_assoc]
  exact hall

/-- **The table of frames has all summaries that were written**, in turn. -/
theorem summaries_after (writes : List Write) : (after ε writes).summaries.toList
    = Table.written (FrameSummary.lines (writes.flatMap Write.summaryRows)) := by
  have hcolumns : ({} : TrajectoryTables).summaries.toList = Table.written [FrameSummary.columns] :=
    String.toList_ofList
  have hall := Sink.performAll_appends (String.toList ∘ summaries) (summaries_perform ε) writes {}
  rw [FrameSummary.lines, List.map_flatMap, ← List.singleton_append, Table.written_append,
    ← hcolumns, Table.written, List.flatMap_assoc]
  exact hall

/-- The same vehicles make the same table. -/
theorem vehicles_congr
    (h : writes.flatMap Write.vehicleRows = writes'.flatMap Write.vehicleRows) :
    (after ε writes).vehicles = (after ε writes').vehicles := by
  rw [← String.toList_inj, vehicles_after, vehicles_after, h]

/-- The same summaries make the same table. -/
theorem summaries_congr
    (h : writes.flatMap Write.summaryRows = writes'.flatMap Write.summaryRows) :
    (after ε writes).summaries = (after ε writes').summaries := by
  rw [← String.toList_inj, summaries_after, summaries_after, h]

end TrajectoryTables

/-! ## What is in the files -/

namespace TrajectoryFiles

variable {ε : Type} {files : TrajectoryFiles} {tables : TrajectoryTables}

/-- Whether files were written what tables have, no matter how much of it is in them yet. -/
structure Holds (files : TrajectoryFiles) (tables : TrajectoryTables) : Prop where
  vehicles : files.vehicles.written = tables.vehicles.toUTF8
  summaries : files.summaries.written = tables.summaries.toUTF8

theorem holds_open : Holds {} {} :=
  ⟨BufferedFile.written_write_empty _, BufferedFile.written_write_empty _⟩

theorem Holds.addVehicles (h : Holds files tables) (rows : List VehicleRow) :
    Holds (files.addVehicles rows) (tables.addVehicles rows) := by
  refine ⟨?_, h.summaries⟩
  have hrows := h.vehicles
  unfold TrajectoryFiles.addVehicles TrajectoryTables.addVehicles
  dsimp only
  generalize files.vehicles = file at hrows ⊢
  generalize tables.vehicles = text at hrows ⊢
  induction rows generalizing file text with
  | nil => exact hrows
  | cons row rows ih =>
    rw [List.foldl_cons, List.foldl_cons]
    exact ih _ _ (BufferedFile.written_write_append hrows _)

theorem Holds.addSummary (h : Holds files tables) (row : FrameSummary) :
    Holds (files.addSummary row) (tables.addSummary row) :=
  ⟨h.vehicles, BufferedFile.written_write_append h.summaries _⟩

/-- Finishing moves bytes only. -/
theorem Holds.finish (h : Holds files tables) : Holds files.finish tables := by
  unfold TrajectoryFiles.finish
  split
  · exact h
  · exact ⟨(BufferedFile.written_flush _).trans h.vehicles,
      (BufferedFile.written_flush _).trans h.summaries⟩

/-- **The files keep up with the tables**, whatever is written. -/
theorem Holds.perform (h : Holds files tables) (write : Write) :
    Holds ((sink ε).perform write files).2
      ((TrajectoryTables.sink ε).perform write tables).2 := by
  cases write with
  | vehicles rows => exact h.addVehicles rows
  | summary row => exact h.addSummary row
  | finish => exact h.finish

theorem Holds.performAll (h : Holds files tables) (writes : List Write) :
    Holds ((sink ε).performAll writes files)
      ((TrajectoryTables.sink ε).performAll writes tables) := by
  induction writes generalizing files tables with
  | nil => exact h
  | cons write writes ih => exact ih (h.perform write)

variable (ε)

/-- The files after some writes, still open. -/
def after (writes : List Write) : TrajectoryFiles := (sink ε).performAll writes {}

theorem after_concat (writes : List Write) (write : Write) :
    after ε (writes ++ [write]) = ((sink ε).perform write (after ε writes)).2 :=
  Sink.performAll_append ..

theorem holds_after (writes : List Write) :
    Holds (after ε writes) (TrajectoryTables.after ε writes) :=
  holds_open.performAll writes

/-- Only finishing makes files finished. -/
theorem finished_after {writes : List Write} (h : .finish ∉ writes) :
    (after ε writes).finished = false := by
  induction writes using List.reverseRecOn with
  | nil => rfl
  | append_singleton writes write ih =>
    have hbefore := ih fun hmem => h (List.mem_append_left _ hmem)
    rw [after_concat]
    cases write with
    | vehicles rows => exact hbefore
    | summary row => exact hbefore
    | finish => exact absurd (List.mem_append_right _ List.mem_cons_self) h

/-- Whether files have all in them that tables have, whatever is in their buffers. -/
structure Complete (files : TrajectoryFiles) (tables : TrajectoryTables) : Prop where
  vehicles : files.vehicles.content = tables.vehicles.toUTF8
  summaries : files.summaries.content = tables.summaries.toUTF8

variable {ε}

/-- **Closed files are complete.** -/
theorem Holds.close (h : Holds files tables) : Complete files.close tables :=
  ⟨(BufferedFile.content_flush _).trans h.vehicles,
    (BufferedFile.content_flush _).trans h.summaries⟩

/-- **Files are complete when they are finished for the first time.** -/
theorem Holds.complete_finish (h : Holds files tables) (hfinished : files.finished = false) :
    Complete files.finish tables := by
  rw [TrajectoryFiles.finish, hfinished]
  exact ⟨h.close.vehicles, h.close.summaries⟩

/-- Whether the files are standard tables of the rows of some writes, in turn, and of no others. -/
structure Tells (files : TrajectoryFiles) (writes : List Write) : Prop where
  vehicles : Table.standard? files.vehicles.content
    = some (VehicleRow.columns :: (writes.flatMap Write.vehicleRows).map VehicleRow.fields)
  summaries : Table.standard? files.summaries.content
    = some (FrameSummary.columns :: (writes.flatMap Write.summaryRows).map FrameSummary.fields)

/-- **Complete files tell what was written.** -/
theorem Complete.tells {writes : List Write}
    (h : Complete files (TrajectoryTables.after ε writes)) : files.Tells writes := by
  constructor
  · rw [h.vehicles]
    refine Table.standard?_written (TrajectoryTables.vehicles_after ε writes) ?_
    exact List.forall_mem_cons.mpr ⟨.of_two .., List.forall_mem_map.mpr fun row _ => .of_two ..⟩
  · rw [h.summaries]
    refine Table.standard?_written (TrajectoryTables.summaries_after ε writes) ?_
    exact List.forall_mem_cons.mpr ⟨.of_two .., List.forall_mem_map.mpr fun row _ => .of_two ..⟩

/-- **The files lose nothing.** Whatever rows are written, in whatever turn, and however often the
files are finished on the way, the closed files are standard tables. Each has its columns and then
one line for each of its rows, in the order in which they were written and with the texts of all
fields as they are. If the files were not finished before, they need not be closed for that:
finishing them is enough. What is in a file depends on its own rows only, neither on those of the
other file nor on when the files were finished, nor even on how many rows were written at once. -/
theorem files_lose_nothing (ε : Type) (writes writes' : List Write) :
    (after ε writes).close.Tells writes ∧
      (.finish ∉ writes → (after ε (writes ++ [.finish])).Tells writes) ∧
      (writes.flatMap Write.vehicleRows = writes'.flatMap Write.vehicleRows →
        (after ε writes).close.vehicles.content = (after ε writes').close.vehicles.content) ∧
      (writes.flatMap Write.summaryRows = writes'.flatMap Write.summaryRows →
        (after ε writes).close.summaries.content = (after ε writes').close.summaries.content) := by
  have hholds := holds_after ε writes
  have hholds' := holds_after ε writes'
  refine ⟨hholds.close.tells, fun hfinish => ?_, fun hrows => ?_, fun hrows => ?_⟩
  · rw [after_concat]
    exact (hholds.complete_finish (finished_after ε hfinish)).tells
  · rw [hholds.close.vehicles, hholds'.close.vehicles, TrajectoryTables.vehicles_congr ε hrows]
  · rw [hholds.close.summaries, hholds'.close.summaries, TrajectoryTables.summaries_congr ε hrows]

/-- A row with any text for its behavior. -/
def rowNamed (behavior : String) : VehicleRow :=
  ⟨3, ⟨4⟩, .numbering 1, 0.5, -1.5, 0.0, 2.0, behavior⟩

/-- A summary between two rows, one of which has all that might end a field in its behavior. -/
def mixed : List Write :=
  [.vehicles [rowNamed "a,\"b\"\r\n"], .summary ⟨3, ⟨4⟩, 0.25, 0.5, 1, 2.0⟩,
    .vehicles [rowNamed " "]]

/-- The same rows in another turn, most of them after the files were finished. -/
def regrouped : List Write :=
  [.summary ⟨3, ⟨4⟩, 0.25, 0.5, 1, 2.0⟩, .finish,
    .vehicles [rowNamed "a,\"b\"\r\n", rowNamed " "], .finish]

/-- Both rows are read as they are, whether the files are closed or only finished. It does not
matter to the files in which turn the rows were written. -/
theorem files_lose_nothing_regrouped :
    .finish ∉ mixed ∧
      mixed.flatMap Write.vehicleRows = regrouped.flatMap Write.vehicleRows ∧
      mixed.flatMap Write.summaryRows = regrouped.flatMap Write.summaryRows ∧
      Table.standard? (after Empty mixed).close.vehicles.content = some [VehicleRow.columns,
        ["3", "4", "1", "0.5", "-1.5", "0", "2", "a,\"b\"\r\n"],
        ["3", "4", "1", "0.5", "-1.5", "0", "2", " "]] ∧
      (after Empty (mixed ++ [.finish])).Tells mixed ∧
      (after Empty mixed).close.vehicles.content = (after Empty regrouped).close.vehicles.content ∧
      (after Empty mixed).close.summaries.content
        = (after Empty regrouped).close.summaries.content := by
  have hfinish : .finish ∉ mixed := by
    simp [mixed]
  have hrows : (mixed.flatMap Write.vehicleRows).map VehicleRow.fields
      = [["3", "4", "1", "0.5", "-1.5", "0", "2", "a,\"b\"\r\n"],
        ["3", "4", "1", "0.5", "-1.5", "0", "2", " "]] := by
    decide +kernel
  obtain ⟨hclosed, hfinished, hvehicles, hsummaries⟩ := files_lose_nothing Empty mixed regrouped
  refine ⟨hfinish, rfl, rfl, ?_, hfinished hfinish, hvehicles rfl, hsummaries rfl⟩
  rw [hclosed.vehicles, hrows]

end TrajectoryFiles

end Phototaxis
