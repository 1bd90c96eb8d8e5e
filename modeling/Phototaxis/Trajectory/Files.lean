import Phototaxis.Trajectory.Tables

/-!
# Files of a trajectory

The tables of a trajectory go to their files through buffers. What is written stays in
the buffer until there is no more room in it or the file is flushed.

Finishing flushes both files, but only the first time. Closing always flushes them, so
what was written after they had been finished is in them in the end.
-/

namespace Phototaxis

/-- A file that is written through a buffer. -/
structure BufferedFile where
  /-- The bytes that are in the file. -/
  content : ByteArray := .empty
  /-- The bytes that are still in the buffer. -/
  held : ByteArray := .empty
deriving Inhabited

namespace BufferedFile

/-- The number of bytes that a buffer has room for. -/
def room : Nat := 0x2000

/-- The file with everything in it that was in the buffer. -/
def flush (file : BufferedFile) : BufferedFile := { content := file.content ++ file.held }

/-- The file with one more byte. If the buffer is full, it is flushed before. -/
def push (file : BufferedFile) (byte : UInt8) : BufferedFile :=
  let file := if file.held.size < room then file else file.flush
  { file with held := file.held.push byte }

/-- The file with more text. -/
@[irreducible]
def write (file : BufferedFile) (text : String) : BufferedFile :=
  (Text.encodeUtf8 text).foldl push file

end BufferedFile

/-- The files of both tables. -/
structure TrajectoryFiles where
  vehicles : BufferedFile := BufferedFile.write {} (Table.writeRecord VehicleRow.columns)
  summaries : BufferedFile := BufferedFile.write {} (Table.writeRecord FrameSummary.columns)
  /-- Whether the files were finished before. -/
  finished : Bool := false
deriving Inhabited

namespace TrajectoryFiles

/-- The files with more vehicles. -/
def addVehicles (files : TrajectoryFiles) (rows : List VehicleRow) : TrajectoryFiles :=
  { files with
    vehicles := rows.foldl (fun file row => file.write (Table.writeRecord row.fields))
      files.vehicles }

/-- The files with one more frame. -/
def addSummary (files : TrajectoryFiles) (row : FrameSummary) : TrajectoryFiles :=
  { files with summaries := files.summaries.write (Table.writeRecord row.fields) }

/-- The files after they were finished once more. -/
def finish (files : TrajectoryFiles) : TrajectoryFiles :=
  if files.finished then files else ⟨files.vehicles.flush, files.summaries.flush, true⟩

/-- The files after they were closed. -/
def close (files : TrajectoryFiles) : TrajectoryFiles :=
  { files with vehicles := files.vehicles.flush, summaries := files.summaries.flush }

/-- Writing into the files. -/
def sink (ε : Type) : Sink TrajectoryFiles ε where
  writeVehicles rows files := (none, files.addVehicles rows)
  writeSummary row files := (none, files.addSummary row)
  finish files := (none, files.finish)

end TrajectoryFiles

end Phototaxis
