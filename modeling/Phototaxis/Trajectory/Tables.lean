import Phototaxis.Files.Disk
import Phototaxis.Number.Text
import Phototaxis.Table.Writer
import Phototaxis.Trajectory.Recorder

/-!
# Tables of a trajectory

A trajectory is written as two tables in one directory: one with a row for every
vehicle of every recorded frame, and one with a row for every recorded frame. Both
have a header. Numbers are written with as many digits as it takes to read them
back, so a table of vehicles is a table that a world can be assembled from.

The directory is made if it is missing, and tables that are already there are
replaced.
-/

namespace Phototaxis

/-- Why a trajectory cannot be written. -/
inductive TrajectoryError where
  /-- The directory cannot be made. -/
  | directory (fault : FileFault)
  /-- A table in it cannot be opened. -/
  | table (fault : FileFault)
deriving DecidableEq

namespace TrajectoryError

/-- What lies behind the error. -/
def fault : TrajectoryError → FileFault
  | directory fault => fault
  | table fault => fault

/-- The text of the error. -/
def message : TrajectoryError → String
  | directory fault => "I/O error: " ++ fault.message
  | table fault => "CSV write error: " ++ fault.message

end TrajectoryError

/-- The columns of the table of vehicles. -/
def VehicleRow.columns : List String :=
  ["frame", "tick", "vehicle_id", "x", "y", "heading", "speed", "behavior"]

/-- The fields of a row, in the order of the columns. -/
def VehicleRow.fields (row : VehicleRow) : List String :=
  [toString row.frame.toNat, toString row.tick.count.toNat, toString row.vehicle.index,
    Number.text row.x, Number.text row.y, Number.text row.heading, Number.text row.speed,
    row.behavior]

/-- The columns of the table of frames. -/
def FrameSummary.columns : List String :=
  ["frame", "tick", "elapsed_simulated_secs", "total_simulated_secs", "vehicle_count", "mean_speed"]

/-- The fields of a row, in the order of the columns. -/
def FrameSummary.fields (row : FrameSummary) : List String :=
  [toString row.frame.toNat, toString row.tick.count.toNat, Number.text row.elapsed,
    Number.text row.total, toString row.vehicleCount.toNat, Number.text row.meanSpeed]

/-- The text of both tables so far. -/
structure TrajectoryTables where
  vehicles : String := Table.writeRecord VehicleRow.columns
  summaries : String := Table.writeRecord FrameSummary.columns
deriving DecidableEq, Inhabited

namespace TrajectoryTables

/-- The tables with more vehicles. -/
def addVehicles (tables : TrajectoryTables) (rows : List VehicleRow) : TrajectoryTables :=
  { tables with
    vehicles := rows.foldl (fun text row => text ++ Table.writeRecord row.fields) tables.vehicles }

/-- The tables with one more frame. -/
def addSummary (tables : TrajectoryTables) (row : FrameSummary) : TrajectoryTables :=
  { tables with summaries := tables.summaries ++ Table.writeRecord row.fields }

/-- Writing into the tables. Nothing is held back, so there is nothing to finish. -/
def sink (ε : Type) : Sink TrajectoryTables ε where
  writeVehicles rows tables := (none, tables.addVehicles rows)
  writeSummary row tables := (none, tables.addSummary row)
  finish tables := (none, tables)

/-- The name of the table of vehicles. -/
def vehiclesName : String := "vehicle_snapshots.csv"

/-- The name of the table of frames. -/
def summariesName : String := "frame_summaries.csv"

/-- The disk with the tables in a directory that is there. What was written before a failure
stays. -/
def save (tables : TrajectoryTables) (directory : String) (disk : Files.Disk) :
    Except FileFault Unit × Files.Disk :=
  match disk.write (Path.join directory vehiclesName) tables.vehicles.toUTF8.toList with
  | .error fault => (.error fault, disk)
  | .ok disk =>
    match disk.write (Path.join directory summariesName) tables.summaries.toUTF8.toList with
    | .error fault => (.error fault, disk)
    | .ok disk => (.ok (), disk)

/-- New tables in a directory, which is made if it is missing. -/
def create (directory : String) (disk : Files.Disk) :
    Except TrajectoryError TrajectoryTables × Files.Disk :=
  match disk.createDirectory directory with
  | .error fault => (.error (.directory fault), disk)
  | .ok disk =>
    match save {} directory disk with
    | (.error fault, disk) => (.error (.table fault), disk)
    | (.ok _, disk) => (.ok {}, disk)

end TrajectoryTables

end Phototaxis
