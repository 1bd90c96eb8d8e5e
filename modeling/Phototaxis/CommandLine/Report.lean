import Phototaxis.CommandLine.Options
import Phototaxis.Picture.Scene
import Phototaxis.Scenario.Error
import Phototaxis.Schedule.Basic
import Phototaxis.Trajectory.Tables

/-!
# Reports

A run ends with a report of what was simulated, or with a failure: what was being
done, and a chain of causes, each the reason of the one before it.
-/

namespace Phototaxis

/-- Why a run failed. -/
inductive RunFailure where
  | runLength (error : RunLengthError)
  | loading (path : String) (error : ScenarioError)
  | building (error : ScenarioError)
  | schedule (error : ScheduleError)
  | output (directory : String) (error : TrajectoryError)

namespace RunFailure

/-- What failed. -/
def context : RunFailure → String
  | runLength error => error.message
  | loading path _ => "loading scenario file " ++ path
  | building _ => "building scenario"
  | schedule error => error.message
  | output directory _ => "creating output directory " ++ directory

/-- Why it failed, the nearest cause first. -/
def causes : RunFailure → List String
  | runLength _ => []
  | loading _ error => error.message :: error.source?.toList
  | building error => error.message :: error.source?.toList
  | schedule _ => []
  | output _ error => [error.message, error.fault.message]

/-- A list of causes with their numbers. -/
def numbered (causes : List String) : List String :=
  causes.zipIdx.map fun (cause, i) => "    " ++ toString i ++ ": " ++ cause

/-- The lines below the context. A cause that stands alone has no number. -/
def causeLines : List String → List String
  | [] => []
  | [cause] => ["", "Caused by:", "    " ++ cause]
  | causes => "" :: "Caused by:" :: numbered causes

/-- The lines of the failure. -/
def lines (failure : RunFailure) : List String :=
  ("Error: " ++ failure.context) :: causeLines failure.causes

end RunFailure

/-- What a run has come to. -/
structure RunReport where
  time : SimulatedTime
  scene : Scene
  /-- The real time of the run. -/
  wall : Duration

namespace RunReport

/-- The number of vehicles that are listed. -/
def listed : Nat := 5

/-- The line of a vehicle. -/
def vehicleLine (v : VehiclePicture) : String :=
  "    " ++ padRight 14 v.id.text ++ " pos=(" ++ padLeft 8 (Number.fixed 3 v.position.x) ++ ", "
    ++ padLeft 8 (Number.fixed 3 v.position.y) ++ ")  heading="
    ++ padLeft 6 (Number.fixed 1 v.shownDegrees) ++ "°"

/-- The lines of the vehicles: the first ones, and how many more there are. -/
def vehicleLines (vehicles : List VehiclePicture) : List String :=
  let first := (vehicles.take listed).map vehicleLine
  if vehicles.length ≤ listed then first
  else first ++ ["    … " ++ toString (vehicles.length - listed) ++ " more"]

/-- The lines of the report. -/
def lines (report : RunReport) : List String :=
  [ "",
    "=== Run complete ===",
    "  Wall time      : " ++ Number.fixed 3 report.wall.seconds ++ " s",
    "  Ticks          : " ++ toString report.time.tick.count.toNat,
    "  Simulated time : " ++ Number.fixed 3 report.time.seconds ++ " s",
    "  Frames         : " ++ toString report.scene.frames.toNat,
    "  Lights         : " ++ toString report.scene.lights.length,
    "  Vehicles       : " ++ toString report.scene.vehicles.length ]
    ++ vehicleLines report.scene.vehicles

end RunReport

end Phototaxis
