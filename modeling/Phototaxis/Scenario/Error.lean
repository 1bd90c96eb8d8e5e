import Phototaxis.Fault
import Phototaxis.Files.Disk
import Phototaxis.Table.Columns
import Phototaxis.Toml.Document
import Phototaxis.Vehicle.Behavior
import Phototaxis.Number.Text

/-!
# Why a world cannot be assembled

An error names its cause: the record or the row and what is wrong with it, the name
that is no behavior, the file that cannot be read, the table or the scenario file
that is not well formed. The wording is kept apart, in one function for each kind.

A fault on the way, such as a vehicle that its constructor refuses, ends the assembly as
well. It names no input, since none can be blamed for it.
-/

namespace Phototaxis

/-- What is wrong with a record. -/
inductive RecordFault where
  | fieldCount (expected found : Nat)
  | notNumber (name field : String)
  | notFinite (name field : String)
  | negativeSpeed (speed : Float)

/-- The text of a record's fault. -/
def RecordFault.message : RecordFault → String
  | fieldCount expected found =>
    "expected " ++ toString expected ++ " whitespace-separated fields, found " ++ toString found
  | notNumber name field => name ++ ": " ++ Text.quoted field ++ " is not a number"
  | notFinite name field => name ++ ": " ++ Text.quoted field ++ " is not finite"
  | negativeSpeed speed => "speed " ++ Number.text speed ++ " is negative"

/-- What is wrong with a scenario file. -/
inductive ScenarioFileFault where
  | malformed
  | unknownKey (key : String)
  | wrongValue (key : String)

/-- The text of a scenario file's fault. -/
def ScenarioFileFault.message : ScenarioFileFault → String
  | malformed => "not a well-formed document"
  | unknownKey key => "unknown key " ++ Text.quoted key
  | wrongValue key => "wrong value for key " ++ Text.quoted key

/-- Why a world cannot be assembled. -/
inductive ScenarioError where
  /-- A record, or the row of a table under its label, is refused. -/
  | record (record : String) (fault : RecordFault)
  | behavior (error : UnknownBehavior)
  | unreadable (fault : FileFault)
  | table (fault : Table.Fault)
  | file (fault : ScenarioFileFault)
  /-- An operation was misused on the way. -/
  | misuse (fault : Fault)

namespace ScenarioError

/-- The text of the error. -/
def message : ScenarioError → String
  | .record label fault => "malformed record " ++ Text.quoted label ++ ": " ++ fault.message
  | behavior error => error.message
  | unreadable fault => "I/O error: " ++ fault.message
  | table fault => "CSV error: " ++ fault.message
  | file fault => "scenario file error: " ++ fault.message
  | misuse fault => fault.message

/-- The text of what lies behind the error, if that is told apart from the error itself. -/
def source? : ScenarioError → Option String
  | record .. => none
  | behavior _ => none
  | unreadable fault => some fault.message
  | table fault => some fault.message
  | file fault => some fault.message
  | misuse _ => none

end ScenarioError

end Phototaxis
