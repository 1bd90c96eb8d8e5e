import Phototaxis.Text.Quoted

/-!
# Behaviors

A vehicle follows the flock, or it leads: a clockwise leader keeps its velocity for
ever, a counter-clockwise one turns it at a constant rate. A behavior lasts as long
as its vehicle.
-/

namespace Phototaxis

/-- How a vehicle chooses its next velocity. -/
inductive Behavior where
  | follower
  | leaderClockwise
  | leaderCounterClockwise
deriving DecidableEq, Repr

/-- A name that names no behavior. -/
structure UnknownBehavior where
  name : String
deriving DecidableEq

/-- The text of the error. -/
def UnknownBehavior.message (e : UnknownBehavior) : String :=
  "unknown vehicle behavior " ++ Text.quoted e.name ++
    ": expected \"follower\", \"master_cw\", or \"master_ccw\""

namespace Behavior

instance : Inhabited Behavior := ⟨follower⟩

/-- Whether the vehicle leads; leaders pull far harder on their neighbors. -/
def isLeader : Behavior → Bool
  | follower => false
  | leaderClockwise => true
  | leaderCounterClockwise => true

/-- The name of the behavior in records and tables. -/
def name : Behavior → String
  | follower => "follower"
  | leaderClockwise => "master_cw"
  | leaderCounterClockwise => "master_ccw"

/-- The behavior with a given name. -/
def ofName (name : String) : Except UnknownBehavior Behavior :=
  if name = "follower" then .ok follower
  else if name = "master_cw" then .ok leaderClockwise
  else if name = "master_ccw" then .ok leaderCounterClockwise
  else .error ⟨name⟩

end Behavior

end Phototaxis
