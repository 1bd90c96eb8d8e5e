import Phototaxis.Main
import Phototaxis.Proofs.Flock.Leaders
import Phototaxis.Proofs.Flock.Locality
import Phototaxis.Proofs.Flock.WellFormed
import Phototaxis.Proofs.Picture.History
import Phototaxis.Proofs.Scenario.Calls
import Phototaxis.Proofs.Scenario.Finite
import Phototaxis.Proofs.Scenario.Generation
import Phototaxis.Proofs.Scenario.Unreadable
import Phototaxis.Proofs.Schedule.Cadence
import Phototaxis.Proofs.Schedule.Consumers
import Phototaxis.Proofs.Schedule.Gaps
import Phototaxis.Proofs.Schedule.Onlookers
import Phototaxis.Proofs.Schedule.Protocol
import Phototaxis.Proofs.Schedule.RealTime
import Phototaxis.Proofs.Time.HandClock
import Phototaxis.Proofs.Trajectory.Failures
import Phototaxis.Proofs.Trajectory.Files
import Phototaxis.Proofs.Trajectory.Reload
import Phototaxis.Proofs.Flock.Pruning
import Phototaxis.Proofs.Slot
import Phototaxis.Proofs.Number.Meaning
import Phototaxis.Proofs.Vehicle.Turning
import Phototaxis.Proofs.Number.Grammar
import Phototaxis.Proofs.Text.Words
import Phototaxis.Proofs.Schedule.Invariants
import Phototaxis.Proofs.Picture.Pulse
import Phototaxis.Proofs.Table.Names
import Phototaxis.Proofs.Scenario.Headers
import Phototaxis.Proofs.Scenario.Rearrangement
import Phototaxis.Proofs.Table.Lines
import Phototaxis.Proofs.Scenario.LineNumbers
import Phototaxis.Proofs.Picture.Heading
import Phototaxis.Proofs.Vehicle.Pairs
import Phototaxis.Proofs.Light.Mirrored
