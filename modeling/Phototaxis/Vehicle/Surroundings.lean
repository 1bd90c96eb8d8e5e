import Phototaxis.Vehicle.Basic

/-!
# What a vehicle sees

In each tick a vehicle looks once at its peers. It counts those in sight, and sums
up how far they are off, how fast they move, and how hard the close ones push it
away. A leader among them pulls far harder than a follower.

The first two sums are divided by the number of peers; the push is not.
-/

namespace Phototaxis

/-- What a vehicle learns from one look at its peers. -/
structure Surroundings where
  /-- The number of peers in sight. -/
  count : Nat := 0
  /-- The mean weighted offset to the peers. -/
  cohesion : Vector2 := .zero
  /-- The mean velocity of the peers. -/
  alignment : Vector2 := .zero
  /-- The sum of the pushes away from close peers. -/
  repulsion : Vector2 := .zero
deriving Inhabited

namespace Surroundings

/-- A peer closer than this is the vehicle itself. -/
def selfDistance : Float := 0.01

/-- A peer farther away than this is not seen. -/
def sight : Float := 20.0

/-- A peer closer than this pushes the vehicle away. -/
def pushDistance : Float := 4.0

/-- The least distance by which a push is divided. -/
def minDistance : Float := 0.1

/-- The divisor of every peer's offset. -/
def pullDivisor : Float := 4.0

/-- The factor of a leader's offset, on top of the pull of every peer. -/
def leaderPull : Float := 10.0

/-- The push from a peer at a given offset: nothing at or beyond the push distance, else against the
offset with the inverse square of the distance. -/
def push (offset : Vector2) : Vector2 :=
  let distance := offset.lengthAtLeast minDistance
  if offset.length ≥ pushDistance then .zero else -(offset / (distance * distance))

/-- The pull so far with that of a peer at a given offset. -/
def addPull (pull offset : Vector2) (peer : Vehicle) : Vector2 :=
  let pulled := pull + offset / pullDivisor
  if peer.behavior.isLeader then pulled + offset * leaderPull else pulled

/-- The sums with one more peer. A peer that is the vehicle itself, or out of sight, changes
nothing. -/
def see (me : Vehicle) (seen : Surroundings) (peer : Vehicle) : Surroundings :=
  let offset := peer.position - me.position
  let distance := offset.length
  if distance < selfDistance || distance > sight then seen
  else
    { count := seen.count + 1
      cohesion := addPull seen.cohesion offset peer
      alignment := seen.alignment + peer.velocity
      repulsion := seen.repulsion + push offset }

/-- The sums with pull and velocity divided by the number of peers, if there are any. -/
def average (seen : Surroundings) : Surroundings :=
  if seen.count = 0 then seen
  else
    { seen with
      cohesion := seen.cohesion / Float.ofNat seen.count
      alignment := seen.alignment / Float.ofNat seen.count }

/-- What `me` sees of the peers, which may include itself. -/
def around (me : Vehicle) (peers : List Vehicle) : Surroundings :=
  (peers.foldl (see me) {}).average

end Surroundings

end Phototaxis
