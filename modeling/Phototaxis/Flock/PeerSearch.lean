import Phototaxis.Flock.PlaceIndex
import Phototaxis.Vehicle.Surroundings

/-!
# Searching peers

What a vehicle sees is decided by the distance of every peer that it looks at. A
search may leave out peers beforehand, as long as it leaves out none that would be
seen. `linear` leaves out nobody. `indexed` looks up the peers around the vehicle in
a `PlaceIndex`; its radius is a little wider than the vehicle's sight, so that
rounding can only add peers. The index is made anew for every generation, and there
is none for a generation without an order.
-/

namespace Phototaxis

/-- How a vehicle finds the peers to look at. -/
inductive PeerSearch where
  | linear
  | indexed
deriving DecidableEq, Repr

namespace PeerSearch

instance : Inhabited PeerSearch := ⟨indexed⟩

/-- The name of the search. -/
def name : PeerSearch → String
  | linear => "Linear"
  | indexed => "Indexed"

/-- The peers that a vehicle of a generation looks at. -/
def peers (search : PeerSearch) (vehicles : Array Vehicle) :
    Except Fault (Vehicle → List Vehicle) :=
  match search with
  | linear =>
    let all := vehicles.toList
    .ok fun _ => all
  | indexed => do
    let index ← PlaceIndex.ofPlaces (vehicles.map (·.position))
    return fun me => (index.slotsAround me.position Surroundings.sight).filterMap (vehicles[·]?)

end PeerSearch

end Phototaxis
