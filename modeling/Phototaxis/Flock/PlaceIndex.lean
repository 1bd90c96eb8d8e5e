import Phototaxis.Fault
import Phototaxis.Flock.PlaceGroups

/-!
# Indexing places

An index answers which of its places lie within a radius around a center. It looks
into a group of places only if the bounds of the group are that near, and into the
groups in it likewise; a place is found if it is near and no group around it is shut.

Where every coordinate is a number and the center is finite, no group is farther away
than a place in it, so that no near place is missed. It is otherwise with undefined
places: a place whose coordinate is no number spoils the bounds of its group, and near
places may be missed; and more places than fit into one group cannot be put in order at
all if one of them is undefined.

A distance that is no number is within no radius, so a place or a center with an
undefined coordinate is never found.
-/

namespace Phototaxis

/-- The places of one generation, in slot order, and their groups. -/
structure PlaceIndex where
  places : Array Vector2
  groups : List PlaceGroup
  groups_eq : groups = PlaceGroup.all places.toList

namespace PlaceIndex

/-- The index of some places, once they are in order. -/
def ofOrdered (places : Array Vector2) : PlaceIndex := ⟨places, PlaceGroup.all places.toList, rfl⟩

/-- The index of some places, unless they have to be put in order and have none. -/
def ofPlaces (places : Array Vector2) : Except Fault PlaceIndex :=
  if PlaceGroup.capacity < places.size && !places.all (·.isDefined) then .error .unorderedPlaces
  else .ok (ofOrdered places)

/-- The number of places. -/
def size (index : PlaceIndex) : Nat := index.places.size

/-- Whether there is no place. -/
def isEmpty (index : PlaceIndex) : Bool := index.places.isEmpty

/-- The radius that is searched in place of a given one. -/
def widened (radius : Float) : Float := radius * (1.0 + 1e-9)

/-- Whether a place lies within a radius around a center. -/
def within (center : Vector2) (radius : Float) (place : Vector2) : Bool :=
  (place - center).lengthSquared ≤ radius * radius

/-- The groups that are farther than a radius away from a center. -/
def shutGroups (index : PlaceIndex) (center : Vector2) (radius : Float) : List PlaceGroup :=
  index.groups.filter fun group => !(group.bounds.distanceSquared center ≤ radius * radius)

/-- The slots of the places around a center, in ascending order. -/
def slotsAround (index : PlaceIndex) (center : Vector2) (radius : Float) : List Nat :=
  let shut := index.shutGroups center (widened radius)
  (index.places.toList.zipIdx.filter fun (place, slot) =>
    within center (widened radius) place && !shut.any (·.slots.contains slot)).map (·.2)

end PlaceIndex

end Phototaxis
