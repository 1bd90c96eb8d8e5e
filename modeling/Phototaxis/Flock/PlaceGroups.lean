import Phototaxis.Geometry.Bounds

/-!
# Grouping places

To search among many places, they are grouped by nearness: a group of more than six
places is cut into slabs of equal size by height, each slab into slabs by width, and
each of these is a group in turn. A group of up to six places is not cut. All groups
are kept, the wider ones before the ones in them; a group is known by the slots of
its places and by its bounds.

The number of slabs along each axis is the least whose square gives every part of
the group room for as many places as a tree with six branches can hold.
-/

namespace Phototaxis

/-- Some slots, and the bounds of their places. -/
structure PlaceGroup where
  slots : List Nat
  bounds : Bounds

namespace PlaceGroup

/-- A place and its slot. -/
abbrev Entry := Vector2 × Nat

/-- The group of some places. -/
def ofEntries (entries : List Entry) : PlaceGroup :=
  ⟨entries.map (·.2), .ofPlaces (entries.map (·.1))⟩

/-- The number of places in a group that is not cut, and of the groups into which one is cut. -/
def capacity : Nat := 6

/-- The quotient, rounded up. -/
def quotientUp (a b : Nat) : Nat := (a + b - 1) / b

/-- The greatest of the numbers `room`, `6 · room`, `36 · room`, … that is below a number of places;
the first argument bounds how many are tried. -/
def roomFrom (count : Nat) : Nat → Nat → Nat
  | 0, room => room
  | tries + 1, room =>
    if room * capacity < count then roomFrom count tries (room * capacity) else room

/-- The number of slabs along each axis for so many places. It is two or three if there are more
than six of them. -/
def slabCount (count : Nat) : Nat :=
  let parts := quotientUp count (roomFrom count count 1)
  if parts ≤ 1 then 1 else if parts ≤ 4 then 2 else 3

/-- The position of the first of the greatest coordinates. -/
def greatestAt (coordinates : List Float) : Nat :=
  match coordinates.zipIdx with
  | [] => 0
  | first :: rest => (rest.foldl (fun best next => if best.1 < next.1 then next else best) first).2

/-- The so many lowest places along an axis, and the others. Places with equal coordinates keep
their order; but if only one place is to be left over, the first of the greatest changes places with
the last of all. -/
def cutLowest (axis : Vector2 → Float) (size : Nat) (entries : List Entry) :
    List Entry × List Entry :=
  if entries.length == size + 1 then
    let at' := greatestAt (entries.map fun entry => axis entry.1)
    match entries[at']?, entries.getLast? with
    | some greatest, some last => ((entries.set at' last).dropLast, [greatest])
    | _, _ => (entries, [])
  else
    let sorted := entries.mergeSort fun a b => !(axis b.1 < axis a.1)
    (sorted.take size, sorted.drop size)

/-- The slabs of a size along an axis, the lowest first; the number bounds how many are cut off. -/
def slabs (axis : Vector2 → Float) (size : Nat) : Nat → List Entry → List (List Entry)
  | 0, entries => [entries]
  | cuts + 1, entries =>
    if entries.length ≤ size then [entries]
    else
      let (lowest, others) := cutLowest axis size entries
      lowest :: slabs axis size cuts others

/-- The slabs along an axis, if there shall be so many. -/
def slabsOf (axis : Vector2 → Float) (count : Nat) (entries : List Entry) : List (List Entry) :=
  slabs axis (quotientUp entries.length count) entries.length entries

/-- A group and all groups in it; the number bounds how often a group is cut. -/
def within : Nat → List Entry → List PlaceGroup
  | 0, entries => [ofEntries entries]
  | cuts + 1, entries =>
    ofEntries entries ::
      if entries.length ≤ capacity then []
      else
        let count := slabCount entries.length
        ((slabsOf (·.y) count entries).flatMap (slabsOf (·.x) count)).flatMap (within cuts)

/-- All groups of some places, which are given in slot order. -/
def all (places : List Vector2) : List PlaceGroup := within places.length places.zipIdx

end PlaceGroup

end Phototaxis
