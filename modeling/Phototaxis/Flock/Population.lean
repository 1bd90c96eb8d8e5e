import Phototaxis.Vehicle.Basic

/-!
# Populations

A population is kept twice: as the current generation, which everybody reads, and as
the next one, which a step writes. `flip` makes the next generation the current one
and the old one the place to write next. Nothing is cleared in between: a slot of
the write target keeps what it held two generations ago until it is overwritten.

A step fills the next generation slot by slot. Each slot is computed from the
current generation alone, so the order of the slots is free.
-/

namespace Phototaxis

/-- Vehicles in a current and a next generation of one size. -/
structure Population where
  /-- The generation that is read. -/
  current : Array Vehicle
  /-- The generation that is written. -/
  next : Array Vehicle
  /-- Whether the two have changed places an odd number of times. -/
  flipped : Bool
  size_eq : next.size = current.size

namespace Population

/-- Both generations hold the given vehicles. -/
def ofArray (vehicles : Array Vehicle) : Population := ⟨vehicles, vehicles, false, rfl⟩

instance : Inhabited Population := ⟨ofArray #[]⟩

/-- The number of slots. -/
def size (p : Population) : Nat := p.current.size

/-- Whether there is no slot. -/
def isEmpty (p : Population) : Bool := p.current.isEmpty

/-- The number of the place that holds the current generation. -/
def side (p : Population) : Nat := if p.flipped then 1 else 0

/-- Puts a vehicle into a slot of the next generation. -/
def write (p : Population) (slot : Nat) (vehicle : Vehicle) : Population :=
  { p with
    next := p.next.setIfInBounds slot vehicle
    size_eq := by rw [Array.size_setIfInBounds, p.size_eq] }

/-- Changes the vehicle in a slot of the current generation. -/
def modify (p : Population) (slot : Nat) (change : Vehicle → Vehicle) : Population :=
  { p with
    current := p.current.modify slot change
    size_eq := by rw [Array.size_modify, p.size_eq] }

/-- The next generation becomes the current one. -/
def flip (p : Population) : Population := ⟨p.next, p.current, !p.flipped, p.size_eq.symm⟩

/-- Writes the successor of the vehicle in a slot. -/
def writeSuccessor (successor : Vehicle → Vehicle) (p : Population) (slot : Nat) : Population :=
  match p.current[slot]? with
  | some vehicle => p.write slot (successor vehicle)
  | none => p

/-- Writes the given slots, one after the other. -/
def fill (p : Population) (successor : Vehicle → Vehicle) (order : List Nat) : Population :=
  order.foldl (writeSuccessor successor) p

/-- Writes every slot and makes the result the current generation. -/
def step (p : Population) (successor : Vehicle → Vehicle) : Population :=
  (p.fill successor (List.range p.size)).flip

end Population

end Phototaxis
