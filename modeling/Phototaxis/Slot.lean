/-!
# Typed slot numbers

A vehicle is addressed by its slot in the population and a light by its slot in the
field. Both numbers are 32-bit words; the type says which of the two a number
counts. Numbering the items of a sequence keeps the low 32 bits of the position.
-/

namespace Phototaxis

/-- What a slot holds. -/
inductive SlotKind where
  | vehicle
  | light
deriving DecidableEq

/-- The name under which the slots of a kind are shown. -/
def SlotKind.label : SlotKind → String
  | vehicle => "VehicleId"
  | light => "LightId"

/-- The number of a slot of one kind. -/
structure SlotId (kind : SlotKind) where
  number : UInt32
deriving DecidableEq, Inhabited

/-- The slot of a vehicle. -/
abbrev VehicleId := SlotId .vehicle

/-- The slot of a light. -/
abbrev LightId := SlotId .light

/-- A position that is no slot number because it needs more than 32 bits. -/
structure SlotRangeError where
  position : Nat

/-- The text of the error. -/
def SlotRangeError.message (_ : SlotRangeError) : String :=
  "number too large to fit in target type"

namespace SlotId

variable {kind : SlotKind}

/-- The position that the slot number stands for. -/
def index (id : SlotId kind) : Nat := id.number.toNat

/-- The slot at a position, if its number fits. -/
def ofIndex (position : Nat) : Except SlotRangeError (SlotId kind) :=
  if position < UInt32.size then .ok ⟨UInt32.ofNat position⟩ else .error ⟨position⟩

/-- The slot number that the item at a position is given: the low 32 bits of the position. -/
def numbering (position : Nat) : SlotId kind := ⟨UInt32.ofNat position⟩

/-- The text of a slot number. -/
def text (id : SlotId kind) : String := kind.label ++ "(" ++ toString id.number.toNat ++ ")"

end SlotId

end Phototaxis
