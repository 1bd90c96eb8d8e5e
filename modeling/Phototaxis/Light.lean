import Phototaxis.Geometry.Vector
import Phototaxis.Slot

/-!
# Lights

A light is a point with a signed intensity. Its intensity falls off with the square
of the distance, but within distance one it is the raw intensity, so that a close
pass meets no unbounded value. A light of negative intensity is dark: it takes away
from the field and its pull is reversed.

## The field of all lights

The lights of a world act by superposition: the field at a point is the sum over
the lights, taken in slot order. The sum of intensities starts at negative zero,
which is neutral for every summand, so a field without lights has the intensity
`-0`; the sum of the steering vectors starts at the origin.
-/

namespace Phototaxis

/-- A point light. -/
structure Light where
  position : Vector2
  intensity : Float
deriving Inhabited

namespace Light

/-- The squared distance below which the raw intensity is taken. -/
def nearFieldSquared : Float := 1.0

/-- The intensity of the light at a point. -/
def intensityAt (light : Light) (point : Vector2) : Float :=
  let distanceSquared := (point - light.position).lengthSquared
  if distanceSquared < nearFieldSquared then light.intensity
  else light.intensity / distanceSquared

/-- The least distance by which a steering vector is divided. -/
def minDistance : Float := 0.1

/-- What the light adds to the steering vector at a point: the direction away from the light, scaled
by its intensity there. -/
def steeringAt (light : Light) (point : Vector2) : Vector2 :=
  let offset := point - light.position
  offset / offset.lengthAtLeast minDistance * light.intensityAt point

end Light

/-- All lights of a world, in slot order. -/
structure LightField where
  lights : Array Light
deriving Inhabited

namespace LightField

/-- The field without lights. -/
def empty : LightField := ⟨#[]⟩

/-- The field of the lights of a list. -/
def ofList (lights : List Light) : LightField := ⟨lights.toArray⟩

/-- The number of lights. -/
def size (field : LightField) : Nat := field.lights.size

/-- Whether there is no light. -/
def isEmpty (field : LightField) : Bool := field.lights.isEmpty

/-- The light in a slot. -/
def get? (field : LightField) (id : LightId) : Option Light := field.lights[id.index]?

/-- The field with the light in a slot changed. -/
def modify (field : LightField) (id : LightId) (change : Light → Light) : LightField :=
  ⟨field.lights.modify id.index change⟩

/-- The lights with their slot numbers. -/
def numbered (field : LightField) : List (LightId × Light) :=
  field.lights.toList.zipIdx.map fun (light, i) => (.numbering i, light)

/-- The intensity of the field at a point. -/
def intensityAt (field : LightField) (point : Vector2) : Float :=
  field.lights.foldl (fun sum light => sum + light.intensityAt point) (-0.0)

/-- The steering vector of the field at a point. It follows the lights by a rule of thumb and is not
the derivative of the intensity. -/
def steeringAt (field : LightField) (point : Vector2) : Vector2 :=
  field.lights.foldl (fun sum light => sum + light.steeringAt point) .zero

end LightField

end Phototaxis
