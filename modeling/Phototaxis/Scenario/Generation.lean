import Phototaxis.Geometry.Angle
import Phototaxis.Light
import Phototaxis.Random.Normal
import Phototaxis.Random.Uniform
import Phototaxis.Vehicle.Basic

/-!
# Generated populations

Lights and vehicles are scattered around the origin, each axis by a normal
distribution whose deviation grows with the square root of their number, so that
the density stays the same. A light has an intensity between one and five. A
vehicle is a follower with any heading and a speed of at most three.

The fields of an item are drawn in their own order and the items one after the
other, so a count fixes how many numbers are taken from the generator.
-/

namespace Phototaxis

namespace Light

/-- The deviation of the position of each of `n` lights. -/
def spread (n : Nat) : Float := 2.0 * (Float.ofNat n).sqrt

/-- The intensities of generated lights. -/
def intensities : ClosedRange := ⟨1.0, 5.0⟩

/-- A light scattered with a given deviation. -/
def scattered (deviation : Float) : Draw Light := do
  let x ← Draw.normal deviation
  let y ← Draw.normal deviation
  let intensity ← intensities.draw
  return ⟨⟨x, y⟩, intensity⟩

/-- A population of `n` lights. -/
def generate (n : Nat) : Draw (List Light) := Draw.replicate n (scattered (spread n))

end Light

namespace Vehicle

/-- The deviation of the position of each of `n` vehicles. -/
def spread (n : Nat) : Float := 1.5 * (Float.ofNat n).sqrt

/-- The headings of generated vehicles. -/
def headings : HalfOpenRange := ⟨0.0, Angle.whole⟩

/-- The speeds of generated vehicles. -/
def speeds : ClosedRange := ⟨0.0, 3.0⟩

/-- A follower scattered with a given deviation, unless the constructor refuses it. -/
def scattered (deviation : Float) : Draw (Except Fault Vehicle) := do
  let x ← Draw.normal deviation
  let y ← Draw.normal deviation
  let heading ← headings.draw
  let speed ← speeds.draw
  return create ⟨x, y⟩ heading speed .follower

/-- A population of `n` followers, unless one of them is refused. -/
def generate (n : Nat) : Draw (Except Fault (List Vehicle)) := do
  let vehicles ← Draw.replicate n (scattered (spread n))
  return vehicles.mapM id

end Vehicle

end Phototaxis
