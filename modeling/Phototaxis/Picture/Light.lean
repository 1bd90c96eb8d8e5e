import Phototaxis.Light

/-!
# Pictures of lights

A light is drawn in a color that depends on its intensity, with three halos that
pulse around it. A pulse has a phase between zero and one, which the simulated time
moves forward; past one it starts again at zero. The halos of a bright light expand
and fade, those of a dark light contract and grow stronger.

Editing a light moves its picture and changes its color, but does not reset the
pulse.
-/

namespace Phototaxis

namespace Picture

/-- The logistic function. -/
def logistic (x : Float) : Float := 1.0 / (1.0 + (-x).exp)

/-- A color by its parts between zero and one. -/
structure Color where
  red : Float
  green : Float
  blue : Float
  alpha : Float
deriving Inhabited

/-- The color of an intensity: red grows with it and blue with its negation. -/
def Color.ofIntensity (intensity : Float) : Color :=
  ⟨logistic intensity, 0.2, logistic (-intensity), 0.2⟩

/-- A ring around a light. -/
structure Halo where
  radius : Float
  alpha : Float
deriving Inhabited

namespace Halo

/-- The radius of a halo at its greatest. -/
def maxRadius : Float := 0.5

/-- The phase behind which a pulse starts again. -/
def period : Float := 1.0

/-- The halo of a light in a phase. -/
def ofPhase (intensity phase : Float) : Halo :=
  let t := phase / period
  if intensity > 0.0 then ⟨t * maxRadius, 1.0 - t⟩ else ⟨(1.0 - t) * maxRadius, t⟩

end Halo

end Picture

/-- The picture of a light. -/
structure LightPicture where
  position : Vector2
  intensity : Float
  color : Picture.Color
  phases : Vector Float 3
deriving Inhabited

namespace LightPicture

/-- The phases that the pulses start in. -/
def initialPhases : Vector Float 3 := #v[0.0, 0.33, 0.66]

/-- The picture of a light that is seen for the first time. -/
def ofLight (light : Light) : LightPicture :=
  ⟨light.position, light.intensity, .ofIntensity light.intensity, initialPhases⟩

/-- The picture after the light may have been edited. -/
def update (picture : LightPicture) (light : Light) : LightPicture :=
  if picture.intensity == light.intensity then { picture with position := light.position }
  else
    { picture with
      position := light.position
      intensity := light.intensity
      color := .ofIntensity light.intensity }

/-- A phase moved forward. -/
def advancePhase (elapsed phase : Float) : Float :=
  let moved := phase + elapsed
  if moved > Picture.Halo.period then 0.0 else moved

/-- The picture after so many simulated seconds. -/
def advance (picture : LightPicture) (elapsed : Float) : LightPicture :=
  { picture with phases := picture.phases.map (advancePhase elapsed) }

/-- The halos, one for each phase. -/
def halos (picture : LightPicture) : Vector Picture.Halo 3 :=
  picture.phases.map (Picture.Halo.ofPhase picture.intensity)

end LightPicture

end Phototaxis
