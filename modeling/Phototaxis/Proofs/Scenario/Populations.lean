import Mathlib
import Phototaxis.Proofs.Fault
import Phototaxis.Proofs.Light
import Phototaxis.Proofs.Random.Normal
import Phototaxis.Proofs.Scenario.Records
import Phototaxis.Proofs.Vehicle.Overflow
import Phototaxis.Scenario.Generation

/-!
# What is generated is finite

Generated lights and vehicles are made of numbers that are drawn from ranges and from
normal distributions. Whatever is drawn, they are finite, and no speed is below zero, which
is a matter of rounding (`Draw.Yields`).

The constructor is asked about every generated vehicle, and one that it refuses would leave
no population at all. It refuses none, whatever the number and the state of the generator
(`Vehicle.generate_eq_ok`).
-/

namespace Phototaxis

open Number

/-- **A row of draws yields as many results.** -/
theorem Draw.length_replicate {α : Type} (n : Nat) (draw : Draw α) (g : Generator) :
    ((replicate n draw).run g).1.length = n := by
  induction n generalizing g with
  | zero => rfl
  | succ n ih => exact congrArg Nat.succ (ih _)

/-! ## Single items -/

section Scattered

variable {deviation : Float} (hdeviation : (Draw.normal deviation).Yields (·.isFinite))

include hdeviation

theorem Light.yields_scattered : (scattered deviation).Yields Light.IsFinite := by
  have hrange : intensities.fault? = none := Option.isNone_iff_eq_none.mp (by decide +kernel)
  refine hdeviation.bind fun x hx => hdeviation.bind fun y hy => ?_
  refine (ClosedRange.yields_draw hrange).bind fun intensity hintensity => .pure ?_
  exact ⟨Vector2.isFinite_iff.mpr ⟨hx, hy⟩,
    isFinite_of_between (by decide) (by decide) hintensity.1 hintensity.2⟩

/-- **The constructor accepts every speed that is drawn.** -/
theorem Vehicle.yields_scattered :
    (scattered deviation).Yields fun made => ∃ vehicle, made = .ok vehicle ∧ vehicle.IsFinite := by
  have hheadings : headings.fault? = none := Option.isNone_iff_eq_none.mp (by decide +kernel)
  have hspeeds : speeds.fault? = none := Option.isNone_iff_eq_none.mp (by decide +kernel)
  refine hdeviation.bind fun x hx => hdeviation.bind fun y hy => ?_
  refine (HalfOpenRange.yields_draw hheadings).bind fun heading hheading => ?_
  refine (ClosedRange.yields_draw hspeeds).bind fun speed hspeed => .pure ?_
  refine ⟨_, create_of_nonneg hspeed.1, Vector2.isFinite_iff.mpr ⟨hx, hy⟩, ?_, ?_, hspeed.1⟩
  · exact isFinite_of_between (by decide) (by decide) hheading.1 (le_of_lt hheading.2)
  · exact isFinite_of_between (by decide) (by decide) hspeed.1 hspeed.2

end Scattered

/-! ## Populations -/

theorem Light.yields_generate (n : ℕ) :
    (generate n).Yields fun lights => ∀ light ∈ lights, light.IsFinite :=
  (yields_scattered (Draw.yields_normal_sqrt (by decide +kernel) (by decide +kernel) n)).replicate n

/-- **No generated vehicle is refused**, whatever the number and the state of the generator: there
are as many as there shall be, all of them finite and none slower than zero. -/
theorem Vehicle.generate_eq_ok (n : ℕ) (g : Generator) :
    ∃ vehicles, ((generate n).run g).1 = .ok vehicles ∧ vehicles.length = n ∧
      ∀ vehicle ∈ vehicles, vehicle.IsFinite := by
  have hspread : (Draw.normal (spread n)).Yields (·.isFinite) :=
    Draw.yields_normal_sqrt (by decide +kernel) (by decide +kernel) n
  have hmade := (yields_scattered hspread).replicate n g
  have hcount := Draw.length_replicate n (scattered (spread n)) g
  show ∃ vehicles, ((Draw.replicate n (scattered (spread n))).run g).1.mapM id = .ok vehicles ∧ _
  generalize ((Draw.replicate n (scattered (spread n))).run g).1 = made at hmade hcount
  obtain ⟨vehicles, hvehicles, hfinite⟩ := exists_mapM_eq_ok hmade
  exact ⟨vehicles, hvehicles, (mapM_eq_ok_iff.mp hvehicles).length_eq.symm.trans hcount, hfinite⟩

end Phototaxis
