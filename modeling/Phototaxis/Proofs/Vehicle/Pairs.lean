import Mathlib
import Phototaxis.Proofs.Geometry.Opposite
import Phototaxis.Proofs.Vehicle.Overflow

/-!
# Two vehicles that see each other

Of two vehicles each sees the other at the opposite offset. The offsets are of one length, so either
both are in sight of each other or neither is, and a push that is cut off is cut off for both.
What is divided is opposite and what it is divided by is the same, so both are pushed and pulled
equally hard, away from each other and towards each other. This is so in all bits, except that a
zero may have either sign, and however much is lost in rounding on the way.

Only the pull depends on who is seen: a leader pulls harder. It is opposite if both vehicles are
leaders or neither is.

Finite places may be so far apart that the offset overflows. Then the distance has overflowed as
well, which is out of sight.
-/

namespace Phototaxis

open Number

namespace Surroundings

variable {v w : Vector2} {a b : Vehicle}

theorem opposite_zero : Vector2.zero == -Vector2.zero := by
  decide

/-- **Opposite offsets make opposite pushes**, of overflows too: these are beyond the distance at
which a push is cut off. -/
theorem opposite_push (h : v == -w) : push v == -push w := by
  have hdefined := Vector2.isDefined_of_opposite h
  by_cases hfar : v.length ≥ pushDistance
  · have hfar' : w.length ≥ pushDistance := Vector2.length_of_opposite h ▸ hfar
    unfold push
    rw [if_pos hfar, if_pos hfar']
    exact opposite_zero
  · -- only what is in sight pushes, and there nothing overflows
    have hfar' : ¬ w.length ≥ pushDistance := Vector2.length_of_opposite h ▸ hfar
    have hnear : ¬ sight < v.length := fun hsight =>
      hfar (le_trans (by decide) (le_of_lt hsight))
    have hfinite := (within_push (Vector2.within_of_length hdefined hnear) hnear).isFinite
    have hpositive := lt_of_lt_of_le (by decide : 0.0 < minDistance * minDistance)
      (floor_le_divisor hdefined hnear)
    unfold push at hfinite ⊢
    rw [if_neg hfar] at hfinite
    rw [if_neg hfar, if_neg hfar', ← Vector2.lengthAtLeast_of_opposite h]
    refine Vector2.opposite_neg (Vector2.opposite_div h hpositive ?_)
    exact (Vector2.isFinite_neg _).symm.trans hfinite

/-- Vehicles of one kind pull oppositely at opposite offsets. -/
theorem opposite_addPull (h : v == -w) (hkind : a.behavior.isLeader = b.behavior.isLeader)
    (hfinite : (addPull .zero v b).isFinite) : addPull .zero v b == -addPull .zero w a := by
  have hpulled : (Vector2.zero + v / pullDivisor).isFinite →
      Vector2.zero + v / pullDivisor == -(Vector2.zero + w / pullDivisor) := fun hsum =>
    Vector2.opposite_add opposite_zero
      (Vector2.opposite_div h (by decide) (Vector2.isFinite_of_add hsum).2) hsum
  unfold addPull at hfinite ⊢
  rw [hkind]
  dsimp only at hfinite ⊢
  split
  · rename_i hleader
    rw [if_pos (hkind ▸ hleader)] at hfinite
    obtain ⟨hsum, hproduct⟩ := Vector2.isFinite_of_add hfinite
    exact Vector2.opposite_add (hpulled hsum)
      (Vector2.opposite_mul h (by decide) hproduct) hfinite
  · rename_i hfollower
    rw [if_neg (hkind ▸ hfollower)] at hfinite
    exact hpulled hfinite

/-! ## A look at one peer -/

/-- What is seen of a peer alone. -/
theorem around_singleton (a b : Vehicle) : around a [b] =
    if (b.position - a.position).length < selfDistance || (b.position - a.position).length > sight
    then {}
    else
      { count := 1
        cohesion := addPull .zero (b.position - a.position) b / Float.ofNat 1
        alignment := (.zero + b.velocity) / Float.ofNat 1
        repulsion := .zero + push (b.position - a.position) } := by
  show (see a {} b).average = _
  unfold see
  dsimp only
  split <;> rfl

/-- **Interaction in pairs is symmetric.** Of two vehicles at finite places each sees the other or
neither does, their pushes are opposite, and so are their pulls if both are leaders or neither is.
The push turns round with every offset of numbers, infinite ones included. -/
theorem pair_symmetric (a b : Vehicle) (ha : a.position.isFinite) (hb : b.position.isFinite) :
    (around a [b]).count = (around b [a]).count ∧
      (around a [b]).repulsion == -(around b [a]).repulsion ∧
      (a.behavior.isLeader = b.behavior.isLeader →
        (around a [b]).cohesion == -(around b [a]).cohesion) ∧
      ∀ r : Vector2, r.isDefined → push (-r) == -push r := by
  have hoffset := Vector2.opposite_sub hb ha
  have hturned : ∀ r : Vector2, r.isDefined → push (-r) == -push r :=
    fun r hr => opposite_push (Vector2.opposite_self hr)
  -- what is seen of finite places is finite, so no sum or quotient below overflows
  have hmoderate := moderate_around ha (List.forall_mem_singleton.mpr hb)
  rw [around_singleton a b] at hmoderate ⊢
  rw [around_singleton b a, ← Vector2.length_of_opposite hoffset]
  split
  · exact ⟨rfl, opposite_zero, fun _ => opposite_zero, hturned⟩
  · rename_i hseen
    rw [if_neg hseen] at hmoderate
    obtain ⟨hcohesion, hrepulsion⟩ := hmoderate
    refine ⟨rfl, ?_, fun hkind => ?_, hturned⟩
    · exact Vector2.opposite_add opposite_zero (opposite_push hoffset) hrepulsion.isFinite
    · have hpull := Vector2.isFinite_of_div hcohesion.isFinite
      exact Vector2.opposite_div (opposite_addPull hoffset hkind hpull) (by decide)
        hcohesion.isFinite

/-- Two leaders, near enough to push each other. -/
theorem pair_symmetric_leaders :
    let a : Vehicle := ⟨⟨0.1, 0.2⟩, 0.0, 1.0, .leaderClockwise⟩
    let b : Vehicle := ⟨⟨0.3, 1.7⟩, 0.0, 1.0, .leaderCounterClockwise⟩
    (around a [b]).count = 1 ∧ ((around a [b]).repulsion == .zero) = false ∧
      (around a [b]).repulsion == -(around b [a]).repulsion ∧
      (around a [b]).cohesion == -(around b [a]).cohesion := by
  obtain ⟨-, hrepulsion, hcohesion, -⟩ :=
    pair_symmetric ⟨⟨0.1, 0.2⟩, 0.0, 1.0, .leaderClockwise⟩
      ⟨⟨0.3, 1.7⟩, 0.0, 1.0, .leaderCounterClockwise⟩ (by decide) (by decide)
  exact ⟨by decide +kernel, by decide +kernel, hrepulsion, hcohesion rfl⟩

end Surroundings

end Phototaxis
