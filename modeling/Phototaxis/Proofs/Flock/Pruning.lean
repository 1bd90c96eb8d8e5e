import Mathlib
import Phototaxis.Proofs.Flock.SearchAgreement

/-!
# An index prunes without loss

An index is asked for the slots around a vehicle and answers with a list. What the list is
good for depends on three things. It should be in order and name every slot once, since the
sums over the peers are rounded in the order of the list. It should name slots of the
generation only. And it should leave out nobody in sight.

The first two hold of every index and every radius, because the list is cut out of the
numbered places (`PlaceIndex.pairwise_slotsAround`, `PlaceIndex.mem_slotsAround`). The third
needs distances that are numbers: then no group of places shuts out a near one, and what lies
beyond the widened radius is out of sight. So the vehicle sees in the slots of the index
what it sees in the whole generation, bit for bit (`PlaceIndex.prunes_without_loss`).
-/

namespace Phototaxis

open Surroundings (sight)

namespace PlaceIndex

variable {index : PlaceIndex} {center : Vector2} {radius : Float} {slot : ℕ}

/-- The slots of numbered places are in ascending order. -/
theorem pairwise_zipIdx {α : Type} (places : List α) (first : ℕ) :
    (places.zipIdx first).Pairwise fun a b => a.2 < b.2 := by
  induction places generalizing first with
  | nil => exact .nil
  | cons place places ih =>
    rw [List.zipIdx_cons]
    exact .cons (fun _ hentry => List.le_snd_of_mem_zipIdx hentry) (ih (first + 1))

/-- **Slots are found in strictly ascending order**, so none is found twice. -/
theorem pairwise_slotsAround (index : PlaceIndex) (center : Vector2) (radius : Float) :
    (index.slotsAround center radius).Pairwise (· < ·) :=
  List.pairwise_map.mpr ((pairwise_zipIdx _ 0).filter _)

/-- **A slot is found if its place is near and no group around it is shut.** -/
theorem mem_slotsAround : slot ∈ index.slotsAround center radius ↔
    ∃ place, index.places[slot]? = some place ∧ within center (widened radius) place ∧
      ∀ group ∈ index.shutGroups center (widened radius), slot ∉ group.slots := by
  simp [slotsAround, List.mem_zipIdx_iff_getElem?]

theorem lt_size_of_mem (h : slot ∈ index.slotsAround center radius) : slot < index.size := by
  obtain ⟨place, hplace, -⟩ := mem_slotsAround.mp h
  exact (Array.getElem?_eq_some_iff.mp hplace).1

/-- With a finite center among defined places nothing but the distance counts. -/
theorem mem_slotsAround_of_isDefined (hcenter : center.isFinite)
    (hdefined : ∀ p ∈ index.places, p.isDefined) : slot ∈ index.slotsAround center radius ↔
      ∃ place, index.places[slot]? = some place ∧ within center (widened radius) place := by
  rw [mem_slotsAround]
  refine exists_congr fun place => and_congr_right fun hplace => and_iff_left_of_imp fun hnear => ?_
  exact not_mem_slots_of_shut hcenter hdefined hplace hnear

variable {vehicles : Array Vehicle} {me peer : Vehicle}

/-- **Whoever is in sight is found.** -/
theorem within_of_length_le (h : (peer.position - me.position).length ≤ sight) :
    within me.position (widened sight) peer.position := by
  rw [← Bool.not_eq_false]
  intro hout
  have hnumber := (Number.isNaN_eq_false_of_le h).1
  exact Number.not_lt_of_le h (sight_lt_length hout hnumber)

/-- **An index prunes without loss.** A vehicle that measures its own generation has an index of it.
The slots around the vehicle come in strictly ascending order, are slots of the generation, and are
those of the places within the widened radius, among them all that are in sight. In their order the
vehicle sees exactly what it sees in the whole generation. -/
theorem prunes_without_loss (hme : me ∈ vehicles) (h : me.Measures vehicles.toList) :
    ∃ index, ofPlaces (vehicles.map (·.position)) = .ok index ∧
      ∃ slots, index.slotsAround me.position sight = slots ∧ slots.Pairwise (· < ·) ∧
        (∀ slot ∈ slots, slot < vehicles.size) ∧
        (∀ slot, slot ∈ slots ↔ ∃ peer, vehicles[slot]? = some peer ∧
          within me.position (widened sight) peer.position) ∧
        (∀ slot peer, vehicles[slot]? = some peer →
          (peer.position - me.position).length ≤ sight → slot ∈ slots) ∧
        Surroundings.around me (slots.filterMap (vehicles[·]?))
          = Surroundings.around me vehicles.toList := by
  have hplaces : ∀ p ∈ vehicles.map (·.position), p.isDefined :=
    Array.forall_mem_map.mpr h.isDefined
  have hmem : ∀ slot, slot ∈ (ofOrdered (vehicles.map (·.position))).slotsAround me.position sight ↔
      ∃ peer, vehicles[slot]? = some peer ∧
        within me.position (widened sight) peer.position := fun slot => by
    rw [mem_slotsAround_of_isDefined (h.isFinite hme) hplaces]
    simp [ofOrdered]
  refine ⟨.ofOrdered (vehicles.map (·.position)), ?_, _, rfl, pairwise_slotsAround ..,
    fun slot hslot => ?_, ?_, fun slot peer hpeer hsight => ?_, ?_⟩
  · unfold ofPlaces
    rw [PeerSearch.orderable_iff.mp (.inr h.isDefined)]
    rfl
  · have hlt := lt_size_of_mem hslot
    rwa [size, ofOrdered, Array.size_map] at hlt
  · exact hmem
  · exact (hmem slot).mpr ⟨peer, hpeer, within_of_length_le hsight⟩
  · exact Surroundings.around_found hme h

/-- A vehicle so far away from the crowd that the distance overflows. -/
def stray : Vehicle := .followerAt ⟨1.7e308, 0.0⟩

/-- The crowd with a stray. It is more than fit into one group of places, and the last slot is left
out. -/
theorem prunes_without_loss_stray : ∃ index slots,
    ofPlaces ((crowd.push stray).map (·.position)) = .ok index ∧
    index.slotsAround .zero sight = slots ∧ 0 ∈ slots ∧ 7 ∉ slots ∧
    Surroundings.around (.followerAt .zero) (slots.filterMap ((crowd.push stray)[·]?))
      = Surroundings.around (.followerAt .zero) (crowd.push stray).toList := by
  have hme : Vehicle.followerAt .zero ∈ crowd.push stray :=
    Array.mem_push_of_mem _ (Array.mem_replicate.mpr ⟨by decide, rfl⟩)
  have hmeasures : (Vehicle.followerAt .zero).Measures (crowd.push stray).toList := by
    unfold Vehicle.Measures
    decide +kernel
  obtain ⟨index, hindex, slots, hslots, -, -, hmem, hsight, hsees⟩ :=
    prunes_without_loss hme hmeasures
  refine ⟨index, slots, hindex, hslots, hsight 0 (.followerAt .zero) rfl (by decide +kernel),
    fun hfar => ?_, hsees⟩
  obtain ⟨peer, hpeer, hwithin⟩ := (hmem 7).mp hfar
  have hstray : (crowd.push stray)[7]? = some stray := rfl
  rw [hstray] at hpeer
  rw [← Option.some.inj hpeer] at hwithin
  exact absurd hwithin (by decide +kernel)

end PlaceIndex

end Phototaxis
