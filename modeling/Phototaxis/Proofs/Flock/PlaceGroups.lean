import Mathlib
import Phototaxis.Proofs.Geometry.Bounds

/-!
# Groups do not shut out what is near

A group is cut into slabs and these into parts, but in all this places are only moved
about: every group is the group of some of the places that were given
(`PlaceGroup.exists_of_mem_within`). So its bounds cover the places of its slots, if all
places are defined, and then it is no farther from a finite center than any of them
(`PlaceGroup.distanceSquared_le`). A search that looks only into the groups within a radius
therefore misses nothing within the radius (`PlaceIndex.slotsAround_eq`).
-/

namespace Phototaxis

namespace PlaceGroup

variable {axis : Vector2 → Float} {entries slab : List Entry} {size cuts count : ℕ}
variable {group : PlaceGroup} {places : List Vector2} {place center : Vector2} {slot : ℕ}

/-! ## Cutting -/

theorem cutLowest_subset (axis : Vector2 → Float) (size : ℕ) (entries : List Entry) :
    (cutLowest axis size entries).1 ⊆ entries ∧ (cutLowest axis size entries).2 ⊆ entries := by
  unfold cutLowest
  split
  -- only one place is left over
  · dsimp only
    split
    · rename_i greatest last hgreatest hlast
      refine ⟨fun entry h => ?_, fun entry h => ?_⟩
      · rcases List.mem_or_eq_of_mem_set (List.mem_of_mem_dropLast h) with hmem | rfl
        · exact hmem
        · exact List.mem_of_getLast? hlast
      · rw [List.mem_singleton.mp h]
        exact List.mem_of_getElem? hgreatest
    · exact ⟨List.Subset.refl _, List.nil_subset _⟩
  · refine ⟨fun entry h => ?_, fun entry h => ?_⟩
    · exact List.mem_mergeSort.mp (List.mem_of_mem_take h)
    · exact List.mem_mergeSort.mp (List.mem_of_mem_drop h)

theorem subset_of_mem_slabs (h : slab ∈ slabs axis size cuts entries) : slab ⊆ entries := by
  induction cuts generalizing entries with
  | zero => exact (List.mem_singleton.mp h) ▸ List.Subset.refl _
  | succ cuts ih =>
    unfold slabs at h
    split at h
    · exact (List.mem_singleton.mp h) ▸ List.Subset.refl _
    · obtain ⟨hlowest, hothers⟩ := cutLowest_subset axis size entries
      rcases List.mem_cons.mp h with rfl | h
      · exact hlowest
      · exact List.Subset.trans (ih h) hothers

theorem subset_of_mem_slabsOf (h : slab ∈ slabsOf axis count entries) : slab ⊆ entries :=
  subset_of_mem_slabs h

/-- **Every group is the group of some of the entries.** -/
theorem exists_of_mem_within (h : group ∈ within cuts entries) :
    ∃ part ⊆ entries, group = ofEntries part := by
  induction cuts generalizing entries with
  | zero => exact ⟨entries, List.Subset.refl _, List.mem_singleton.mp h⟩
  | succ cuts ih =>
    unfold within at h
    rcases List.mem_cons.mp h with rfl | h
    · exact ⟨entries, List.Subset.refl _, rfl⟩
    · split at h
      · cases h
      · obtain ⟨column, hcolumn, hgroup⟩ := List.mem_flatMap.mp h
        obtain ⟨row, hrow, hcolumn⟩ := List.mem_flatMap.mp hcolumn
        obtain ⟨part, hpart, rfl⟩ := ih hgroup
        refine ⟨part, List.Subset.trans hpart ?_, rfl⟩
        exact List.Subset.trans (subset_of_mem_slabsOf hcolumn) (subset_of_mem_slabsOf hrow)

/-! ## Distances -/

/-- **A group of defined places is no farther from a finite center than a place in it.** -/
theorem distanceSquared_le (hgroup : group ∈ all places) (hdefined : ∀ p ∈ places, p.isDefined)
    (hplace : places[slot]? = some place) (hslot : slot ∈ group.slots) (hcenter : center.isFinite) :
    group.bounds.distanceSquared center ≤ (place - center).lengthSquared := by
  obtain ⟨part, hpart, rfl⟩ := exists_of_mem_within hgroup
  have hentry : ∀ {entry}, entry ∈ part → places[entry.2]? = some entry.1 := fun h =>
    List.mem_zipIdx_iff_getElem?.mp (hpart h)
  obtain ⟨⟨other, _⟩, hmem, rfl⟩ := List.mem_map.mp hslot
  obtain rfl : other = place := Option.some.inj ((hentry hmem).symm.trans hplace)
  refine Bounds.distanceSquared_le (Bounds.covers_ofPlaces (fun p hp => ?_) ?_) hcenter
  · obtain ⟨entry, hpmem, rfl⟩ := List.mem_map.mp hp
    exact hdefined _ (List.mem_of_getElem? (hentry hpmem))
  · exact List.mem_map.mpr ⟨_, hmem, rfl⟩

end PlaceGroup

namespace PlaceIndex

variable {index : PlaceIndex} {center place : Vector2} {radius : Float} {slot : ℕ}

/-- **A near place is in no group that is shut**, if the center is finite and every place is
defined. -/
theorem not_mem_slots_of_shut (hcenter : center.isFinite)
    (hdefined : ∀ p ∈ index.places, p.isDefined) (hplace : index.places[slot]? = some place)
    (hnear : within center radius place) :
    ∀ group ∈ index.shutGroups center radius, slot ∉ group.slots := by
  intro group hgroup hslot
  obtain ⟨hmem, hshut⟩ := List.mem_filter.mp hgroup
  rw [index.groups_eq] at hmem
  have hplaces : ∀ p ∈ index.places.toList, p.isDefined :=
    fun p hp => hdefined p (Array.mem_toList_iff.mp hp)
  have hle := PlaceGroup.distanceSquared_le hmem hplaces (Array.getElem?_toList.trans hplace)
    hslot hcenter
  have hopen := Number.le_trans hle (of_decide_eq_true hnear)
  rw [decide_eq_true hopen] at hshut
  cases hshut

/-- **Nothing but the distance counts** then. -/
theorem slotsAround_eq (hcenter : center.isFinite) (hdefined : ∀ p ∈ index.places, p.isDefined) :
    index.slotsAround center radius = (index.places.toList.zipIdx.filter fun entry =>
      within center (widened radius) entry.1).map (·.2) := by
  unfold slotsAround
  refine congrArg (List.map Prod.snd) (List.filter_congr fun entry hentry => ?_)
  have hplace : index.places[entry.2]? = some entry.1 :=
    Array.getElem?_toList.symm.trans (List.mem_zipIdx_iff_getElem?.mp hentry)
  cases hnear : within center (widened radius) entry.1 with
  | false => simp [hnear]
  | true => simpa [hnear] using not_mem_slots_of_shut hcenter hdefined hplace hnear

end PlaceIndex

end Phototaxis
