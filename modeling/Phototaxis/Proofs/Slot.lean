import Mathlib
import Phototaxis.Proofs.Picture.History
import Phototaxis.Proofs.Trajectory.Writes

/-!
# Slots and their numbers

A slot is known outside by its number: to whoever edits a light or a vehicle, in the rows of
a recording, in the pictures of a scene. The number should be the slot. It is the slot as far
as 32 bits go, since whatever numbers the items keeps these bits of the position and asks no
more, although a number can be refused (`SlotId.ofIndex`).

So the slots are told apart by their numbers, and each number leads back to its slot, exactly
if there are at most `2 ^ 32` of them (`SlotId.addresses_iff`). One slot more has the number of
the first, and leads there. Whatever passes the numbers on has them from one place, and so the
same holds of lights, vehicles, pictures and rows (`SlotId.told_apart_iff`).
-/

namespace Phototaxis

namespace SlotId

variable {kind : SlotKind} {α : Type} {slot slot' count : ℕ}

/-! ## Numbers of positions -/

/-- A position and its number differ by what 32 bits cannot hold. -/
theorem numbering_eq_iff :
    (numbering slot : SlotId kind) = numbering slot' ↔ slot % 2 ^ 32 = slot' % 2 ^ 32 := by
  rw [numbering, numbering, mk.injEq]
  exact UInt32.toNat_inj.symm

/-- **Positions are told apart by their numbers exactly up to `2 ^ 32` of them.** -/
theorem nodup_numbering_iff :
    ((List.range count).map (numbering : ℕ → SlotId kind)).Nodup ↔ count ≤ 2 ^ 32 := by
  constructor
  · intro h
    by_contra hmany
    have hinj := List.inj_on_of_nodup_map h
    -- the first slot and the one behind the last number
    have hsame : (numbering 0 : SlotId kind) = numbering (2 ^ 32) := numbering_eq_iff.mpr rfl
    exact absurd (hinj (List.mem_range.mpr (by omega)) (List.mem_range.mpr (by omega)) hsame)
      (by decide)
  · refine fun h => List.Nodup.map_on (fun i hi j hj hsame => ?_) List.nodup_range
    have hi' : i < 2 ^ 32 := (List.mem_range.mp hi).trans_le h
    have hj' : j < 2 ^ 32 := (List.mem_range.mp hj).trans_le h
    rwa [numbering_eq_iff, Nat.mod_eq_of_lt hi', Nat.mod_eq_of_lt hj'] at hsame

/-! ## Numbered items -/

/-- Whether some entries are told apart by their numbers, and each number leads back to the item of
its entry. -/
structure Addresses (lookup : SlotId kind → Option α) (entries : List (SlotId kind × α)) :
    Prop where
  nodup : (entries.map (·.1)).Nodup
  lookup_eq : ∀ entry ∈ entries, lookup entry.1 = some entry.2

/-- Whether some entries are the items of some slots with their numbers, and a number is looked up
as the slot it stands for. -/
structure Numbers (items : Array α) (lookup : SlotId kind → Option α)
    (entries : List (SlotId kind × α)) : Prop where
  getElem?_eq : ∀ slot : ℕ, entries[slot]? = items[slot]?.map (numbering slot, ·)
  lookup_eq : ∀ id, lookup id = items[id.index]?

variable {items : Array α} {lookup : SlotId kind → Option α} {entries : List (SlotId kind × α)}

theorem Numbers.map_fst (h : Numbers items lookup entries) :
    entries.map (·.1) = (List.range items.size).map numbering := by
  refine List.ext_getElem? fun slot => ?_
  rw [List.getElem?_map, h.getElem?_eq, List.getElem?_map]
  rcases lt_or_ge slot items.size with hlt | hge
  · rw [Array.getElem?_eq_getElem hlt, List.getElem?_range hlt]
    rfl
  · rw [Array.getElem?_eq_none hge, List.getElem?_eq_none (by rwa [List.length_range])]
    rfl

/-- **The number of a slot leads to the slot that it stands for.** -/
theorem Numbers.lookup_numbering (h : Numbers items lookup entries) (slot : ℕ) :
    lookup (numbering slot) = items[slot % 2 ^ 32]? :=
  h.lookup_eq (numbering slot)

/-- **Numbers address their slots exactly up to `2 ^ 32` of them.** -/
theorem addresses_iff (h : Numbers items lookup entries) :
    Addresses lookup entries ↔ items.size ≤ 2 ^ 32 := by
  have hnodup : (entries.map (·.1)).Nodup ↔ items.size ≤ 2 ^ 32 := by
    rw [h.map_fst, nodup_numbering_iff]
  refine ⟨fun haddresses => hnodup.mp haddresses.nodup, fun hsize =>
    ⟨hnodup.mpr hsize, fun entry hentry => ?_⟩⟩
  obtain ⟨slot, hslot⟩ := List.mem_iff_getElem?.mp hentry
  rw [h.getElem?_eq, Option.map_eq_some_iff] at hslot
  obtain ⟨item, hitem, rfl⟩ := hslot
  have hlt : slot < items.size := (Array.getElem?_eq_some_iff.mp hitem).1
  rw [h.lookup_numbering, Nat.mod_eq_of_lt (hlt.trans_le hsize), hitem]

end SlotId

theorem LightField.numbers (field : LightField) :
    SlotId.Numbers field.lights field.get? field.numbered where
  getElem?_eq slot := by
    rw [numbered, List.getElem?_map, List.getElem?_zipIdx, Option.map_map, Array.getElem?_toList,
      Nat.zero_add]
    rfl
  lookup_eq _ := rfl

theorem Flock.numbers (flock : Flock) :
    SlotId.Numbers flock.vehicles flock.vehicle? flock.numbered where
  getElem?_eq slot := by
    rw [numbered, List.getElem?_map, List.getElem?_zipIdx, Option.map_map, Array.getElem?_toList,
      Nat.zero_add]
    rfl
  lookup_eq _ := rfl

/-! ## Numbers that are passed on -/

/-- The numbers of the vehicles of a flock, in slot order. -/
def Flock.ids (flock : Flock) : List VehicleId := flock.numbered.map (·.1)

theorem Flock.nodup_ids_iff (flock : Flock) : flock.ids.Nodup ↔ flock.size ≤ 2 ^ 32 := by
  rw [ids, flock.numbers.map_fst, SlotId.nodup_numbering_iff]
  rfl

/-- The rows of a frame have the numbers of the flock. -/
theorem Flock.ids_rows (flock : Flock) (number : UInt64) (tick : Tick) :
    (flock.rows number tick).map (·.vehicle) = flock.ids :=
  List.map_map

/-- The pictures of a scene have the numbers of the flock that was shown last, whenever the pictures
were made. -/
theorem Scene.ids_after (calls : List Call) (call : Call) :
    (after (calls ++ [call])).vehicles.map (·.id) = call.flock.ids := by
  rw [after_concat, ((kept_after calls).projects call).vehicles, ← map_numbered]
  exact List.map_map

namespace Recorder

variable {ω ε : Type}

/-- The rows of a record are written as they are, if there are any. -/
theorem mem_writes {record : FrameRecord} {rows : List VehicleRow}
    (h : Write.vehicles rows ∈ record.writes) : rows = record.rows := by
  unfold FrameRecord.writes at h
  rcases List.mem_append.mp h with h | h
  · split at h
    · cases h
    · cases List.mem_singleton.mp h
      rfl
  · cases List.mem_singleton.mp h

/-- **All rows that are written at once are those of one frame.** -/
theorem exists_writes (out : Sink ω ε) (s : ω) (n : UInt64) (frames : List HandOver) :
    ∃ writes, (ofFrames out s n frames).sink = out.performAll writes s ∧
      ∀ rows, .vehicles rows ∈ writes →
        ∃ frame ∈ frames, rows.map (·.vehicle) = frame.flock.ids := by
  -- From the last frame back, as one frame adds its writes to those before it.
  induction frames using List.reverseRecOn with
  | nil => exact ⟨[], rfl, nofun⟩
  | append_singleton frames frame ih =>
    obtain ⟨writes, hwrites, hids⟩ := ih
    rw [ofFrames_concat, sink_onFrame, hwrites, ← Sink.performAll_append]
    refine ⟨_, rfl, fun rows hrows => ?_⟩
    rcases List.mem_append.mp hrows with hbefore | hnow
    · obtain ⟨other, hother, hrows⟩ := hids rows hbefore
      exact ⟨other, List.mem_append_left _ hother, hrows⟩
    · split at hnow
      · refine ⟨frame, List.mem_concat_self, ?_⟩
        rw [mem_writes hnow]
        exact frame.flock.ids_rows ..
      · cases hnow

end Recorder

namespace SlotId

/-- **Slots are told apart by their numbers exactly up to `2 ^ 32` of them.** The entries of a field
and of a flock address their items exactly if there are no more of them than that; in any case a
number leads to the slot with the same lowest 32 bits. After whatever calls, the pictures of a scene
are told apart by their numbers exactly if the flock shown last is not larger. And what a recording
asks its sink to write are rows of one frame at a time, told apart by their numbers exactly if the
flock of this frame is not larger. -/
theorem told_apart_iff (field : LightField) (flock : Flock) (calls : List Scene.Call)
    (call : Scene.Call) {ω ε : Type} (out : Sink ω ε) (s : ω) (n : UInt64)
    (frames : List HandOver) :
    (Addresses field.get? field.numbered ↔ field.size ≤ 2 ^ 32) ∧
      (∀ slot, field.get? (numbering slot) = field.lights[slot % 2 ^ 32]?) ∧
      (Addresses flock.vehicle? flock.numbered ↔ flock.size ≤ 2 ^ 32) ∧
      (∀ slot, flock.vehicle? (numbering slot) = flock.vehicles[slot % 2 ^ 32]?) ∧
      (((Scene.after (calls ++ [call])).vehicles.map (·.id)).Nodup ↔ call.flock.size ≤ 2 ^ 32) ∧
      ∃ writes, (Recorder.ofFrames out s n frames).sink = out.performAll writes s ∧
        ∀ rows, .vehicles rows ∈ writes → ∃ frame ∈ frames, rows.length = frame.flock.size ∧
          ((rows.map (·.vehicle)).Nodup ↔ frame.flock.size ≤ 2 ^ 32) := by
  refine ⟨addresses_iff field.numbers, field.numbers.lookup_numbering,
    addresses_iff flock.numbers, flock.numbers.lookup_numbering, ?_, ?_⟩
  · rw [Scene.ids_after, Flock.nodup_ids_iff]
  · obtain ⟨writes, hwrites, hrows⟩ := Recorder.exists_writes out s n frames
    refine ⟨writes, hwrites, fun rows hmem => ?_⟩
    obtain ⟨frame, hframe, hids⟩ := hrows rows hmem
    refine ⟨frame, hframe, ?_, ?_⟩
    · rw [← List.length_map, hids, Flock.ids, frame.flock.numbers.map_fst, List.length_map,
        List.length_range]
      rfl
    · rw [hids, Flock.nodup_ids_iff]

/-- **One vehicle more than there are numbers.** The first and the last vehicle of such a flock have
the same number, and it leads to the first. -/
theorem number_given_twice :
    let first := Vehicle.followerAt .zero
    let last : Vehicle := ⟨.zero, 0.0, 1.0, .leaderClockwise⟩
    let flock := Flock.ofArray .empty ((Array.replicate (2 ^ 32) first).push last)
    flock.size = 2 ^ 32 + 1 ∧ ¬ (flock.numbered.map (·.1)).Nodup ∧
      (numbering 0, last) ∈ flock.numbered ∧ flock.vehicle? (numbering 0) = some first ∧
      first.behavior ≠ last.behavior := by
  intro first last flock
  have hvehicles : flock.vehicles = (Array.replicate (2 ^ 32) first).push last := rfl
  have hsize : flock.vehicles.size = 2 ^ 32 + 1 := by
    rw [hvehicles, Array.size_push, Array.size_replicate]
  have hlast : flock.vehicles[2 ^ 32]? = some last := by
    rw [hvehicles, Array.getElem?_push, Array.size_replicate, if_pos rfl]
  have hfirst : flock.vehicles[0]? = some first := by
    rw [hvehicles, Array.getElem?_push, Array.size_replicate, if_neg (by decide),
      Array.getElem?_replicate, if_pos (by decide)]
  refine ⟨hsize, fun hnodup => ?_, ?_, (flock.numbers.lookup_numbering 0).trans hfirst, nofun⟩
  · have hle : flock.vehicles.size ≤ 2 ^ 32 := flock.nodup_ids_iff.mp hnodup
    omega
  · have hentry := flock.numbers.getElem?_eq (2 ^ 32)
    rw [hlast] at hentry
    exact List.mem_of_getElem? hentry

end SlotId

end Phototaxis
