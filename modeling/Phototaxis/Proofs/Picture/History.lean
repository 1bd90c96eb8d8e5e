import Mathlib
import Phototaxis.Picture.Scene
import Phototaxis.Proofs.Number.Order

/-!
# What a scene remembers

A renderer shows one flock after the other in the same scene. Where their numbers stay the
same, lights and vehicles have their pictures brought up to date; otherwise the pictures are
made anew. The flocks may be any: between two calls they may be edited, grow, shrink or be
others altogether.

A picture of a vehicle keeps the number of its slot and nothing else, so both ways lead to
the same pictures (`Scene.updateVehicles_vehiclePictures`). A picture of a light keeps its
color as long as its intensity stays the same, and the phases of its pulses always. What
must hold of a scene for the next call is therefore little (`Scene.Kept`): the slots are
numbered, and each color is that of the intensity beside it. With that every call shows its
flock (`Scene.Kept.projects`), and what is shown is again enough for the next call
(`Scene.Projects.kept`).

The phases are the memory of a scene. They remember the times of the calls since the number
of lights changed last, as `Scene.Pulsed` says, and nothing of the lights themselves.
-/

namespace Phototaxis

/-! ## Pictures of single lights -/

namespace LightPicture

variable {picture : LightPicture} {light : Light}

/-- Whether a picture shows a light. The intensity counts as the same if the two compare as equal,
so a zero may keep its other sign. -/
structure Shows (picture : LightPicture) (light : Light) : Prop where
  position : picture.position = light.position
  intensity : picture.intensity == light.intensity ∨
    picture.intensity.isNaN ∧ light.intensity.isNaN
  color : picture.color = .ofIntensity picture.intensity

theorem shows_of_intensity (hposition : picture.position = light.position)
    (hintensity : picture.intensity = light.intensity)
    (hcolor : picture.color = .ofIntensity picture.intensity) : picture.Shows light := by
  refine ⟨hposition, ?_, hcolor⟩
  rw [hintensity]
  cases hnan : light.intensity.isNaN with
  | false => exact .inl (Number.beq_self hnan)
  | true => exact .inr ⟨rfl, rfl⟩

theorem shows_ofLight (light : Light) : (ofLight light).Shows light :=
  shows_of_intensity rfl rfl rfl

/-- **An edited light is shown**, whether its picture is painted anew or not. -/
theorem shows_update (h : picture.color = .ofIntensity picture.intensity) (light : Light) :
    (picture.update light).Shows light := by
  unfold update
  split
  · next hsame => exact ⟨rfl, .inl hsame, h⟩
  · exact shows_of_intensity rfl rfl rfl

theorem phases_update (picture : LightPicture) (light : Light) :
    (picture.update light).phases = picture.phases := by
  unfold update
  split <;> rfl

theorem Shows.advance (h : picture.Shows light) (elapsed : Float) :
    (picture.advance elapsed).Shows light :=
  ⟨h.position, h.intensity, h.color⟩

end LightPicture

namespace Scene

/-! ## Pictures of all vehicles -/

/-- The picture of a vehicle in the slot at a position. -/
def vehiclePicture (slot : Vehicle × ℕ) : VehiclePicture := .ofVehicle (.numbering slot.2) slot.1

/-- The pictures of the vehicles of a flock that is seen for the first time. -/
def vehiclePictures (flock : Flock) : List VehiclePicture :=
  flock.vehicles.toList.zipIdx.map vehiclePicture

theorem map_numbered (flock : Flock) :
    (flock.numbered.map fun (id, vehicle) => VehiclePicture.ofVehicle id vehicle)
      = vehiclePictures flock :=
  List.map_map

theorem zipWith_update_vehiclePicture (old new : List Vehicle) (first : ℕ)
    (h : old.length = new.length) :
    List.zipWith VehiclePicture.update ((old.zipIdx first).map vehiclePicture) new
      = (new.zipIdx first).map vehiclePicture := by
  induction old generalizing new first with
  | nil => rw [List.eq_nil_of_length_eq_zero h.symm]; rfl
  | cons v old ih =>
    cases new with
    | nil => cases h
    | cons w new =>
      exact congrArg (vehiclePicture (w, first) :: ·) (ih new (first + 1) (Nat.succ.inj h))

/-- **Pictures of vehicles come out the same both ways**, brought up to date or made anew. -/
theorem updateVehicles_vehiclePictures (old flock : Flock) :
    updateVehicles (vehiclePictures old) flock = vehiclePictures flock := by
  unfold updateVehicles
  split
  · next hsize =>
    refine zipWith_update_vehiclePicture _ _ 0 ?_
    simpa [vehiclePictures, Flock.size, Flock.vehicles, Population.size] using hsize
  · exact map_numbered flock

/-! ## Pictures of all lights -/

/-- Whether pictures of lights are painted as their intensities say, with pulses in a phase that is
told by `P`. -/
def Painted (P : Vector Float 3 → Prop) (pictures : List LightPicture) : Prop :=
  ∀ picture ∈ pictures, picture.color = .ofIntensity picture.intensity ∧ P picture.phases

variable {P : Vector Float 3 → Prop} {pictures : List LightPicture} {lights : List Light}

/-- **Pictures of lights after an update**: as many as before keep their phases, and otherwise all
pulses start afresh. -/
theorem forall₂_updateLights (hsame : pictures.length = lights.length → Painted P pictures)
    (hother : pictures.length ≠ lights.length → P LightPicture.initialPhases) :
    List.Forall₂ (fun picture light => picture.Shows light ∧ P picture.phases)
      (updateLights pictures lights) lights := by
  unfold updateLights
  split
  · next hlength =>
    have h := hsame hlength
    clear hsame hother
    induction pictures generalizing lights with
    | nil =>
      rw [List.eq_nil_of_length_eq_zero hlength.symm]
      exact .nil
    | cons picture pictures ih =>
      cases lights with
      | nil => cases hlength
      | cons light lights =>
        obtain ⟨⟨hcolor, hphases⟩, hrest⟩ := List.forall_mem_cons.mp h
        refine .cons ⟨LightPicture.shows_update hcolor light, ?_⟩ (ih (Nat.succ.inj hlength) hrest)
        rwa [LightPicture.phases_update]
  · next hlength =>
    rw [List.forall₂_map_left_iff]
    exact List.forall₂_same.mpr fun light _ =>
      ⟨LightPicture.shows_ofLight light, hother hlength⟩

/-- The pulses of all pictures are moved alike. -/
theorem forall₂_advance {elapsed : Float}
    (h : List.Forall₂ (fun picture light => picture.Shows light ∧
      P (picture.phases.map (LightPicture.advancePhase elapsed))) pictures lights) :
    List.Forall₂ (fun picture light => picture.Shows light ∧ P picture.phases)
      (pictures.map (·.advance elapsed)) lights := by
  rw [List.forall₂_map_left_iff]
  exact h.imp fun _ _ hshows => ⟨hshows.1.advance elapsed, hshows.2⟩

/-! ## Calls -/

/-- A call that shows a flock: in a new scene, or in the one that there is, with or without a frame
being handed over. -/
inductive Call where
  | capture (flock : Flock)
  | advance (elapsed : Float) (flock : Flock)
  | frame (tick : Tick) (elapsed : Float) (flock : Flock)

namespace Call

/-- The flock that is shown. -/
def flock : Call → Flock
  | capture flock | advance _ flock | frame _ _ flock => flock

/-- The seconds by which the pulses are moved, if they are. -/
def elapsed? : Call → Option Float
  | capture _ => none
  | advance elapsed _ | frame _ elapsed _ => some elapsed

/-- The number of lights that are shown. -/
def lightCount (call : Call) : ℕ := call.flock.lights.size

/-- Whether the pulses start afresh when so many lights were shown before: the scene is new or the
number of lights changes. -/
def StartsAfresh (count : ℕ) : Call → Prop
  | capture _ => True
  | advance _ flock | frame _ _ flock => flock.lights.size ≠ count

/-- The scene after a call. -/
def apply (scene : Scene) : Call → Scene
  | capture flock => .ofFlock flock
  | advance elapsed flock => scene.advance elapsed flock
  | frame tick elapsed flock => scene.onFrame tick elapsed flock

end Call

/-- The scene after some calls. -/
def after (calls : List Call) : Scene := calls.foldl Call.apply {}

/-- The number of lights that are shown after some calls. -/
def shownLights (calls : List Call) : ℕ := (calls.getLast?.map Call.lightCount).getD 0

/-- The phases of pulses, moved forward one time after the other. -/
def movedBy (phases : Vector Float 3) (times : List Float) : Vector Float 3 :=
  times.foldl (fun phases elapsed => phases.map (LightPicture.advancePhase elapsed)) phases

/-- Of some calls, the last that changes the number of lights stands between `before` and `rest`. -/
structure LastChange (before : List Call) (change : Call) (rest : List Call) : Prop where
  startsAfresh : change.StartsAfresh (shownLights before)
  kept : ∀ call ∈ rest, ¬ call.StartsAfresh change.lightCount

/-- Whether some calls leave pulses in the given phases: the initial ones, moved by the times of the
calls from the last one on that changed the number of lights. -/
def Pulsed (calls : List Call) (phases : Vector Float 3) : Prop :=
  ∃ before change rest, calls = before ++ change :: rest ∧ LastChange before change rest ∧
    phases = movedBy LightPicture.initialPhases ((change :: rest).filterMap Call.elapsed?)

variable {calls before rest : List Call} {call change : Call} {phases : Vector Float 3}

theorem shownLights_concat (calls : List Call) (call : Call) :
    shownLights (calls ++ [call]) = call.lightCount := by
  rw [shownLights, List.getLast?_concat]
  rfl

theorem Call.lightCount_of_not_startsAfresh {count : ℕ} (h : ¬ call.StartsAfresh count) :
    call.lightCount = count := by
  cases call with
  | capture flock => exact absurd trivial h
  | advance elapsed flock => exact not_not.mp h
  | frame tick elapsed flock => exact not_not.mp h

theorem LastChange.shownLights_eq (h : LastChange before change rest) :
    shownLights (before ++ change :: rest) = change.lightCount := by
  obtain rfl | ⟨between, last, rfl⟩ := List.eq_nil_or_concat' rest
  · exact shownLights_concat before change
  · rw [← List.cons_append, ← List.append_assoc, shownLights_concat]
    exact Call.lightCount_of_not_startsAfresh (h.kept last (List.mem_concat_self ..))

/-- **A call that changes the number of lights** is the last to do so. -/
theorem pulsed_of_startsAfresh (h : call.StartsAfresh (shownLights calls)) :
    Pulsed (calls ++ [call]) (movedBy LightPicture.initialPhases call.elapsed?.toList) := by
  refine ⟨calls, call, [], rfl, ⟨h, nofun⟩, ?_⟩
  cases call <;> rfl

/-- **A call that keeps the number of lights** moves the pulses on. -/
theorem Pulsed.concat (h : Pulsed calls phases) (hcall : ¬ call.StartsAfresh (shownLights calls)) :
    Pulsed (calls ++ [call]) (movedBy phases call.elapsed?.toList) := by
  obtain ⟨before, change, rest, rfl, hchange, rfl⟩ := h
  rw [hchange.shownLights_eq] at hcall
  refine ⟨before, change, rest ++ [call], List.append_assoc _ _ _,
    ⟨hchange.startsAfresh, List.forall_mem_append.mpr ⟨hchange.kept,
      List.forall_mem_singleton.mpr hcall⟩⟩, ?_⟩
  rw [← List.cons_append, List.filterMap_append, movedBy, movedBy, movedBy, List.foldl_append]
  cases call <;> rfl

/-! ## Histories -/

/-- What a scene is like after some calls, whatever flocks it has shown. -/
structure Kept (calls : List Call) (scene : Scene) : Prop where
  length : scene.lights.length = shownLights calls
  painted : Painted (Pulsed calls) scene.lights
  vehicles : ∃ flock, scene.vehicles = vehiclePictures flock

/-- Whether a scene shows the flock of the last of some calls. -/
structure Projects (calls : List Call) (scene : Scene) (flock : Flock) : Prop where
  vehicles : scene.vehicles = vehiclePictures flock
  lights : List.Forall₂ (fun picture light => picture.Shows light ∧ Pulsed calls picture.phases)
    scene.lights flock.lights.lights.toList

/-- A flock that is shown leaves the scene as the next call expects it. -/
theorem Projects.kept {scene : Scene} (h : Projects (calls ++ [call]) scene call.flock) :
    Kept (calls ++ [call]) scene := by
  refine ⟨?_, ?_, call.flock, h.vehicles⟩
  · rw [shownLights_concat, h.lights.length_eq, Array.length_toList]
    rfl
  · exact ((List.forall₂_and_left _ _).mp
      (h.lights.imp fun _ _ hshows => ⟨⟨hshows.1.color, hshows.2⟩, hshows.1⟩)).1

theorem Kept.projects_advance {scene : Scene} {elapsed : Float} {flock : Flock}
    (h : Kept calls scene) (helapsed : call.elapsed? = some elapsed)
    (hafresh : ∀ count, call.StartsAfresh count ↔ flock.lights.size ≠ count) :
    Projects (calls ++ [call]) (scene.advance elapsed flock) flock := by
  obtain ⟨old, hold⟩ := h.vehicles
  constructor
  · show updateVehicles scene.vehicles flock = _
    rw [hold]
    exact updateVehicles_vehiclePictures old flock
  · refine forall₂_advance (forall₂_updateLights (P := fun phases =>
      Pulsed (calls ++ [call]) (phases.map (LightPicture.advancePhase elapsed))) ?_ ?_)
    · intro hlength picture hpicture
      have hkeeps : ¬ call.StartsAfresh (shownLights calls) := by
        rw [hafresh, ← h.length, hlength]
        exact not_not.mpr Array.length_toList.symm
      obtain ⟨hcolor, hpulsed⟩ := h.painted picture hpicture
      have hmoved := hpulsed.concat hkeeps
      rw [helapsed] at hmoved
      exact ⟨hcolor, hmoved⟩
    · intro hlength
      have hchanges : call.StartsAfresh (shownLights calls) := by
        rw [hafresh, ← h.length]
        exact fun hsize => hlength (hsize.symm.trans Array.length_toList.symm)
      have hmoved := pulsed_of_startsAfresh hchanges
      rw [helapsed] at hmoved
      exact hmoved

/-- **A call shows its flock**, in whatever state the calls before it have left the scene. -/
theorem Kept.projects {scene : Scene} (h : Kept calls scene) (call : Call) :
    Projects (calls ++ [call]) (call.apply scene) call.flock := by
  cases call with
  | capture flock =>
    constructor
    · exact updateVehicles_vehiclePictures default flock
    · exact forall₂_updateLights (fun _ _ hpicture => nomatch hpicture)
        fun _ => pulsed_of_startsAfresh trivial
  | advance elapsed flock => exact h.projects_advance rfl fun _ => Iff.rfl
  | frame tick elapsed flock =>
    have hadvance : Projects (calls ++ [.frame tick elapsed flock]) (scene.advance elapsed flock)
        flock := h.projects_advance rfl fun _ => Iff.rfl
    exact ⟨hadvance.vehicles, hadvance.lights⟩

theorem after_concat (calls : List Call) (call : Call) :
    after (calls ++ [call]) = call.apply (after calls) := List.foldl_concat ..

/-- Every history leaves the scene as the next call expects it. -/
theorem kept_after (calls : List Call) : Kept calls (after calls) := by
  induction calls using List.reverseRecOn with
  | nil => exact ⟨rfl, nofun, default, rfl⟩
  | append_singleton calls call ih =>
    rw [after_concat]
    exact (ih.projects call).kept

/-- **A scene has no memory but the pulses.** After every call, whatever was shown before, the
vehicles are those of a scene that starts with the flock of this call: one picture for each
vehicle, with its slot, position and heading. Each light has one picture, at its position, with its
intensity and in the color of the intensity in the picture. The phases of its pulses are the
initial ones, moved by the times of the calls from the last one on that changed the number of
lights, and by nothing else. -/
theorem projection_forgets (calls : List Call) (call : Call) :
    (after (calls ++ [call])).vehicles = (ofFlock call.flock).vehicles ∧
      (after (calls ++ [call])).vehicles
        = (call.flock.numbered.map fun (id, vehicle) => .ofVehicle id vehicle) ∧
      List.Forall₂ (fun picture light => picture.Shows light ∧
          Pulsed (calls ++ [call]) picture.phases)
        (after (calls ++ [call])).lights call.flock.lights.lights.toList := by
  have hprojects := (kept_after calls).projects call
  rw [← after_concat] at hprojects
  refine ⟨?_, hprojects.vehicles.trans (map_numbered call.flock).symm, hprojects.lights⟩
  exact hprojects.vehicles.trans (updateVehicles_vehiclePictures default call.flock).symm

end Scene

end Phototaxis
