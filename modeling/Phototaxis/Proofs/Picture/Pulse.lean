import Mathlib
import Phototaxis.Proofs.Picture.History
import Phototaxis.Proofs.Schedule.Invariants

/-!
# Pulses stay in range

A pulse has a phase between zero and one, and each of its halos is drawn from that phase alone:
whichever way the halo moves, its radius is between zero and one half and its alpha between zero
and one (`LightPicture.Phased.inRange`).

The phases are kept in range by the way they are moved. A sum that passes one starts again at
zero, and a sum that does not is between its first summand and one, if time does not run
backwards; it may stand still or jump as far as it likes, even to infinity
(`LightPicture.between_advancePhase`). Editing a light does not touch the phases. So they stay in
range in every picture of a light, in every scene whatever flocks it shows, and in a scene that
watches a schedule, since the seconds that come with a frame are not below zero
(`Scene.pulses_stay_in_range`).
-/

namespace Phototaxis

open Number (Between)

namespace LightPicture

variable {picture : LightPicture} {elapsed intensity phase : Float}

/-- Whether a picture of a light can be drawn: phases and alphas between zero and one, and radii
between zero and one half. -/
structure InRange (picture : LightPicture) : Prop where
  phases : ∀ phase ∈ picture.phases, Between 0.0 1.0 phase
  radii : ∀ halo ∈ picture.halos, Between 0.0 0.5 halo.radius
  alphas : ∀ halo ∈ picture.halos, Between 0.0 1.0 halo.alpha

/-! ## Halos -/

theorem value_half : Number.value 0.5 = 1 / 2 := by
  decide +kernel

/-- The part of its period that a pulse has run through is its phase, and the part that is left is
between zero and one as well. -/
theorem between_part (h : Between 0.0 1.0 phase) :
    Between 0.0 1.0 (phase / Picture.Halo.period) ∧
      Between 0.0 1.0 (1.0 - phase / Picture.Halo.period) := by
  have hpart : Between 0.0 1.0 (phase / Picture.Halo.period) := by
    have hperiod : Number.value Picture.Halo.period = 1 := Number.value_one
    have hrounded := Number.isRounded_div (h.isFinite rfl rfl)
      (show Picture.Halo.period.isFinite by rfl) (hperiod ▸ one_ne_zero)
    rw [hperiod, div_one] at hrounded
    exact hrounded.between rfl rfl h.value_bounds.1 h.value_bounds.2
  refine ⟨hpart, ?_⟩
  obtain ⟨hlow, hhigh⟩ := hpart.value_bounds
  rw [Number.value_zero] at hlow
  rw [Number.value_one] at hhigh
  refine (Number.isRounded_sub rfl (hpart.isFinite rfl rfl)).between rfl rfl ?_ ?_
  · rw [Number.value_zero, Number.value_one]
    linarith
  · rw [Number.value_one]
    linarith

/-- Half of what is between zero and one is between zero and one half. -/
theorem between_half {x : Float} (h : Between 0.0 1.0 x) :
    Between 0.0 0.5 (x * Picture.Halo.maxRadius) := by
  have hradius : Number.value Picture.Halo.maxRadius = 1 / 2 := value_half
  obtain ⟨hlow, hhigh⟩ := h.value_bounds
  rw [Number.value_zero] at hlow
  rw [Number.value_one] at hhigh
  refine (Number.isRounded_mul (h.isFinite rfl rfl)
    (show Picture.Halo.maxRadius.isFinite by rfl)).between rfl rfl ?_ ?_
  · rw [Number.value_zero, hradius]
    linarith
  · rw [value_half, hradius]
    linarith

/-- **A halo is in range**, whether it expands or contracts. -/
theorem between_ofPhase (intensity : Float) (h : Between 0.0 1.0 phase) :
    Between 0.0 0.5 (Picture.Halo.ofPhase intensity phase).radius ∧
      Between 0.0 1.0 (Picture.Halo.ofPhase intensity phase).alpha := by
  obtain ⟨hpart, hleft⟩ := between_part h
  unfold Picture.Halo.ofPhase
  dsimp only
  split
  · exact ⟨between_half hpart, hleft⟩
  · exact ⟨between_half hleft, hpart⟩

/-! ## Phases -/

/-- Whether the phases of a picture are between zero and one. -/
def Phased (picture : LightPicture) : Prop := ∀ phase ∈ picture.phases, Between 0.0 1.0 phase

theorem Phased.inRange (h : picture.Phased) : picture.InRange := by
  refine ⟨h, fun halo hhalo => ?_, fun halo hhalo => ?_⟩ <;>
    obtain ⟨phase, hphase, rfl⟩ := Vector.mem_map.mp hhalo
  · exact (between_ofPhase picture.intensity (h phase hphase)).1
  · exact (between_ofPhase picture.intensity (h phase hphase)).2

theorem phased_ofLight (light : Light) : (ofLight light).Phased := by
  have hall : ∀ phase ∈ initialPhases.toList, Between 0.0 1.0 phase := by
    refine List.forall_mem_cons.mpr ⟨⟨?_, ?_⟩, List.forall_mem_cons.mpr ⟨⟨?_, ?_⟩,
      List.forall_mem_singleton.mpr ⟨?_, ?_⟩⟩⟩ <;> decide
  exact fun phase hphase => hall phase (Vector.mem_toList_iff.mpr hphase)

theorem Phased.update (h : picture.Phased) (light : Light) : (picture.update light).Phased := by
  unfold Phased
  rw [phases_update]
  exact h

/-- **A phase that moves forward stays between zero and one.** -/
theorem between_advancePhase (h : Between 0.0 1.0 phase) (helapsed : 0.0 ≤ elapsed) :
    Between 0.0 1.0 (advancePhase elapsed phase) := by
  have hsum := Number.nonneg_add h.low_le helapsed
  unfold advancePhase
  dsimp only
  split
  · exact ⟨by decide, by decide⟩
  · next hpast =>
    exact ⟨hsum, Number.le_of_not_lt (by decide) (Number.isNaN_eq_false_of_le hsum).2 hpast⟩

theorem Phased.advance (h : picture.Phased) (helapsed : 0.0 ≤ elapsed) :
    (picture.advance elapsed).Phased := by
  intro phase hphase
  obtain ⟨before, hbefore, rfl⟩ := Vector.mem_map.mp hphase
  exact between_advancePhase (h before hbefore) helapsed

/-! ## The life of a picture -/

/-- What may happen to the picture of a light: the light is edited, or time passes. -/
inductive Change where
  | update (light : Light)
  | advance (elapsed : Float)

/-- The picture after a change. -/
def Change.apply (picture : LightPicture) : Change → LightPicture
  | update light => picture.update light
  | advance elapsed => picture.advance elapsed

/-- Whether no time runs backwards in a change. -/
def Change.IsForward : Change → Prop
  | update _ => True
  | advance elapsed => 0.0 ≤ elapsed

instance : DecidablePred Change.IsForward
  | .update _ => .isTrue trivial
  | .advance elapsed => inferInstanceAs (Decidable (0.0 ≤ elapsed))

/-- The picture of a light after some changes. -/
def changed (light : Light) (changes : List Change) : LightPicture :=
  changes.foldl Change.apply (ofLight light)

theorem Phased.apply (h : picture.Phased) {change : Change} (hforward : change.IsForward) :
    (change.apply picture).Phased := by
  cases change with
  | update light => exact h.update light
  | advance elapsed => exact h.advance hforward

theorem phased_changed (light : Light) {changes : List Change}
    (hforward : ∀ change ∈ changes, change.IsForward) : (changed light changes).Phased :=
  List.foldlRecOn changes Change.apply (phased_ofLight light)
    fun _ hpicture change hchange => hpicture.apply (hforward change hchange)

end LightPicture

namespace Scene

variable {scene : Scene} {elapsed : Float}

/-- Whether all pictures of lights in a scene have their phases in range. -/
def Phased (scene : Scene) : Prop := ∀ picture ∈ scene.lights, picture.Phased

theorem phased_updateLights {pictures : List LightPicture} (h : ∀ p ∈ pictures, p.Phased)
    (lights : List Light) : ∀ picture ∈ updateLights pictures lights, picture.Phased := by
  unfold updateLights
  split
  · intro picture hpicture
    obtain ⟨i, hi, rfl⟩ := List.getElem_of_mem hpicture
    rw [List.getElem_zipWith]
    exact (h _ (List.getElem_mem _)).update _
  · exact List.forall_mem_map.mpr fun light _ => LightPicture.phased_ofLight light

theorem Phased.advance (h : scene.Phased) (helapsed : 0.0 ≤ elapsed) (flock : Flock) :
    (scene.advance elapsed flock).Phased :=
  List.forall_mem_map.mpr fun picture hpicture =>
    (phased_updateLights h _ picture hpicture).advance helapsed

/-- Whether no time runs backwards in a call. -/
def Call.IsForward (call : Call) : Prop := ∀ elapsed ∈ call.elapsed?, 0.0 ≤ elapsed

instance (call : Call) : Decidable call.IsForward :=
  inferInstanceAs (Decidable (∀ elapsed ∈ call.elapsed?, 0.0 ≤ elapsed))

/-- **A call keeps the phases in range**, whatever flock it shows. -/
theorem Phased.apply (h : scene.Phased) {call : Call} (hforward : call.IsForward) :
    (call.apply scene).Phased := by
  cases call with
  | capture flock => exact phased_updateLights (List.forall_mem_nil _) _
  | advance elapsed flock => exact h.advance (hforward elapsed rfl) flock
  | frame tick elapsed flock => exact h.advance (hforward elapsed rfl) flock

theorem phased_after {calls : List Call} (hforward : ∀ call ∈ calls, call.IsForward) :
    (after calls).Phased :=
  List.foldlRecOn calls Call.apply (List.forall_mem_nil _)
    fun _ hscene call hcall => hscene.apply (hforward call hcall)

/-- A scene that watches a schedule keeps its phases in range, whoever else watches. -/
theorem keeps_phased {τ : Type} (clock : Clock τ) (host : Observer τ) :
    Keeps (clock.beside Scene) (host.both observer) fun s => s.2.Phased := by
  refine ⟨fun hs => hs, fun {event} htimed {s} hs => ?_⟩
  cases event with
  | frame tick elapsed flock =>
    obtain ⟨waited, rfl⟩ := htimed elapsed rfl
    exact Phased.advance hs waited.nonneg_seconds flock
  | tickStarts tick => exact hs
  | tickEnds tick step => exact hs
  | stops time => exact hs

/-- Whether all pictures of lights in a scene can be drawn. -/
def InRange (scene : Scene) : Prop := ∀ picture ∈ scene.lights, picture.InRange

theorem inRange_iff : scene.InRange ↔ scene.Phased :=
  forall₂_congr fun _ _ => ⟨fun h => h.phases, fun h => h.inRange⟩

/-- **Pulses stay in range.** The picture of a light, however the light is edited and however much
time passes, has its phases between zero and one, and each of its halos has a radius between zero
and one half and an alpha between zero and one. So have all lights of a scene after any calls. They
still have while the scene watches a schedule, after any number of ticks, after any run, and
wherever one is interrupted. -/
theorem pulses_stay_in_range :
    (∀ light changes, (∀ change ∈ changes, LightPicture.Change.IsForward change) →
      (LightPicture.changed light changes).InRange) ∧
    (∀ calls : List Call, (∀ call ∈ calls, call.IsForward) → (after calls).InRange) ∧
    ∀ {τ : Type} (clock : Clock τ) (host : Observer τ) (schedule : Schedule) (c : τ)
      (scene : Scene), scene.InRange →
      (∀ n, Leaves (fun s => s.2.InRange) (·.2.2)
        (schedule.ticks (clock.beside Scene) (host.both observer) n (c, scene))) ∧
      ∀ stopped, Leaves (fun s => s.2.InRange) (·.2)
        (schedule.run (clock.beside Scene) (host.both observer) stopped (c, scene)) := by
  refine ⟨fun light changes hforward => (LightPicture.phased_changed light hforward).inRange,
    fun calls hforward => inRange_iff.mpr (phased_after hforward),
    fun clock host schedule c scene hscene => ?_⟩
  simp only [inRange_iff] at hscene ⊢
  exact ⟨(keeps_phased clock host).ticks hscene, (keeps_phased clock host).run hscene⟩

/-- A light that is turned dark and then into no number, while its pulses come to the end of their
period, jump to infinity and creep on. -/
def flicker : List LightPicture.Change :=
  [.advance 0.67, .update ⟨.zero, -3.0⟩, .advance (1.0 / 0.0), .update ⟨.zero, 0.0 / 0.0⟩,
    .advance 5e-324]

/-- A flock of one light and no vehicles. -/
def lantern : Flock := .ofArray ⟨#[⟨.zero, 2.0⟩]⟩ #[]

/-- The pulses of a flickering light stay in range, and so do those of a lantern that is shown with
an infinite span of time and then watched for three ticks. -/
theorem pulses_stay_in_range_flicker :
    (∀ change ∈ flicker, change.IsForward) ∧
      (LightPicture.changed ⟨.zero, 2.0⟩ flicker).InRange ∧
      (∀ call ∈ [Call.capture lantern, .advance (1.0 / 0.0) lantern], call.IsForward) ∧
      (after [.capture lantern, .advance (1.0 / 0.0) lantern]).lights.length = 1 ∧
      (after [.capture lantern, .advance (1.0 / 0.0) lantern]).InRange ∧
      Leaves (fun s => s.2.InRange) (·.2.2)
        ({ Schedule.lone .zero with flock := lantern }.ticks (Clock.ofReadings.beside Scene)
          (Observer.idle.both observer) 3
          ([], after [.capture lantern, .advance (1.0 / 0.0) lantern])) := by
  have hflicker : ∀ change ∈ flicker, change.IsForward := by decide +kernel
  have hcalls : ∀ call ∈ [Call.capture lantern, .advance (1.0 / 0.0) lantern], call.IsForward := by
    decide
  obtain ⟨hpicture, hscene, hschedule⟩ := pulses_stay_in_range
  exact ⟨hflicker, hpicture _ _ hflicker, hcalls, rfl, hscene _ hcalls,
    (hschedule _ _ _ _ _ (hscene _ hcalls)).1 3⟩

end Scene

end Phototaxis
