import Mathlib
import Phototaxis.Proofs.Picture.History
import Phototaxis.Proofs.Schedule.Onlookers
import Phototaxis.Proofs.Schedule.Protocol
import Phototaxis.Proofs.Trajectory.Writes

/-!
# All consumers of a run agree

What is seen of a run is kept in three places: the schedule counts the frames that it
hands over, a scene shows them, and a recording writes down one in so many. Each keeps its
own count and its own sum of seconds, and each at another moment of the tick. They agree
because each of them is a function of one list, the frames that are handed over.

That list can be read off any run (`Schedule.frames_of_ticks`). After it a scene has the
accounts of `Scene.Accounts` and a recording those of `Recorder.Accounts`, and where the
last frame was recorded too, its record and the pictures are of the same flock
(`FrameRecord.shownAs_of_accounts`). So the accounts agree after every tick of every run,
and still after the stop (`Schedule.consumers_agree`).

All counts are words of 64 bits, but only the schedule checks that its own does not wrap
around. That is enough for the others: they count the same frames.
-/

namespace Phototaxis

/-! ## The frames of a run -/

/-- Whether an observer takes no notice of anything but frames and stops. -/
structure Observer.HearsFrames {σ : Type} (observer : Observer σ) : Prop where
  tickStarts : ∀ tick s, observer (.tickStarts tick) s = s
  tickEnds : ∀ tick step s, observer (.tickEnds tick step) s = s

theorem Scene.hearsFrames : Scene.observer.HearsFrames := ⟨fun _ _ => rfl, fun _ _ _ => rfl⟩

theorem Recorder.hearsFrames {ω ε : Type} (out : Sink ω ε) : (observer out).HearsFrames :=
  ⟨fun _ _ => rfl, fun _ _ _ => rfl⟩

theorem Observer.HearsFrames.both {σ τ : Type} {left : Observer σ} {right : Observer τ}
    (hleft : left.HearsFrames) (hright : right.HearsFrames) : (left.both right).HearsFrames :=
  ⟨fun tick s => Prod.ext (hleft.tickStarts tick s.1) (hright.tickStarts tick s.2),
    fun tick step s => Prod.ext (hleft.tickEnds tick step s.1) (hright.tickEnds tick step s.2)⟩

namespace Schedule

variable {σ τ : Type} {clock : Clock τ} {host : Observer τ} {observer : Observer σ}
variable {schedule after final : Schedule} {now : Duration} {report : TickReport}
variable {reports : List TickReport} {events : List Event} {n : ℕ} {c c' : τ} {s s' : σ}

/-- The frames that are handed over, as the schedule and the reports of its ticks say. -/
structure HandsOver (before : Schedule) (reports : List TickReport) (frames : List HandOver)
    (after : Schedule) : Prop where
  ticks_eq : frames.map (·.tick) = (reports.filter (·.handedOver)).map (·.tick)
  frames_eq : after.frames.toNat = before.frames.toNat + frames.length

/-- A schedule that has just been started counts all of its frames. -/
theorem HandsOver.length_eq {frames : List HandOver} (h : HandsOver schedule reports frames after)
    (hstart : schedule.frames = 0) : frames.length = after.frames.toNat := by
  rw [h.frames_eq, hstart]
  exact (Nat.zero_add _).symm

theorem HandsOver.cons {between : Schedule} {frames frames' : List HandOver}
    (h : HandsOver schedule [report] frames between)
    (h' : HandsOver between reports frames' after) :
    HandsOver schedule (report :: reports) (frames ++ frames') after := by
  constructor
  · rw [List.map_append, h.ticks_eq, h'.ticks_eq, ← List.map_append, ← List.filter_append]
    rfl
  · rw [h'.frames_eq, h.frames_eq, List.length_append, Nat.add_assoc]

/-- **A tick hands over a frame or none**, and of its events only that is heard. -/
theorem Ticked.handsOver (h : Ticked schedule now report after events) :
    ∃ frames, HandsOver schedule [report] frames after ∧
      ∀ {σ : Type} {observer : Observer σ}, observer.HearsFrames → ∀ s,
        watch observer events s = watch observer (frames.map HandOver.event) s := by
  cases h with
  | withoutFrame hdue hadd hflock htime =>
    exact ⟨[], ⟨rfl, rfl⟩, fun hears s => hears.tickEnds _ _ s⟩
  | @withFrame sinceFrame flock time frames hdue hadd hflock hcount htime =>
    exact ⟨[⟨_, sinceFrame.seconds, flock⟩], ⟨rfl, countFrame_eq_ok_iff.mp hcount⟩,
      fun hears s => hears.tickEnds _ _ _⟩

/-- **What a consumer of frames is told by a run** are the frames, in turn, whoever moves the
clock. -/
theorem frames_of_ticks (hears : observer.HearsFrames)
    (h : schedule.ticks (clock.beside σ) (host.both observer) n (c, s)
      = .ok (reports, final, c', s')) : ∃ frames, HandsOver schedule reports frames final ∧
      s' = watch observer (frames.map HandOver.event) s := by
  induction n generalizing schedule c s reports with
  | zero =>
    cases h
    exact ⟨[], ⟨rfl, rfl⟩, rfl⟩
  | succ n ih =>
    obtain ⟨report, next, ⟨c₁, s₁⟩, rest, htick, hrest, rfl⟩ := ticks_succ_eq_ok_iff.mp h
    unfold tick at htick
    obtain ⟨events, hticked, hwatch⟩ := tickAt_eq_ok_iff.mp htick
    obtain ⟨frames, hhandsOver, hheard⟩ := hticked.handsOver
    obtain ⟨frames', hhandsOver', rfl⟩ := ih hrest
    obtain rfl : s₁ = watch observer (frames.map HandOver.event) s := by
      refine (congrArg Prod.snd (hwatch.trans (watch_both events _ _))).trans ?_
      rw [hheard hears]
      show watch observer _ (observer (.tickStarts _) s) = _
      rw [hears.tickStarts]
    refine ⟨frames ++ frames', hhandsOver.cons hhandsOver', ?_⟩
    rw [List.map_append, watch, watch, watch, List.foldl_append]

end Schedule

/-! ## The accounts of a scene -/

namespace Scene

variable {shown : Flock} {frames : List HandOver} {scene : Scene}

/-- What a scene that has started with a flock is like after some frames. -/
structure Accounts (shown : Flock) (frames : List HandOver) (scene : Scene) : Prop where
  frames_eq : scene.frames = .ofNat frames.length
  seconds_eq : scene.shownSeconds = HandOver.totalElapsed frames
  tick_eq : scene.tick = (frames.getLast?.map (·.tick)).getD .zero
  vehicles_eq : scene.vehicles = vehiclePictures ((frames.getLast?.map (·.flock)).getD shown)

/-- **The accounts agree after one more frame.** -/
theorem Accounts.onFrame (h : Accounts shown frames scene) (frame : HandOver) :
    Accounts shown (frames ++ [frame])
      (scene.onFrame frame.tick frame.elapsed frame.flock) := by
  constructor
  · show scene.frames + 1 = _
    rw [h.frames_eq, List.length_append, List.length_singleton, UInt64.ofNat_add]
    rfl
  · show scene.shownSeconds + frame.elapsed = _
    rw [h.seconds_eq, HandOver.totalElapsed_concat]
  · rw [List.getLast?_concat]
    rfl
  · rw [List.getLast?_concat]
    show updateVehicles scene.vehicles frame.flock = _
    rw [h.vehicles_eq]
    exact updateVehicles_vehiclePictures _ _

/-- The accounts agree after all frames. -/
theorem accounts_watch (shown : Flock) (frames : List HandOver) : Accounts shown frames
    (Schedule.watch observer (frames.map HandOver.event) (ofFlock shown)) := by
  -- from the last frame back, as what is shown is the last flock
  induction frames using List.reverseRecOn with
  | nil => exact ⟨rfl, rfl, rfl, updateVehicles_vehiclePictures default shown⟩
  | append_singleton frames frame ih =>
    rw [List.map_append, Schedule.watch, List.foldl_append]
    exact ih.onFrame frame

end Scene

/-! ## The last record and the pictures -/

/-- Whether a row and a picture put the same vehicle in the same place, turned the same way. -/
structure VehicleRow.ShownAs (row : VehicleRow) (picture : VehiclePicture) : Prop where
  vehicle : row.vehicle = picture.id
  x : row.x = picture.position.x
  y : row.y = picture.position.y
  heading : row.heading = picture.heading

/-- Whether a record is of the frame that a scene shows: with its tick, its seconds, and a row for
every picture of a vehicle, slot by slot. -/
structure FrameRecord.ShownAs (record : FrameRecord) (scene : Scene) : Prop where
  tick : record.summary.tick = scene.tick
  total : record.summary.total = scene.shownSeconds
  rows : List.Forall₂ VehicleRow.ShownAs record.rows scene.vehicles

theorem Flock.shownAs_rows (flock : Flock) (number : UInt64) (tick : Tick) :
    List.Forall₂ VehicleRow.ShownAs (flock.rows number tick) (Scene.vehiclePictures flock) := by
  rw [rows, numbered, List.map_map, Scene.vehiclePictures, List.forall₂_map_left_iff,
    List.forall₂_map_right_iff]
  exact List.forall₂_same.mpr fun _ _ => ⟨rfl, rfl, rfl, rfl⟩

namespace FrameRecord

variable {interval : ℕ} {frames : List HandOver} {frame : HandOver} {records : List FrameRecord}

/-- **The last record is that of the last frame**, if that one is due. -/
theorem Sample.getLast? (h : Sample interval (frames ++ [frame]) records) (hpos : 0 < interval)
    (hdue : frames.length % interval = 0) : ∃ number, records.getLast?
      = some (ofHandOver number (HandOver.totalElapsed (frames ++ [frame])) frame) := by
  obtain ⟨number, hnumber⟩ := Nat.dvd_of_mod_eq_zero hdue
  rw [mul_comm] at hnumber
  have hsome : records[number]?
      = some (ofHandOver (.ofNat number) (HandOver.totalElapsed (frames ++ [frame])) frame) := by
    have htake : (frames ++ [frame]).take (frames.length + 1) = frames ++ [frame] :=
      List.take_of_length_le List.length_append.le
    rw [h number, ← hnumber, List.getElem?_concat_length, htake]
    rfl
  have hlength : records.length = number + 1 := by
    refine le_antisymm ((h.length_le_iff _).mpr ?_) (List.getElem?_eq_some_iff.mp hsome).1
    rw [List.length_append, List.length_singleton, hnumber, Nat.succ_mul]
    exact Nat.add_le_add_left hpos _
  refine ⟨.ofNat number, ?_⟩
  rw [List.getLast?_eq_getElem?, hlength]
  exact hsome

/-- **Scene and recording show the same frame**, if the last one was recorded. -/
theorem shownAs_of_accounts {ω ε : Type} {out : Sink ω ε} {s : ω} {interval : UInt64}
    {r : Recorder ω ε} {shown : Flock} {scene : Scene}
    (hscene : Scene.Accounts shown frames scene)
    (hrecorder : Recorder.Accounts out s interval frames records r)
    (hroom : frames.length ≤ UInt64.size) (hpos : 0 < interval.toNat)
    (hseen : 0 < r.seen) (hdue : (r.seen - 1) % interval = 0) :
    ∃ record, records.getLast? = some record ∧ record.ShownAs scene := by
  obtain rfl | ⟨before, last, rfl⟩ := List.eq_nil_or_concat' frames
  · rw [hrecorder.seen_eq] at hseen
    cases hseen
  · rw [List.length_append, List.length_singleton] at hroom
    have hbefore : r.seen - 1 = .ofNat before.length := by
      rw [hrecorder.seen_eq, List.length_append, UInt64.ofNat_add]
      exact UInt64.add_sub_cancel _ 1
    rw [hbefore, Recorder.due_ofNat_iff hroom] at hdue
    obtain ⟨number, hlast⟩ := hrecorder.sample.getLast? hpos hdue
    refine ⟨_, hlast, ?_, hscene.seconds_eq.symm, ?_⟩
    · rw [hscene.tick_eq, List.getLast?_concat]
      rfl
    · rw [hscene.vehicles_eq, List.getLast?_concat]
      exact last.flock.shownAs_rows number last.tick

end FrameRecord

/-! ## Agreement -/

/-- What a schedule, a scene and a recording of every `n`-th frame agree on after some ticks: how
many frames were handed over, how many of them are recorded, how many seconds have been simulated,
and what the last frame was. The records that the recording has made are asked of its sink, and
behind them what is asked at the end. -/
structure ConsumersAgree {ω ε : Type} (out : Sink ω ε) (s : ω) (n : UInt64)
    (reports : List TickReport) (final : Schedule) (scene : Scene) (recorder : Recorder ω ε)
    (ending : List Write) : Prop where
  counted : scene.frames = final.frames
  handedOver : scene.frames.toNat = (reports.filter (·.handedOver)).length
  seen : scene.frames = recorder.seen
  recorded : recorder.frames.toNat = scene.frames.toNat ⌈/⌉ max n.toNat 1
  seconds : scene.shownSeconds = recorder.totalSimulated
  tick : ∀ report, (reports.filter (·.handedOver)).getLast? = some report →
    scene.tick = report.tick
  records : ∃ records : List FrameRecord, records.length = recorder.frames.toNat ∧
    recorder.sink = out.performAll (records.flatMap FrameRecord.writes ++ ending) s ∧
    (0 < recorder.seen → (recorder.seen - 1) % max n 1 = 0 →
      ∃ record, records.getLast? = some record ∧ record.ShownAs scene)

namespace ConsumersAgree

variable {ω ε : Type} {out : Sink ω ε} {s : ω} {n : UInt64} {shown : Flock}
variable {schedule final : Schedule} {reports : List TickReport} {frames : List HandOver}
variable {records : List FrameRecord} {scene : Scene} {recorder : Recorder ω ε}

/-- **Accounts of the same frames agree.** -/
theorem of_accounts (hstart : schedule.frames = 0)
    (hframes : Schedule.HandsOver schedule reports frames final)
    (hscene : Scene.Accounts shown frames scene)
    (hrecorder : Recorder.Accounts out s (max n 1) frames records recorder) :
    ConsumersAgree out s n reports final scene recorder [] := by
  have hpos : 0 < (max n 1).toNat := Recorder.max_one_pos n
  have hlength := hframes.length_eq hstart
  have hcount : frames.length < UInt64.size := hlength ▸ final.frames.toNat_lt_size
  have hcounted : scene.frames = final.frames := by
    rw [hscene.frames_eq, hlength, UInt64.ofNat_toNat]
  have hrecorded : recorder.frames.toNat = records.length := hrecorder.toNat_frames hpos hcount
  constructor
  · exact hcounted
  · rw [hcounted, ← hlength]
    simpa using congrArg List.length hframes.ticks_eq
  · rw [hscene.frames_eq, hrecorder.seen_eq]
  · rw [hrecorded, hrecorder.sample.length_eq hpos, hcounted, hlength, Recorder.toNat_max_one]
  · rw [hscene.seconds_eq, hrecorder.total_eq]
  · intro report hlast
    have hticks := congrArg List.getLast? hframes.ticks_eq
    rw [List.getLast?_map, List.getLast?_map, hlast] at hticks
    rw [hscene.tick_eq, hticks]
    rfl
  · refine ⟨records, hrecorded.symm, ?_,
      FrameRecord.shownAs_of_accounts hscene hrecorder hcount.le hpos⟩
    rw [List.append_nil]
    exact hrecorder.sink_eq

/-- At the end the recording asks its sink to finish, and nothing else changes. -/
theorem onStop (h : ConsumersAgree out s n reports final scene recorder []) :
    ConsumersAgree out s n reports final scene (recorder.onStop out) [.finish] := by
  obtain ⟨records, hlength, hsink, hlast⟩ := h.records
  refine ⟨h.counted, h.handedOver, h.seen, h.recorded, h.seconds, h.tick, records, hlength, ?_,
    hlast⟩
  rw [Sink.performAll_append, ← List.append_nil (records.flatMap _), ← hsink]
  rfl

end ConsumersAgree

namespace Schedule

variable {ω ε τ : Type} {out : Sink ω ε} {s : ω} {n : UInt64} {k : ℕ} {shown : Flock}
variable {clock : Clock τ} {host : Observer τ} {schedule final : Schedule} {c c' : τ}
variable {reports : List TickReport} {scene : Scene} {recorder : Recorder ω ε}

/-- A new scene of a flock and a new recording of every `n`-th frame agree after any number of
ticks. -/
theorem agree_of_ticks (hstart : schedule.frames = 0)
    (h : schedule.ticks (clock.beside _) (host.both (Scene.observer.both (Recorder.observer out))) k
        (c, .ofFlock shown, .everyNth { sink := s } n)
      = .ok (reports, final, c', scene, recorder)) :
    ConsumersAgree out s n reports final scene recorder [] := by
  obtain ⟨frames, hframes, hwatch⟩ :=
    frames_of_ticks (Scene.hearsFrames.both (Recorder.hearsFrames out)) h
  rw [watch_both] at hwatch
  cases hwatch
  have hroom : frames.length ≤ UInt64.size :=
    (hframes.length_eq hstart).trans_le final.frames.toNat_lt_size.le
  obtain ⟨records, hrecords⟩ := Recorder.accounts_ofFrames out s n frames hroom
  exact .of_accounts hstart hframes (Scene.accounts_watch shown frames) hrecords

/-- **All consumers of a run agree.** A schedule that has just been started, a scene of any flock
and a new recording of every `n`-th frame watch a run, whoever else watches it or moves the clock.
After any number of ticks they agree, and still when they have then been told of a stop. So they do
after a run that stops: it is such a number of ticks, and the stop. -/
theorem consumers_agree (clock : Clock τ) (host : Observer τ) (out : Sink ω ε) (n : UInt64)
    (shown : Flock) {flock : Flock} {timing : Timing} {reading : Duration}
    (hstart : start flock timing reading = .ok schedule) (c : τ) (s : ω) :
    let consumers := Scene.observer.both (Recorder.observer out)
    let ready : Scene × Recorder ω ε := (.ofFlock shown, .everyNth { sink := s } n)
    (∀ k reports final c' scene recorder,
      schedule.ticks (clock.beside _) (host.both consumers) k (c, ready)
        = .ok (reports, final, c', scene, recorder) →
      ConsumersAgree out s n reports final scene recorder [] ∧
      ∀ time scene' recorder', consumers (.stops time) (scene, recorder) = (scene', recorder') →
        ConsumersAgree out s n reports final scene' recorder' [.finish]) ∧
    ∀ stopped final c' scene recorder,
      schedule.run (clock.beside _) (host.both consumers) stopped (c, ready)
        = .ok (final, c', scene, recorder) →
      ∃ k reports c₁ before,
        schedule.ticks (clock.beside _) (host.both consumers) k (c, ready)
          = .ok (reports, final, c₁, before) ∧
        (c', scene, recorder) = host.both consumers (.stops final.time) (c₁, before) ∧
        ConsumersAgree out s n reports final scene recorder [.finish] := by
  have hzero : schedule.frames = 0 := by rw [eq_of_start hstart]
  refine ⟨fun k reports final c' scene recorder h => ?_,
    fun stopped final c' scene recorder h => ?_⟩
  · have hagree := agree_of_ticks hzero h
    refine ⟨hagree, fun time scene' recorder' hstop => ?_⟩
    cases hstop
    exact hagree.onStop
  · obtain ⟨k, ⟨c₁, before⟩, hstops, hstop⟩ := run_eq_ok_iff.mp h
    obtain ⟨reports, hticks⟩ := hstops.ticks_eq
    refine ⟨k, reports, c₁, before, hticks, hstop, ?_⟩
    cases hstop
    exact (agree_of_ticks hzero hticks).onStop

/-- The eager schedule hands four frames over under readings that once fall back. Of a recording of
every third frame these are the first and the last, which is the one that the scene shows. -/
theorem consumers_agree_eager : ∃ reports final scene recorder,
    start (lone .zero).flock ⟨Timing.standard.maxStep, .zero⟩ .zero = .ok eager ∧
    eager.ticks (Clock.ofReadings.beside _)
        (Observer.idle.both (Scene.observer.both (Recorder.observer (Sink.log Empty)))) 5
        (fallingBack, .ofFlock eager.flock, .everyNth { sink := [] } 3)
      = .ok (reports, final, [], scene, recorder) ∧
    scene.frames = 4 ∧ recorder.frames = 2 ∧ scene.shownSeconds = recorder.totalSimulated ∧
    ∃ records : List FrameRecord, records.length = 2 ∧
      recorder.sink = records.flatMap FrameRecord.writes ∧
      ∃ record, records.getLast? = some record ∧ record.ShownAs scene := by
  have hstart : start (lone .zero).flock ⟨Timing.standard.maxStep, .zero⟩ .zero = .ok eager := rfl
  obtain ⟨reports, final, scene, recorder, hticks, hframes⟩ : ∃ reports final scene recorder,
      eager.ticks (Clock.ofReadings.beside (Scene × Recorder (List Write) Empty))
        (Observer.idle.both (Scene.observer.both (Recorder.observer (Sink.log Empty)))) 5
        (fallingBack, .ofFlock eager.flock, .everyNth { sink := [] } 3)
      = .ok (reports, final, [], scene, recorder) ∧ final.frames = 4 :=
    ⟨_, _, _, _, rfl, rfl⟩
  obtain ⟨hagree, -⟩ := (consumers_agree Clock.ofReadings .idle (Sink.log Empty) 3 eager.flock
    hstart fallingBack []).1 5 _ _ _ _ _ hticks
  have hscene : scene.frames = 4 := hagree.counted.trans hframes
  have hseen : recorder.seen = 4 := hagree.seen.symm.trans hscene
  have hrecorded : recorder.frames.toNat = 2 := by
    rw [hagree.recorded, hscene]
    rfl
  obtain ⟨records, hlength, hsink, hlast⟩ := hagree.records
  rw [List.append_nil, Sink.performAll_log, List.nil_append] at hsink
  rw [hseen] at hlast
  exact ⟨reports, final, scene, recorder, hstart, hticks, hscene, UInt64.toNat_inj.mp hrecorded,
    hagree.seconds,
    records, hlength.trans hrecorded, hsink, hlast (by decide) (by decide)⟩

end Schedule

end Phototaxis
