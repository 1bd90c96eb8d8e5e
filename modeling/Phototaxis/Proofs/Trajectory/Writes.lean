import Mathlib
import Phototaxis.Proofs.Trajectory.Recording

/-!
# What a recording writes

A recording keeps three accounts of the frames that are handed over, and they grow at
different times: the frames seen and the simulated seconds with every frame, the frames
recorded only when a frame is due. What it writes has to go by the right one. Records are
numbered without gaps, but the total in their summaries includes the frames between them.

The sink is asked for nothing else than the records, in turn: the vehicles of a record, if
there are any, and then its summary (`FrameRecord.writes`). A record should have one row for
each vehicle, and its summary should say how many (`FrameRecord.Tells`). That is so for every
recording (`Recorder.recording_exact`), even if the sink fails, because a recording goes on
then as if it had not.

Slots are numbered with 32 bits. In a flock with more vehicles than numbers the rows would
repeat some of them, and so such flocks are left out. Frames are counted with 64 bits, and
no more of them are looked at than can be counted.
-/

namespace Phototaxis

/-! ## Writes -/

/-- What a recording asks of its sink. -/
inductive Write where
  | vehicles (rows : List VehicleRow)
  | summary (row : FrameSummary)
  | finish

namespace Sink

variable {ω ε : Type}

/-- What the sink does when it is asked. -/
def perform (out : Sink ω ε) : Write → ω → Option ε × ω
  | .vehicles rows => out.writeVehicles rows
  | .summary row => out.writeSummary row
  | .finish => out.finish

/-- The sink after some writes, whether they failed or not. -/
def performAll (out : Sink ω ε) (writes : List Write) (s : ω) : ω :=
  writes.foldl (fun s write => (out.perform write s).2) s

theorem performAll_append (out : Sink ω ε) (writes writes' : List Write) (s : ω) :
    out.performAll (writes ++ writes') s = out.performAll writes' (out.performAll writes s) :=
  List.foldl_append

/-- A list to which each write appends something has all of it appended in the end. -/
theorem performAll_appends {α : Type} {out : Sink ω ε} (view : ω → List α)
    {part : Write → List α} (h : ∀ write s, view (out.perform write s).2 = view s ++ part write)
    (writes : List Write) (s : ω) :
    view (out.performAll writes s) = view s ++ writes.flatMap part := by
  induction writes generalizing s with
  | nil => exact (List.append_nil _).symm
  | cons write writes ih =>
    rw [List.flatMap_cons, ← List.append_assoc, ← h]
    exact ih _

/-- A sink that takes every write down has taken all of them down in the end. -/
theorem performAll_of_appends {out : Sink (List Write) ε}
    (h : ∀ write s, (out.perform write s).2 = s ++ [write]) (writes s : List Write) :
    out.performAll writes s = s ++ writes :=
  (performAll_appends id h writes s).trans (congrArg (s ++ ·) (List.flatMap_singleton' writes))

/-- The sink that only takes down what it is asked. -/
def log (ε : Type) : Sink (List Write) ε where
  writeVehicles rows s := (none, s ++ [.vehicles rows])
  writeSummary row s := (none, s ++ [.summary row])
  finish s := (none, s ++ [.finish])

theorem performAll_log (writes s : List Write) : (log ε).performAll writes s = s ++ writes := by
  refine performAll_of_appends ?_ writes s
  rintro (rows | row | -) s <;> rfl

end Sink

/-! ## Frames -/

/-- One recorded frame. -/
structure FrameRecord where
  rows : List VehicleRow
  summary : FrameSummary

namespace FrameRecord

/-- The frame with this number, when so many seconds have been simulated. -/
def ofHandOver (number : UInt64) (total : Float) (frame : HandOver) : FrameRecord where
  rows := frame.flock.rows number frame.tick
  summary :=
    ⟨number, frame.tick, frame.elapsed, total, .ofNat frame.flock.size, frame.flock.meanSpeed⟩

/-- What is written of a frame: its rows, if there are any, and then its summary. -/
def writes (record : FrameRecord) : List Write :=
  (if record.rows.isEmpty then [] else [.vehicles record.rows]) ++ [.summary record.summary]

/-- Whether a record says of a frame what is to be said: one row for each vehicle, in the order of
the slots, and then how many rows there are. -/
structure Tells (record : FrameRecord) (number : UInt64) (total : Float) (frame : HandOver) :
    Prop where
  length : record.rows.length = frame.flock.size
  row : ∀ slot v, frame.flock.vehicles[slot]? = some v → ∃ id : VehicleId, id.index = slot ∧
    record.rows[slot]? = some ⟨number, frame.tick, id, v.position.x, v.position.y, v.heading,
      v.speed, v.behavior.name⟩
  summary : record.summary = ⟨number, frame.tick, frame.elapsed, total, .ofNat record.rows.length,
    frame.flock.meanSpeed⟩
  vehicleCount : record.summary.vehicleCount.toNat = record.rows.length

end FrameRecord

theorem Flock.length_rows (flock : Flock) (number : UInt64) (tick : Tick) :
    (flock.rows number tick).length = flock.size := by
  simp [rows, numbered, size, vehicles, Population.size]

theorem SlotId.index_numbering {kind : SlotKind} {slot : ℕ} (h : slot < 2 ^ 32) :
    (numbering slot : SlotId kind).index = slot :=
  Nat.mod_eq_of_lt h

/-- **The record of a frame tells the frame**, as long as its slots have numbers. -/
theorem FrameRecord.tells_ofHandOver {frame : HandOver} (h : frame.flock.size ≤ 2 ^ 32)
    (number : UInt64) (total : Float) :
    (ofHandOver number total frame).Tells number total frame := by
  have hlength : (ofHandOver number total frame).rows.length = frame.flock.size :=
    frame.flock.length_rows number frame.tick
  refine ⟨hlength, fun slot v hv => ?_, ?_, ?_⟩
  · have hslot : slot < frame.flock.size := (Array.getElem?_eq_some_iff.mp hv).1
    refine ⟨.numbering slot, SlotId.index_numbering (hslot.trans_le h), ?_⟩
    simp [ofHandOver, Flock.rows, Flock.numbered, hv, VehicleRow.ofVehicle]
  · rw [hlength]
    rfl
  · rw [hlength]
    exact UInt64.toNat_ofNat_of_lt' (h.trans_lt (by decide))

/-! ## The records of some frames -/

namespace HandOver

/-- A frame is handed over. -/
def event (frame : HandOver) : Event := .frame frame.tick frame.elapsed frame.flock

/-- The simulated seconds of some frames, added up in turn. -/
def totalElapsed (frames : List HandOver) : Float :=
  frames.foldl (fun total frame => total + frame.elapsed) 0.0

theorem totalElapsed_concat (frames : List HandOver) (frame : HandOver) :
    totalElapsed (frames ++ [frame]) = totalElapsed frames + frame.elapsed := List.foldl_concat ..

end HandOver

namespace FrameRecord

open HandOver

variable {interval : ℕ} {frames : List HandOver} {frame : HandOver} {records : List FrameRecord}

/-- Whether these are the records of one frame in `interval`, each with the total of all frames up
to its own. -/
def Sample (interval : ℕ) (frames : List HandOver) (records : List FrameRecord) : Prop :=
  ∀ number, records[number]? = frames[number * interval]?.map
    (ofHandOver (.ofNat number) (totalElapsed (frames.take (number * interval + 1))))

theorem Sample.length_le_iff (h : Sample interval frames records) (number : ℕ) :
    records.length ≤ number ↔ frames.length ≤ number * interval := by
  rw [← List.getElem?_eq_none_iff, h number, Option.map_eq_none_iff, List.getElem?_eq_none_iff]

theorem Sample.length_eq (h : Sample interval frames records) (hpos : 0 < interval) :
    records.length = frames.length ⌈/⌉ interval := by
  refine eq_of_forall_ge_iff fun number => ?_
  rw [h.length_le_iff, ceilDiv_le_iff_le_mul hpos, mul_comm]

/-- A frame is due when the records so far reach up to it. -/
theorem Sample.length_mul (h : Sample interval frames records)
    (hdue : frames.length % interval = 0) : records.length * interval = frames.length := by
  obtain ⟨number, hnumber⟩ := Nat.dvd_of_mod_eq_zero hdue
  have hle : records.length ≤ number := (h.length_le_iff number).mpr (by rw [hnumber, mul_comm])
  have hge : frames.length ≤ records.length * interval := (h.length_le_iff _).mp le_rfl
  refine le_antisymm ?_ hge
  rw [hnumber, mul_comm]
  exact Nat.mul_le_mul_left interval hle

/-- The records of frames that are behind are not changed by one frame more. -/
theorem Sample.getElem?_of_lt (h : Sample interval frames records) (frame : HandOver) {number : ℕ}
    (hnumber : number * interval < frames.length) :
    records[number]? = (frames ++ [frame])[number * interval]?.map
      (ofHandOver (.ofNat number)
        (totalElapsed ((frames ++ [frame]).take (number * interval + 1)))) := by
  rw [List.getElem?_append_left hnumber, List.take_append_of_le_length hnumber]
  exact h number

/-- **A frame that is due** adds a record. -/
theorem Sample.concat_due (h : Sample interval frames records) (hpos : 0 < interval)
    (hdue : frames.length % interval = 0) (frame : HandOver) :
    Sample interval (frames ++ [frame]) (records ++
      [ofHandOver (.ofNat records.length) (totalElapsed frames + frame.elapsed) frame]) := by
  have hlength := h.length_mul hdue
  have htake : (frames ++ [frame]).take (frames.length + 1) = frames ++ [frame] :=
    List.take_of_length_le List.length_append.le
  intro number
  rcases lt_trichotomy number records.length with hlt | rfl | hgt
  · rw [List.getElem?_append_left hlt]
    exact h.getElem?_of_lt frame (hlength ▸ Nat.mul_lt_mul_of_pos_right hlt hpos)
  · rw [List.getElem?_concat_length, hlength, List.getElem?_concat_length, Option.map_some,
      htake, totalElapsed_concat]
  · -- No other frame is due before `interval` more.
    have hbehind : frames.length < number * interval :=
      hlength ▸ Nat.mul_lt_mul_of_pos_right hgt hpos
    rw [List.getElem?_eq_none, List.getElem?_eq_none, Option.map_none]
    · rwa [List.length_append]
    · rwa [List.length_append]

/-- **A frame that is not due** adds nothing. -/
theorem Sample.concat_skipped (h : Sample interval frames records)
    (hskipped : frames.length % interval ≠ 0) (frame : HandOver) :
    Sample interval (frames ++ [frame]) records := by
  intro number
  rcases lt_trichotomy (number * interval) frames.length with hlt | heq | hgt
  · exact h.getElem?_of_lt frame hlt
  · exact absurd (heq ▸ Nat.mul_mod_left number interval) hskipped
  · rw [List.getElem?_eq_none ((h.length_le_iff number).mpr hgt.le),
      List.getElem?_eq_none (by rwa [List.length_append]), Option.map_none]

end FrameRecord

/-! ## The recording -/

namespace Recorder

open HandOver

variable {ω ε : Type} (out : Sink ω ε)

/-- A new recording of every `n`-th frame, after these frames were handed over. -/
def ofFrames (s : ω) (n : UInt64) (frames : List HandOver) : Recorder ω ε :=
  Schedule.watch (observer out) (frames.map event) (everyNth { sink := s } n)

theorem ofFrames_concat (s : ω) (n : UInt64) (frames : List HandOver) (frame : HandOver) :
    ofFrames out s n (frames ++ [frame])
      = (ofFrames out s n frames).onFrame out frame.tick frame.elapsed frame.flock := by
  unfold ofFrames Schedule.watch
  rw [List.map_append, List.foldl_append]
  rfl

section OneFrame

variable (r : Recorder ω ε) (frame : HandOver)

theorem totalSimulated_onFrame :
    (r.onFrame out frame.tick frame.elapsed frame.flock).totalSimulated
      = r.totalSimulated + frame.elapsed := by
  unfold onFrame record recordVehicles
  dsimp only
  split
  · split <;> rfl
  · rfl

/-- A record is written as it is, whatever becomes of it. -/
theorem sink_record : (r.record out frame.tick frame.elapsed frame.flock).sink
    = out.performAll (FrameRecord.ofHandOver r.frames r.totalSimulated frame).writes r.sink := by
  unfold record recordVehicles FrameRecord.writes FrameRecord.ofHandOver
  dsimp only
  split <;> rfl

/-- **What one frame makes a recording write.** The total is the one with the frame in it. -/
theorem sink_onFrame : (r.onFrame out frame.tick frame.elapsed frame.flock).sink
    = out.performAll (if r.seen % r.interval = 0 then
        (FrameRecord.ofHandOver r.frames (r.totalSimulated + frame.elapsed) frame).writes else [])
      r.sink := by
  unfold onFrame
  dsimp only
  split
  · exact sink_record ..
  · rfl

end OneFrame

/-- What a recording is like after some frames, with the records that it has made of them. -/
structure Accounts (s : ω) (interval : UInt64) (frames : List HandOver)
    (records : List FrameRecord) (r : Recorder ω ε) : Prop where
  interval_eq : r.interval = interval
  seen_eq : r.seen = .ofNat frames.length
  frames_eq : r.frames = .ofNat records.length
  total_eq : r.totalSimulated = totalElapsed frames
  sink_eq : r.sink = out.performAll (records.flatMap FrameRecord.writes) s
  sample : FrameRecord.Sample interval.toNat frames records

variable {out} {s : ω} {interval : UInt64} {frames : List HandOver} {records : List FrameRecord}
variable {r : Recorder ω ε}

/-- **The accounts agree after one more frame**, if there is a number for it. -/
theorem Accounts.onFrame (h : Accounts out s interval frames records r)
    (hpos : 0 < interval.toNat) (hroom : frames.length < UInt64.size) (frame : HandOver) :
    ∃ records', Accounts out s interval (frames ++ [frame]) records'
      (r.onFrame out frame.tick frame.elapsed frame.flock) := by
  have hinterval : (r.onFrame out frame.tick frame.elapsed frame.flock).interval = interval :=
    (interval_onFrame out r).trans h.interval_eq
  have hseen : (r.onFrame out frame.tick frame.elapsed frame.flock).seen
      = .ofNat (frames ++ [frame]).length := by
    rw [seen_onFrame, h.seen_eq, List.length_append, List.length_singleton, UInt64.ofNat_add]
    rfl
  have htotal : (r.onFrame out frame.tick frame.elapsed frame.flock).totalSimulated
      = totalElapsed (frames ++ [frame]) := by
    rw [totalSimulated_onFrame, h.total_eq, totalElapsed_concat]
  have hdueIff : r.seen % r.interval = 0 ↔ frames.length % interval.toNat = 0 := by
    rw [h.seen_eq, h.interval_eq]
    exact due_ofNat_iff hroom interval
  by_cases hdue : frames.length % interval.toNat = 0
  · refine ⟨_, hinterval, hseen, ?_, htotal, ?_, h.sample.concat_due hpos hdue frame⟩
    · rw [frames_onFrame, if_pos (hdueIff.mpr hdue), h.frames_eq, List.length_append,
        List.length_singleton, UInt64.ofNat_add]
      rfl
    · rw [sink_onFrame, if_pos (hdueIff.mpr hdue), h.sink_eq, ← Sink.performAll_append,
        h.frames_eq, h.total_eq, List.flatMap_append, List.flatMap_singleton]
  · refine ⟨records, hinterval, hseen, ?_, htotal, ?_, h.sample.concat_skipped hdue frame⟩
    · rw [frames_onFrame, if_neg (mt hdueIff.mp hdue), h.frames_eq]
    · rw [sink_onFrame, if_neg (mt hdueIff.mp hdue), h.sink_eq]
      rfl

theorem toNat_max_one (n : UInt64) : (max n 1).toNat = max n.toNat 1 := by
  rw [UInt64.max_def, Nat.max_def, apply_ite UInt64.toNat]
  exact if_congr UInt64.le_iff_toNat_le rfl rfl

/-- No interval is zero. -/
theorem max_one_pos (n : UInt64) : 0 < (max n 1).toNat := toNat_max_one n ▸ Nat.le_max_right ..

/-- The accounts agree after all frames. -/
theorem accounts_ofFrames (out : Sink ω ε) (s : ω) (n : UInt64) (frames : List HandOver)
    (hroom : frames.length ≤ UInt64.size) : ∃ records,
    Accounts out s (max n 1) frames records (ofFrames out s n frames) := by
  -- From the last frame back: a total is added up from the first frame on.
  induction frames using List.reverseRecOn with
  | nil => exact ⟨[], rfl, rfl, rfl, rfl, rfl, fun _ => rfl⟩
  | append_singleton frames frame ih =>
    rw [List.length_append, List.length_singleton] at hroom
    obtain ⟨records, hrecords⟩ := ih (Nat.le_of_succ_le hroom)
    rw [ofFrames_concat]
    exact hrecords.onFrame (max_one_pos n) hroom frame

/-- If the frames can be counted, the records are, since there are no more of them. -/
theorem Accounts.toNat_frames (h : Accounts out s interval frames records r)
    (hpos : 0 < interval.toNat) (hcount : frames.length < UInt64.size) :
    r.frames.toNat = records.length := by
  have hle : records.length ≤ frames.length :=
    (h.sample.length_le_iff _).mpr (Nat.le_mul_of_pos_right _ hpos)
  rw [h.frames_eq]
  exact UInt64.toNat_ofNat_of_lt' (hle.trans_lt hcount)

/-- **A recording is exact.** A new recording of every `n`-th frame has one record for every `n`-th
frame from the first one on, where zero counts as one. The sink is asked to write the records, one
after the other, and nothing else. Each record tells its own frame, with its number among the
records and the total of all frames up to it, whether they were recorded or not. This holds for all
frames that can be counted, and then every record has a number. -/
theorem recording_exact (out : Sink ω ε) (s : ω) (n : UInt64) (frames : List HandOver)
    (hcount : frames.length < UInt64.size)
    (hsize : ∀ frame ∈ frames, frame.flock.size ≤ 2 ^ 32) : ∃ records : List FrameRecord,
      (ofFrames out s n frames).sink = out.performAll (records.flatMap FrameRecord.writes) s ∧
      (ofFrames out s n frames).frames.toNat = records.length ∧
      records.length = frames.length ⌈/⌉ max n.toNat 1 ∧
      ∀ (number : UInt64) record, records[number.toNat]? = some record → ∃ frame,
        frames[number.toNat * max n.toNat 1]? = some frame ∧
        record.Tells number (totalElapsed (frames.take (number.toNat * max n.toNat 1 + 1)))
          frame := by
  obtain ⟨records, h⟩ := accounts_ofFrames out s n frames hcount.le
  refine ⟨records, h.sink_eq, h.toNat_frames (max_one_pos n) hcount, ?_,
    fun number record hrecord => ?_⟩
  · rw [← toNat_max_one]
    exact h.sample.length_eq (max_one_pos n)
  · rw [h.sample number.toNat, toNat_max_one, UInt64.ofNat_toNat] at hrecord
    obtain ⟨frame, hframe, rfl⟩ := Option.map_eq_some_iff.mp hrecord
    exact ⟨frame, hframe,
      FrameRecord.tells_ofHandOver (hsize frame (List.mem_of_getElem? hframe)) number _⟩

/-- Three frames, with fewer vehicles every time and none in the last one. -/
def vanishing : List HandOver :=
  [⟨⟨2⟩, 0.5, .ofArray default #[default, default]⟩, ⟨⟨3⟩, 0.25, .ofArray default #[default]⟩,
    ⟨⟨7⟩, 1.0, .ofArray default #[]⟩]

/-- Every second frame of three is recorded, which makes two records. No vehicles are written for
the second one. The frame between them counts for its total, but not for its number. -/
theorem recording_exact_everySecond : ∃ records : List FrameRecord,
    (ofFrames (Sink.log Empty) [] 2 vanishing).sink = records.flatMap FrameRecord.writes ∧
      records.length = 2 ∧ ∃ record, records[1]? = some record ∧
        record.writes = [.summary ⟨1, ⟨7⟩, 1.0, 0.0 + 0.5 + 0.25 + 1.0, 0, 0.0⟩] := by
  have hsize : ∀ frame ∈ vanishing, frame.flock.size ≤ 2 ^ 32 := by
    decide
  obtain ⟨records, hsink, _, hcount, htells⟩ :=
    recording_exact (Sink.log Empty) [] 2 vanishing (by decide) hsize
  rw [Sink.performAll_log, List.nil_append] at hsink
  have hlength : records.length = 2 := hcount
  have hsecond : 1 < records.length := hlength ▸ Nat.one_lt_two
  obtain ⟨_, hframe, hlast⟩ := htells 1 records[1] (List.getElem?_eq_getElem hsecond)
  cases hframe
  refine ⟨records, hsink, hlength, records[1], List.getElem?_eq_getElem hsecond, ?_⟩
  have hempty : records[1].rows = [] := List.length_eq_zero_iff.mp hlast.length
  rw [FrameRecord.writes, hlast.summary, hempty]
  rfl

end Recorder

end Phototaxis
