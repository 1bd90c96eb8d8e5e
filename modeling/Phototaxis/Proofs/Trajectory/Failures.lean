import Mathlib
import Phototaxis.Proofs.Trajectory.Writes

/-!
# What a failing sink changes

Nothing that a recording does depends on whether its sink fails. An event makes it write what its
counts say (`Recorder.writesAt`), and what the sink answers only goes where the first failure is
kept. So a recording whose sink fails, at whatever writes, has asked for the same as one whose sink
never does, and counts the same frames.

The failures themselves are those of these writes, one after the other (`Sink.failures`). A request
for the failure is answered with the first of them since the last such request, or since the
recording began, and with nothing if there was none (`Recorder.failures_change_nothing`).
-/

namespace Phototaxis

variable {ω ω' ε ε' : Type}

/-! ## Failures of writes -/

namespace Sink

/-- The failures of some writes, in turn. -/
def failures (out : Sink ω ε) : List Write → ω → List ε
  | [], _ => []
  | write :: writes, s =>
    (out.perform write s).1.toList ++ out.failures writes (out.perform write s).2

theorem head?_failures_cons (out : Sink ω ε) (write : Write) (writes : List Write) (s : ω) :
    (out.failures (write :: writes) s).head?
      = (out.perform write s).1.or (out.failures writes (out.perform write s).2).head? := by
  rw [failures, List.head?_append, Option.head?_toList]

theorem failures_append (out : Sink ω ε) (writes writes' : List Write) (s : ω) :
    out.failures (writes ++ writes') s
      = out.failures writes s ++ out.failures writes' (out.performAll writes s) := by
  induction writes generalizing s with
  | nil => rfl
  | cons write writes ih =>
    rw [List.cons_append, failures, ih, failures, List.append_assoc]
    rfl

/-- The sink that takes down what it is asked, and fails as it likes. -/
def unreliable (fail : List Write → Write → Option ε) : Sink (List Write) ε where
  writeVehicles rows s := (fail s (.vehicles rows), s ++ [.vehicles rows])
  writeSummary row s := (fail s (.summary row), s ++ [.summary row])
  finish s := (fail s .finish, s ++ [.finish])

theorem performAll_unreliable (fail : List Write → Write → Option ε) (writes s : List Write) :
    (unreliable fail).performAll writes s = s ++ writes := by
  refine performAll_of_appends ?_ writes s
  rintro (rows | row | -) s <;> rfl

end Sink

namespace Recorder

variable (out : Sink ω ε) (r : Recorder ω ε)

/-! ## One event -/

/-- What an event makes a recording write. -/
def writesAt (r : Recorder ω ε) : Event → List Write
  | .frame tick elapsed flock =>
    if r.seen % r.interval = 0 then
      (FrameRecord.ofHandOver r.frames (r.totalSimulated + elapsed) ⟨tick, elapsed, flock⟩).writes
    else []
  | .stops _ => [.finish]
  | _ => []

/-- **What is written comes from the counts alone.** -/
theorem sink_observer (event : Event) :
    (observer out event r).sink = out.performAll (r.writesAt event) r.sink := by
  cases event with
  | frame tick elapsed flock => exact sink_onFrame out r ⟨tick, elapsed, flock⟩
  | stops time => rfl
  | tickStarts tick => rfl
  | tickEnds tick step => rfl

theorem firstFailure_record (frame : HandOver) :
    (r.record out frame.tick frame.elapsed frame.flock).firstFailure
      = r.firstFailure.or (out.failures
        (FrameRecord.ofHandOver r.frames r.totalSimulated frame).writes r.sink).head? := by
  unfold record recordVehicles FrameRecord.writes FrameRecord.ofHandOver
  dsimp only
  split
  · rw [List.nil_append, Sink.head?_failures_cons]
    exact congrArg r.firstFailure.or Option.or_none.symm
  · rw [List.singleton_append, Sink.head?_failures_cons, Sink.head?_failures_cons,
      ← Option.or_assoc]
    exact congrArg (Option.or _) Option.or_none.symm

/-- **A failure is kept if none is kept already.** -/
theorem firstFailure_observer (event : Event) : (observer out event r).firstFailure
    = r.firstFailure.or (out.failures (r.writesAt event) r.sink).head? := by
  cases event with
  | frame tick elapsed flock =>
    rw [observer_frame]
    unfold onFrame writesAt
    dsimp only
    split
    · exact firstFailure_record out _ ⟨tick, elapsed, flock⟩
    · exact Option.or_none.symm
  | stops time =>
    show r.firstFailure.or _ = r.firstFailure.or (out.failures [.finish] r.sink).head?
    rw [Sink.head?_failures_cons]
    exact congrArg r.firstFailure.or Option.or_none.symm
  | tickStarts tick => exact Option.or_none.symm
  | tickEnds tick step => exact Option.or_none.symm

/-! ## Counts -/

/-- Whether two recordings have counted the same, whatever became of their sinks. -/
structure SameCounts (r : Recorder ω ε) (r' : Recorder ω' ε') : Prop where
  interval_eq : r.interval = r'.interval
  seen_eq : r.seen = r'.seen
  frames_eq : r.frames = r'.frames
  total_eq : r.totalSimulated = r'.totalSimulated

variable {out r} {out' : Sink ω' ε'} {r' : Recorder ω' ε'}

theorem SameCounts.writesAt_eq (h : SameCounts r r') (event : Event) :
    r.writesAt event = r'.writesAt event := by
  cases event with
  | frame tick elapsed flock =>
    unfold writesAt
    rw [h.interval_eq, h.seen_eq, h.frames_eq, h.total_eq]
  | stops time => rfl
  | tickStarts tick => rfl
  | tickEnds tick step => rfl

/-- **Events are counted alike**, whether the sink fails or not. -/
theorem sameCounts_observer (h : SameCounts r r') (event : Event) :
    SameCounts (observer out event r) (observer out' event r') := by
  cases event with
  | frame tick elapsed flock =>
    rw [observer_frame, observer_frame]
    constructor
    · rw [interval_onFrame, interval_onFrame, h.interval_eq]
    · rw [seen_onFrame, seen_onFrame, h.seen_eq]
    · rw [frames_onFrame, frames_onFrame, h.interval_eq, h.seen_eq, h.frames_eq]
    · rw [totalSimulated_onFrame out r ⟨tick, elapsed, flock⟩,
        totalSimulated_onFrame out' r' ⟨tick, elapsed, flock⟩, h.total_eq]
  | stops time => exact ⟨h.interval_eq, h.seen_eq, h.frames_eq, h.total_eq⟩
  | tickStarts tick => exact h
  | tickEnds tick step => exact h

/-! ## Requests -/

/-- What a recording is asked from outside. -/
inductive Request where
  /-- To take notice of an event. -/
  | hear (event : Event)
  /-- To hand out the first failure. -/
  | takeFailure

/-- The requests to take notice of some events. -/
def heard (events : List Event) : List Request := events.map .hear

/-- The answers to the requests for a failure, and the recording after all requests. -/
def serve (out : Sink ω ε) : List Request → Recorder ω ε → List (Option ε) × Recorder ω ε
  | [], r => ([], r)
  | .hear event :: requests, r => serve out requests (observer out event r)
  | .takeFailure :: requests, r =>
    (r.takeFailure.1 :: (serve out requests r.takeFailure.2).1,
      (serve out requests r.takeFailure.2).2)

theorem serve_append (out : Sink ω ε) (requests requests' : List Request) (r : Recorder ω ε) :
    serve out (requests ++ requests') r
      = ((serve out requests r).1 ++ (serve out requests' (serve out requests r).2).1,
        (serve out requests' (serve out requests r).2).2) := by
  induction requests generalizing r with
  | nil => rfl
  | cons request requests ih =>
    cases request with
    | hear event => exact ih _
    | takeFailure =>
      rw [List.cons_append, serve, ih]
      rfl

/-- Whether a recording has counted what another one has, and asked its sink for the same. The sink
of the other one takes everything down, and so nothing of it is lost. -/
structure Keeps (out : Sink ω ε) (s : ω) (r : Recorder ω ε) (r' : Recorder (List Write) Empty) :
    Prop where
  counts : SameCounts r r'
  sink_eq : r.sink = out.performAll r'.sink s

variable {s : ω} {r' : Recorder (List Write) Empty} {n : UInt64}

theorem sink_observer_log (event : Event) :
    (observer (Sink.log Empty) event r').sink = r'.sink ++ r'.writesAt event :=
  (sink_observer (Sink.log Empty) r' event).trans (Sink.performAll_log _ _)

theorem keeps_observer (h : Keeps out s r r') (event : Event) :
    Keeps out s (observer out event r) (observer (Sink.log Empty) event r') := by
  refine ⟨sameCounts_observer h.counts event, ?_⟩
  rw [sink_observer, sink_observer_log, Sink.performAll_append, ← h.sink_eq, h.counts.writesAt_eq]

/-- **A recording keeps up with one that never fails**, whatever it is asked. -/
theorem keeps_serve (h : Keeps out s r r') (requests : List Request) :
    Keeps out s (serve out requests r).2 (serve (Sink.log Empty) requests r').2 := by
  induction requests generalizing r r' with
  | nil => exact h
  | cons request requests ih =>
    cases request with
    | hear event => exact ih (keeps_observer h event)
    | takeFailure =>
      exact ih ⟨⟨h.counts.interval_eq, h.counts.seen_eq, h.counts.frames_eq, h.counts.total_eq⟩,
        h.sink_eq⟩

/-- **What events leave behind**: nothing is answered, some writes are made, and the first failure
of these is kept if none is kept already. -/
theorem Keeps.exists_writes (h : Keeps out s r r') (events : List Event) : ∃ writes,
    (serve (Sink.log Empty) (heard events) r').2.sink = r'.sink ++ writes ∧
      (serve out (heard events) r).1 = [] ∧
      (serve out (heard events) r).2.firstFailure
        = r.firstFailure.or (out.failures writes (out.performAll r'.sink s)).head? := by
  induction events generalizing r r' with
  | nil => exact ⟨[], (List.append_nil _).symm, rfl, Option.or_none.symm⟩
  | cons event events ih =>
    obtain ⟨writes, hsink, hanswers, hfailure⟩ := ih (keeps_observer h event)
    refine ⟨r'.writesAt event ++ writes, ?_, hanswers, ?_⟩
    · rw [← List.append_assoc, ← sink_observer_log]
      exact hsink
    · refine hfailure.trans ?_
      rw [firstFailure_observer, sink_observer_log, Sink.performAll_append, Sink.failures_append,
        List.head?_append, h.sink_eq, h.counts.writesAt_eq, Option.or_assoc]

/-- **A request for a failure is answered** with the first one among the writes since the last such
request, which left none behind. -/
theorem Keeps.exists_answer (h : Keeps out s r r') (hnone : r.firstFailure = none)
    (events : List Event) : ∃ writes,
      (serve (Sink.log Empty) (Recorder.heard events) r').2.sink = r'.sink ++ writes ∧
      (serve out (Recorder.heard events ++ [.takeFailure]) r).1
        = [(out.failures writes (out.performAll r'.sink s)).head?] := by
  obtain ⟨writes, hsink, hanswers, hfailure⟩ := h.exists_writes events
  rw [hnone, Option.none_or] at hfailure
  refine ⟨writes, hsink, ?_⟩
  rw [serve_append, hanswers, List.nil_append, ← hfailure]
  rfl

/-! ## New recordings -/

/-- The answers of a new recording of every `n`-th frame to the requests for a failure. -/
def answers (out : Sink ω ε) (s : ω) (n : UInt64) (requests : List Request) : List (Option ε) :=
  (serve out requests (everyNth { sink := s } n)).1

/-- A new recording of every `n`-th frame, after some requests. -/
def afterRequests (out : Sink ω ε) (s : ω) (n : UInt64) (requests : List Request) : Recorder ω ε :=
  (serve out requests (everyNth { sink := s } n)).2

/-- What a new recording of every `n`-th frame writes if nothing fails. -/
def asked (n : UInt64) (requests : List Request) : List Write :=
  (afterRequests (Sink.log Empty) [] n requests).sink

theorem keeps_afterRequests (out : Sink ω ε) (s : ω) (n : UInt64) (requests : List Request) :
    Keeps out s (afterRequests out s n requests)
      (afterRequests (Sink.log Empty) [] n requests) := by
  have hnew : Keeps out s (everyNth { sink := s } n) (everyNth { sink := [] } n) :=
    ⟨⟨rfl, rfl, rfl, rfl⟩, rfl⟩
  exact keeps_serve hnew requests

/-- **Failures change nothing but the answers.** Whatever a new recording is asked, and whatever of
its writes fail, it asks its sink for the same writes, and has recorded as many frames, as if
nothing had failed. The first request for a failure is answered with the first failure of all writes
before it, and every other one with the first failure of the writes since the last such request, if
there is any. -/
theorem failures_change_nothing (out : Sink ω ε) (s : ω) (n : UInt64) :
    (∀ requests, (afterRequests out s n requests).sink = out.performAll (asked n requests) s ∧
      (afterRequests out s n requests).frames
        = (afterRequests (Sink.log Empty) [] n requests).frames) ∧
    (∀ (fail : List Write → Write → Option ε) requests,
      (afterRequests (Sink.unreliable fail) [] n requests).sink = asked n requests) ∧
    (∀ events, answers out s n (heard events ++ [.takeFailure])
      = [(out.failures (asked n (heard events)) s).head?]) ∧
    ∀ before events, ∃ writes,
      asked n (before ++ .takeFailure :: heard events) = asked n before ++ writes ∧
      answers out s n (before ++ .takeFailure :: heard events ++ [.takeFailure])
        = answers out s n (before ++ [.takeFailure])
          ++ [(out.failures writes (out.performAll (asked n before) s)).head?] := by
  refine ⟨fun requests => ?_, fun fail requests => ?_, fun events => ?_, fun before events => ?_⟩
  · have h := keeps_afterRequests out s n requests
    exact ⟨h.sink_eq, h.counts.frames_eq⟩
  · rw [(keeps_afterRequests (Sink.unreliable fail) [] n requests).sink_eq]
    exact Sink.performAll_unreliable fail _ []
  · obtain ⟨writes, hsink, hanswer⟩ :=
      (keeps_afterRequests out s n []).exists_answer rfl events
    have hasked : asked n (heard events) = writes := hsink
    rw [hasked]
    exact hanswer
  · have hkeeps := keeps_afterRequests out s n (before ++ [.takeFailure])
    have htaken : (afterRequests out s n (before ++ [.takeFailure])).firstFailure = none := by
      unfold afterRequests
      rw [serve_append]
      rfl
    have hsame : asked n (before ++ [.takeFailure]) = asked n before := by
      unfold asked afterRequests
      rw [serve_append]
      rfl
    obtain ⟨writes, hsink, hanswer⟩ := hkeeps.exists_answer htaken events
    rw [← List.singleton_append, ← List.append_assoc, ← hsame]
    refine ⟨writes, ?_, ?_⟩
    · unfold asked afterRequests
      rw [serve_append]
      exact hsink
    · unfold answers
      rw [List.append_assoc, serve_append]
      exact congrArg (_ ++ ·) hanswer

/-- A sink that fails at everything but its first write fails first at the second one. It goes on
failing, but the failure is handed out once. -/
example : answers (Sink.unreliable fun log _ => if log.isEmpty then none else some log.length) [] 1
    (heard (vanishing.map HandOver.event) ++ [.takeFailure, .takeFailure]) = [some 1, none] := rfl

end Recorder

end Phototaxis
