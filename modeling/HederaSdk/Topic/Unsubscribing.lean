import HederaSdk.Topic.Limit

/-!
# Unsubscribing

The handle of a subscription cancels the stream that was opened last, and failures open no more streams
behind that. A retry that waits already opens one all the same, and where a failure was reported twice
another stream may still run.
-/

namespace HederaSdk.Topic

open Library

namespace Subscription

variable {keys : KeyCodec} {s t : Subscription}

/-- Whatever happens later, nothing is passed and no stream is opened. -/
def Silenced (keys : KeyCodec) (s : Subscription) : Prop :=
  ∀ later, Guarded (step keys) Possible s later →
    (runAll (step keys) s later).passed = s.passed ∧
      (runAll (step keys) s later).streams.length = s.streams.length

/-- No retry waits, and only the last stream can deliver. -/
structure Held (s : Subscription) : Prop where
  timers : s.timers = []
  last : ∀ (index : Nat) (stream : Stream), s.streams[index]? = some stream → stream.CanDeliver →
    index + 1 = s.streams.length

/-- The channel reports the end of a stream once. -/
def ReportedOnce (s : Subscription) : Event → Prop
  | .failed index _ | .ended index => ∃ stream ∈ s.streams[index]?, stream.running = true
  | _ => True

instance decidableReportedOnce (s : Subscription) : ∀ event, Decidable (s.ReportedOnce event)
  | .failed index _ | .ended index =>
      inferInstanceAs (Decidable (∃ stream ∈ s.streams[index]?, stream.running = true))
  | .data _ _ | .timeout _ | .unsubscribe => inferInstanceAs (Decidable True)

/-- The stream is cancelled, or it has ended. -/
def stop (index : Nat) (s : Subscription) : Subscription :=
  s.onStream index fun stream => { stream with running := false }

/-! ## Stopping a stream -/

@[simp] theorem length_stop (index : Nat) (s : Subscription) : (s.stop index).streams.length = s.streams.length :=
  List.length_modify ..

theorem getElem?_stop_of_running {index i : Nat} {stream : Stream} (found : (s.stop index).streams[i]? = some stream)
    (running : stream.running = true) : i ≠ index ∧ s.streams[i]? = some stream := by
  simp only [stop, onStream, List.getElem?_modify] at found
  obtain ⟨other, inOther, same⟩ := Option.map_eq_some_iff.mp found
  by_cases here : index = i
  · rw [if_pos here] at same
    subst same
    cases running
  · rw [if_neg here] at same
    exact ⟨Ne.symm here, same ▸ inOther⟩

theorem getElem?_stop_of_ne {index i : Nat} (other : index ≠ i) : (s.stop index).streams[i]? = s.streams[i]? := by
  simp [stop, onStream, other]

/-! ## A subscription that is open -/

/-- There is a listener, and the handle cancels the last stream. -/
structure Opened (s : Subscription) : Prop where
  listener : ∃ listener, s.listener = some listener
  handle : ∃ call unsubscribed, s.handle = some { call := some call, unsubscribed } ∧ call + 1 = s.streams.length

theorem Opened.of_outline (opened : t.Opened) (same : s.outline = t.outline) : s.Opened := by
  have listener : s.listener = t.listener := congrArg (·.listener) same
  have handle : s.handle = t.handle := congrArg (·.handle) same
  have streams := congrArg (·.streams.length) same
  simp only [outline, List.length_map] at streams
  exact ⟨listener ▸ opened.listener, by rw [handle, streams]; exact opened.handle⟩

theorem Opened.stop (opened : s.Opened) (index : Nat) : (s.stop index).Opened :=
  ⟨opened.listener, by rw [length_stop]; exact opened.handle⟩

theorem Opened.step (opened : s.Opened) (event : Event) : (step keys s event).Opened := by
  cases event with
  | data index response =>
      have sent : (takeFromLimit { s.onStream index (fun stream => { stream with sent := stream.sent ++ [response] })
          with handled := s.handled ++ [response] }).Opened :=
        ⟨opened.listener, by simpa [takeFromLimit, onStream] using opened.handle⟩
      exact sent.of_outline (outline_handleMessage index response _)
  | failed index failure =>
      have stopped := opened.stop index
      simp only [Subscription.step, handleError]
      split_ifs
      · exact stopped
      · exact ⟨stopped.listener, stopped.handle⟩
      · exact ⟨stopped.listener, stopped.handle⟩
  | ended index => exact ⟨(opened.stop index).listener, (opened.stop index).handle⟩
  | timeout timer =>
      obtain ⟨call, unsubscribed, handle, _⟩ := opened.handle
      refine ⟨opened.listener, s.streams.length, unsubscribed, ?_, ?_⟩
      · simp [Subscription.step, makeServerStreamRequest, handle]
      · simp [Subscription.step, makeServerStreamRequest]
  | unsubscribe =>
      obtain ⟨call, unsubscribed, handle, last⟩ := opened.handle
      simp only [Subscription.step, unsubscribe, handle]
      have marked : Opened { s with handle := some { call := some call, unsubscribed := true } } :=
        ⟨opened.listener, call, true, rfl, last⟩
      exact marked.stop call

/-- What unsubscribing does when the subscription is open. -/
theorem unsubscribe_eq {call : Nat} {unsubscribed : Bool}
    (handle : s.handle = some { call := some call, unsubscribed }) :
    s.unsubscribe = stop call { s with handle := some { call := some call, unsubscribed := true } } := by
  rw [unsubscribe, handle]
  rfl

/-! ## Nothing is left to happen -/

/-- Failures are ignored, and nothing can be delivered. -/
structure Stopped (s : Subscription) : Prop where
  unsubscribed : s.isUnsubscribed = true
  timers : s.timers = []
  streams : ∀ (index : Nat) (stream : Stream), s.streams[index]? = some stream → ¬ stream.CanDeliver

theorem Stopped.stop (stopped : s.Stopped) (index : Nat) : (s.stop index).Stopped where
  unsubscribed := stopped.unsubscribed
  timers := stopped.timers
  streams := fun i stream found can =>
    stopped.streams i stream (getElem?_stop_of_running found can.1).2 can

theorem Stopped.step (stopped : s.Stopped) {event : Event} (possible : s.Possible event) :
    (step keys s event).Stopped ∧ (step keys s event).passed = s.passed ∧
      (step keys s event).streams.length = s.streams.length := by
  cases event with
  | data index response =>
      obtain ⟨stream, found, can⟩ := possible
      exact absurd can (stopped.streams index stream found)
  | failed index failure =>
      have after := stopped.stop index
      have ignored : Subscription.step keys s (.failed index failure) = s.stop index := if_pos after.unsubscribed
      rw [ignored]
      exact ⟨after, rfl, length_stop index s⟩
  | ended index =>
      have after := stopped.stop index
      exact ⟨⟨after.unsubscribed, after.timers, after.streams⟩, rfl, length_stop index s⟩
  | timeout timer =>
      have waits : timer < s.timers.length := possible
      rw [stopped.timers] at waits
      exact absurd waits (Nat.not_lt_zero timer)
  | unsubscribe =>
      simp only [Subscription.step, unsubscribe]
      split
      · rename_i call unsubscribed handle
        have marked : Stopped { s with handle := some { call := some call, unsubscribed := true } } :=
          ⟨rfl, stopped.timers, stopped.streams⟩
        exact ⟨marked.stop call, rfl, length_stop call _⟩
      · exact ⟨stopped, rfl, rfl⟩

theorem Stopped.silenced (stopped : s.Stopped) : Silenced keys s := by
  intro later possible
  refine (runAll_invariant
    (I := fun t => t.Stopped ∧ t.passed = s.passed ∧ t.streams.length = s.streams.length)
    (fun t event held guard => ?_) ⟨stopped, rfl, rfl⟩ possible).2
  obtain ⟨after, passed, streams⟩ := @Stopped.step keys t held.1 event guard
  exact ⟨after, passed.trans held.2.1, streams.trans held.2.2⟩

/-- A response that is a message of its own. -/
def plainResponse : ConsensusTopicResponse where
  consensusTimestamp := some ⟨0, 0⟩

theorem passed_plainResponse (opened : s.Opened) (index : Nat) :
    (step keys s (.data index plainResponse)).passed.length = s.passed.length + 1 := by
  obtain ⟨listener, listens⟩ := opened.listener
  have passes (t : Subscription) (message : Message) (same : t.listener = some listener) :
      (t.passTopicMessage message).passed = t.passed ++ [message] := by
    rw [passTopicMessage, same]
    dsimp only
    split <;> rfl
  obtain ⟨t, message, same, listens', passed⟩ : ∃ t message, step keys s (.data index plainResponse) =
      passTopicMessage message t ∧ t.listener = s.listener ∧ t.passed = s.passed := ⟨_, _, rfl, rfl, rfl⟩
  rw [same, passes t message (listens'.trans listens), List.length_append, passed, List.length_singleton]

/-- Unsubscribing silences an open subscription exactly when the handle holds all there is. -/
theorem silenced_unsubscribe_iff (opened : s.Opened) : Silenced keys s.unsubscribe ↔ s.Held := by
  obtain ⟨call, unsubscribed, handle, last⟩ := opened.handle
  have after := unsubscribe_eq handle
  constructor
  · intro silenced
    refine ⟨?_, fun index stream found can => ?_⟩
    · by_contra waits
      have possible : Possible s.unsubscribe (.timeout 0) := by
        rw [after]
        exact List.length_pos_of_ne_nil waits
      have opens := (silenced [.timeout 0] ⟨possible, trivial⟩).2
      simp [Subscription.step, makeServerStreamRequest] at opens
    · by_contra other
      have apart : call ≠ index := by omega
      have possible : Possible s.unsubscribe (.data index plainResponse) := by
        rw [after]
        exact ⟨stream, (getElem?_stop_of_ne apart).trans found, can⟩
      have passes := (silenced [.data index plainResponse] ⟨possible, trivial⟩).1
      have after_opened : s.unsubscribe.Opened := @Opened.step keys s opened .unsubscribe
      have one := @passed_plainResponse keys s.unsubscribe after_opened index
      rw [runAll_cons, runAll_nil] at passes
      rw [passes] at one
      omega
  · intro held
    rw [after]
    refine Stopped.silenced ⟨rfl, held.timers, fun index stream found can => ?_⟩
    obtain ⟨other, there⟩ := getElem?_stop_of_running found can.1
    have := held.last index stream there can
    omega

/-! ## Failures that are reported once -/

/-- One stream runs or one retry waits. -/
structure Single (s : Subscription) : Prop where
  timers : s.timers.length ≤ 1
  running : ∀ (index : Nat) (stream : Stream), s.streams[index]? = some stream → stream.running = true →
    index + 1 = s.streams.length ∧ s.timers = []

theorem Single.of_outline (single : t.Single) (same : s.outline = t.outline) : s.Single := by
  have timers : s.timers = t.timers := congrArg (·.timers) same
  have streams := congrArg (·.streams.length) same
  simp only [outline, List.length_map] at streams
  refine ⟨timers ▸ single.timers, fun index stream found running => ?_⟩
  obtain ⟨other, inOther, _, runs, _⟩ := stream_of_outline same found
  rw [streams, timers]
  exact single.running index other inOther (runs.trans running)

theorem Single.stop (single : s.Single) (index : Nat) : (s.stop index).Single := by
  refine ⟨single.timers, fun i stream found running => ?_⟩
  rw [length_stop]
  exact single.running i stream (getElem?_stop_of_running found running).2 running

/-- When the stream that runs has ended, nothing runs and no retry waits. -/
theorem Single.ended (single : s.Single) {index : Nat}
    (runs : ∃ stream ∈ s.streams[index]?, stream.running = true) :
    s.timers = [] ∧ ∀ (i : Nat) (stream : Stream),
      (s.stop index).streams[i]? = some stream → stream.running = false := by
  obtain ⟨stream, found, running⟩ := runs
  obtain ⟨last, none⟩ := single.running index stream found running
  refine ⟨none, fun i other inStreams => ?_⟩
  by_contra still
  obtain ⟨apart, there⟩ := getElem?_stop_of_running inStreams (by simpa using still)
  have := (single.running i other there (by simpa using still)).1
  omega

theorem Single.step (single : s.Single) {event : Event} (possible : s.Possible event) (once : s.ReportedOnce event) :
    (step keys s event).Single := by
  cases event with
  | data index response =>
      have sent : (takeFromLimit { s.onStream index (fun stream => { stream with sent := stream.sent ++ [response] })
          with handled := s.handled ++ [response] }).Single := by
        refine ⟨single.timers, fun i stream found running => ?_⟩
        simp only [takeFromLimit, onStream, List.getElem?_modify] at found
        obtain ⟨other, inOther, same⟩ := Option.map_eq_some_iff.mp found
        have runs : other.running = true := by
          rw [← running, ← same]
          split_ifs <;> rfl
        simpa [takeFromLimit, onStream] using single.running i other inOther runs
      exact sent.of_outline (outline_handleMessage index response _)
  | failed index failure =>
      obtain ⟨none, idle⟩ := single.ended once
      have stopped := single.stop index
      have noTimers : (s.stop index).timers = [] := none
      change (handleError failure (s.stop index)).Single
      rw [handleError]
      split_ifs
      · exact stopped
      · refine ⟨?_, fun i stream found running => ?_⟩
        · simp [scheduleRetry, noTimers]
        · rw [idle i stream found] at running
          cases running
      · exact ⟨stopped.timers, stopped.running⟩
  | ended index => exact ⟨(single.stop index).timers, (single.stop index).running⟩
  | timeout timer =>
      have waits : timer < s.timers.length := possible
      have one := single.timers
      have none : s.timers.eraseIdx timer = [] := by
        rw [← List.length_eq_zero_iff, List.length_eraseIdx_of_lt waits]
        omega
      refine ⟨?_, fun i stream found running => ?_⟩
      · change (s.timers.eraseIdx timer).length ≤ 1
        simp [none]
      · change (s.streams ++ [_])[i]? = some stream at found
        refine ⟨?_, none⟩
        change i + 1 = (s.streams ++ [_]).length
        rw [List.length_append, List.length_singleton]
        rcases lt_trichotomy i s.streams.length with before | here | beyond
        · rw [List.getElem?_append_left before] at found
          have empty := (single.running i stream found running).2
          rw [empty] at waits
          exact absurd waits (Nat.not_lt_zero timer)
        · rw [here]
        · rw [List.getElem?_eq_none (by simp; omega)] at found
          cases found
  | unsubscribe =>
      simp only [Subscription.step, unsubscribe]
      split
      · rename_i call unsubscribed handle
        have marked : Single { s with handle := some { call := some call, unsubscribed := true } } :=
          ⟨single.timers, single.running⟩
        exact marked.stop call
      · exact single

theorem Single.held_iff (single : s.Single) : s.Held ↔ s.timers = [] :=
  ⟨Held.timers, fun none => ⟨none, fun index stream found can => (single.running index stream found can.1).1⟩⟩

end Subscription

open Subscription

namespace TopicMessageQuery

variable (query : TopicMessageQuery) (listener : Message → Option String)

theorem opened_subscribe : (query.subscribe listener).Opened :=
  ⟨⟨listener, rfl⟩, 0, false, rfl, rfl⟩

theorem single_subscribe : (query.subscribe listener).Single := by
  refine ⟨Nat.zero_le 1, fun index stream found _ => ⟨?_, rfl⟩⟩
  have within := (List.getElem?_eq_some_iff.mp found).1
  change index + 1 = 1
  change index < 1 at within
  omega

/-- Whenever a subscription is unsubscribed, nothing is passed and no stream is opened any more exactly when
no retry waits and only the stream that was opened last can deliver. Where each failure is reported once,
that is when no retry waits. -/
theorem unsubscribe_silences_iff (keys : KeyCodec) (events : List Subscription.Event) :
    (Silenced keys (runAll (step keys) (query.subscribe listener) events).unsubscribe ↔
      (runAll (step keys) (query.subscribe listener) events).Held) ∧
    (Guarded (step keys) (fun s event => s.Possible event ∧ s.ReportedOnce event) (query.subscribe listener) events →
      ((runAll (step keys) (query.subscribe listener) events).Held ↔
        (runAll (step keys) (query.subscribe listener) events).timers = [])) := by
  refine ⟨silenced_unsubscribe_iff ?_, fun once => Single.held_iff ?_⟩
  · exact runAll_invariant_all (fun _ event opened => opened.step event) events (query.opened_subscribe listener)
  · exact runAll_invariant (fun _ event single guard => single.step guard.1 guard.2)
      (query.single_subscribe listener) once

end TopicMessageQuery

/-- A subscription that is unsubscribed while a retry waits goes on. -/
theorem waiting_retry_goes_on :
    ¬ Silenced prefixKeys
      (runAll (step prefixKeys) (TopicMessageQuery.subscribe {} fun _ => none)
        [.failed 0 unavailable]).unsubscribe := by
  obtain ⟨silenced, once⟩ := TopicMessageQuery.unsubscribe_silences_iff {} (fun _ => none) prefixKeys
    [.failed 0 unavailable]
  rw [silenced, once (by decide +kernel)]
  decide +kernel

end HederaSdk.Topic
