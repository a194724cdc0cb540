import HederaSdk.Topic.Query
import HederaSdk.Transaction.PrefixProto

/-!
# The limit of a subscription

The limit that is left and the responses that were handled add up to the limit
the query was subscribed with, for as long as every new stream is asked for
some response and no older stream can still deliver one. The mirror node reads
a limit of 0 as no limit, so a subscription that reconnects when nothing is left
asks for everything.
-/

namespace HederaSdk.Topic

open Library

/-- The mirror node sends as many responses as it was asked for. -/
def Stream.CanDeliver (stream : Stream) : Prop :=
  stream.running = true ∧
    (stream.request.limit = 0 ∨ (stream.sent.length : Int) < stream.request.limit)

instance (stream : Stream) : Decidable stream.CanDeliver :=
  inferInstanceAs (Decidable (_ ∧ _))

namespace Subscription

variable {keys : KeyCodec}

/-- What the environment can do to a subscription. -/
def Possible (s : Subscription) : Event → Prop
  | .data index _ => ∃ stream ∈ s.streams[index]?, stream.CanDeliver
  | .failed index _ | .ended index => index < s.streams.length
  | .timeout timer => timer < s.timers.length
  | .unsubscribe => True

/-- A stream is only opened when part of the limit is left and no other stream can
deliver. -/
def OpensInLimit (s : Subscription) : Event → Prop
  | .timeout _ => s.limit ≠ some 0 ∧ ∀ stream ∈ s.streams, ¬ stream.CanDeliver
  | _ => True

instance (s : Subscription) : ∀ event, Decidable (s.Possible event)
  | .data index _ => inferInstanceAs (Decidable (∃ stream ∈ s.streams[index]?, stream.CanDeliver))
  | .failed index _ | .ended index => inferInstanceAs (Decidable (index < s.streams.length))
  | .timeout timer => inferInstanceAs (Decidable (timer < s.timers.length))
  | .unsubscribe => inferInstanceAs (Decidable True)

instance (s : Subscription) : ∀ event, Decidable (s.OpensInLimit event)
  | .timeout _ => inferInstanceAs (Decidable (_ ∧ _))
  | .data _ _ | .failed _ _ | .ended _ | .unsubscribe => inferInstanceAs (Decidable True)

/-! ## What is left of the limit -/

structure WithinLimit (total : Int) (s : Subscription) : Prop where
  left : ∃ left, s.limit = some left ∧ 0 ≤ left ∧ s.handled.length + left = total
  /-- A stream can deliver what is left and no more. -/
  asked : ∀ (i : Nat) (stream : Stream), s.streams[i]? = some stream → stream.CanDeliver →
    stream.request.limit ≠ 0 ∧ s.limit = some (stream.request.limit - stream.sent.length)
  one : ∀ (i j : Nat) (first second : Stream), s.streams[i]? = some first →
    s.streams[j]? = some second → first.CanDeliver → second.CanDeliver → i = j

variable {total : Int} {s t : Subscription}

theorem WithinLimit.of_outline (h : WithinLimit total t) (same : s.outline = t.outline) :
    WithinLimit total s := by
  have limit : s.limit = t.limit := congrArg (·.limit) same
  have handled : s.handled = t.handled := congrArg (·.handled) same
  have there : ∀ (i : Nat) (stream : Stream), s.streams[i]? = some stream → ∃ other : Stream,
      t.streams[i]? = some other ∧ other.request = stream.request ∧
        other.sent = stream.sent ∧ (other.CanDeliver ↔ stream.CanDeliver) := by
    intro i stream found
    obtain ⟨other, inOther, request, running, sent⟩ := stream_of_outline same found
    exact ⟨other, inOther, request, sent, by simp only [Stream.CanDeliver, request, running, sent]⟩
  refine ⟨by rw [limit, handled]; exact h.left, ?_, ?_⟩
  · intro i stream found can
    obtain ⟨other, inOther, request, sent, iff⟩ := there i stream found
    rw [limit, ← request, ← sent]
    exact h.asked i other inOther (iff.mpr can)
  · intro i j first second atFirst atSecond canFirst canSecond
    obtain ⟨first', inFirst, _, _, iffFirst⟩ := there i first atFirst
    obtain ⟨second', inSecond, _, _, iffSecond⟩ := there j second atSecond
    exact h.one i j first' second' inFirst inSecond (iffFirst.mpr canFirst) (iffSecond.mpr canSecond)

/-- Stopping a stream leaves less that can deliver. -/
theorem WithinLimit.stop (h : WithinLimit total s) (index : Nat) :
    WithinLimit total (s.onStream index fun stream => { stream with running := false }) := by
  have there : ∀ (i : Nat) (stream : Stream),
      (s.onStream index fun stream => { stream with running := false }).streams[i]? = some stream →
      stream.CanDeliver → s.streams[i]? = some stream := by
    intro i stream found can
    simp only [onStream, List.getElem?_modify] at found
    obtain ⟨other, inOther, eq⟩ := Option.map_eq_some_iff.mp found
    by_cases same : index = i
    · rw [if_pos same] at eq
      subst eq
      exact absurd can.1 (by simp)
    · rw [if_neg same] at eq
      rwa [← eq]
  exact ⟨h.left, fun i stream found can => h.asked i stream (there i stream found can) can,
    fun i j first second atFirst atSecond canFirst canSecond =>
      h.one i j first second (there i first atFirst canFirst) (there j second atSecond canSecond)
        canFirst canSecond⟩

theorem WithinLimit.deliver (h : WithinLimit total s) {index : Nat} {stream : Stream}
    (found : s.streams[index]? = some stream) (can : stream.CanDeliver)
    (response : ConsensusTopicResponse) :
    WithinLimit total (takeFromLimit
      { s.onStream index (fun stream => { stream with sent := stream.sent ++ [response] }) with
        handled := s.handled ++ [response] }) := by
  obtain ⟨left, limit, notNegative, sum⟩ := h.left
  obtain ⟨bounded, asked⟩ := h.asked index stream found can
  have lefts : left = stream.request.limit - stream.sent.length := by
    rw [limit] at asked
    exact Option.some.inj asked
  have more : 0 < left := by
    rcases can.2 with unlimited | fewer
    · exact absurd unlimited bounded
    · omega
  have other : ∀ (i : Nat) (other : Stream), i ≠ index → s.streams[i]? = some other →
      ¬ other.CanDeliver := fun i other differs found' can' =>
    differs (h.one i index other stream found' found can' can)
  have there : ∀ (i : Nat) (now : Stream),
      (s.onStream index fun stream =>
        { stream with sent := stream.sent ++ [response] }).streams[i]? = some now →
      now.CanDeliver → i = index ∧ now = { stream with sent := stream.sent ++ [response] } := by
    intro i now at_i canNow
    simp only [onStream, List.getElem?_modify] at at_i
    obtain ⟨before, inBefore, eq⟩ := Option.map_eq_some_iff.mp at_i
    by_cases same : index = i
    · subst same
      rw [found] at inBefore
      cases inBefore
      rw [if_pos rfl] at eq
      exact ⟨rfl, eq.symm⟩
    · rw [if_neg same] at eq
      subst eq
      exact absurd canNow (other i before (Ne.symm same) inBefore)
  refine ⟨⟨left - 1, ?_, by omega, ?_⟩, ?_, ?_⟩
  · simp [takeFromLimit, onStream, limit, more]
  · simp only [takeFromLimit, List.length_append, List.length_singleton]
    push_cast
    omega
  · intro i now at_i canNow
    obtain ⟨_, rfl⟩ := there i now at_i canNow
    refine ⟨bounded, ?_⟩
    simp only [takeFromLimit, onStream, limit, Option.map_some, lefts, List.length_append,
      List.length_singleton]
    push_cast
    congr 1
    omega
  · intro i j first second atFirst atSecond canFirst canSecond
    rw [(there i first atFirst canFirst).1, (there j second atSecond canSecond).1]

/-- A stream that is opened while nothing else can deliver is asked for what is left. -/
theorem WithinLimit.opens (h : WithinLimit total s) (more : s.limit ≠ some 0)
    (idle : ∀ stream ∈ s.streams, ¬ stream.CanDeliver) :
    WithinLimit total s.makeServerStreamRequest := by
  obtain ⟨left, limit, notNegative, sum⟩ := h.left
  have there : ∀ (i : Nat) (stream : Stream),
      s.makeServerStreamRequest.streams[i]? = some stream → stream.CanDeliver →
      i = s.streams.length ∧ stream = { request := s.buildConsensusRequest } := by
    intro i stream found can
    simp only [makeServerStreamRequest] at found
    rcases Nat.lt_trichotomy i s.streams.length with before | rfl | behind
    · rw [List.getElem?_append_left before] at found
      exact absurd can (idle stream (List.mem_of_getElem? found))
    · simpa using found.symm
    · rw [List.getElem?_eq_none (by simp; omega)] at found
      cases found
  refine ⟨⟨left, limit, notNegative, sum⟩, ?_, ?_⟩
  · intro i stream found can
    obtain ⟨_, rfl⟩ := there i stream found can
    have positive : left ≠ 0 := fun zero => more (zero ▸ limit)
    simpa [buildConsensusRequest, makeServerStreamRequest, limit] using positive
  · intro i j first second atFirst atSecond canFirst canSecond
    rw [(there i first atFirst canFirst).1, (there j second atSecond canSecond).1]

theorem WithinLimit.handleError (h : WithinLimit total s) (failure : MirrorFailure) :
    WithinLimit total (s.handleError failure) := by
  unfold Subscription.handleError
  split
  · exact h
  · split
    · exact ⟨h.left, h.asked, h.one⟩
    · exact ⟨h.left, h.asked, h.one⟩

theorem WithinLimit.step (h : WithinLimit total s) (event : Event) (possible : s.Possible event)
    (opens : s.OpensInLimit event) : WithinLimit total (step keys s event) := by
  cases event with
  | data index response =>
      obtain ⟨stream, found, can⟩ := possible
      exact (h.deliver found can response).of_outline (outline_handleMessage index response _)
  | failed index failure => exact (h.stop index).handleError failure
  | ended index =>
      have stopped := h.stop index
      exact ⟨stopped.left, stopped.asked, stopped.one⟩
  | timeout timer =>
      have waiting : WithinLimit total { s with timers := s.timers.eraseIdx timer } :=
        ⟨h.left, h.asked, h.one⟩
      exact waiting.opens opens.1 opens.2
  | unsubscribe =>
      simp only [Subscription.step, unsubscribe]
      split
      · rename_i call unsubscribed handle
        have marked : WithinLimit total
            { s with handle := some { call := some call, unsubscribed := true } } :=
          ⟨h.left, h.asked, h.one⟩
        exact marked.stop call
      · exact h

end Subscription

open Subscription

theorem TopicMessageQuery.withinLimit_subscribe {query : TopicMessageQuery} {total : Int}
    (limit : query.limit = some total) (positive : 0 < total) (listener : Message → Option String) :
    WithinLimit total (query.subscribe listener) := by
  have start : WithinLimit total
      { query with handle := some {}, listener := some listener : Subscription } :=
    ⟨⟨total, limit, by omega, by simp⟩, fun _ _ found => by simp at found,
      fun _ _ _ _ found => by simp at found⟩
  exact start.opens (by simp [limit]; omega) (by simp)

/-- In every run that opens its streams within the limit, no more responses are
handled than the limit allows. -/
theorem TopicMessageQuery.handled_le_limit (keys : KeyCodec) {query : TopicMessageQuery}
    {total : Int} (limit : query.limit = some total) (positive : 0 < total)
    (listener : Message → Option String) {events : List Subscription.Event}
    (guarded : Guarded (step keys) (fun s event => s.Possible event ∧ s.OpensInLimit event)
      (query.subscribe listener) events) :
    ((runAll (step keys) (query.subscribe listener) events).handled.length : Int) ≤ total := by
  have run : WithinLimit total (runAll (step keys) (query.subscribe listener) events) :=
    runAll_invariant (fun s event h guard => h.step event guard.1 guard.2)
      (query.withinLimit_subscribe limit positive listener) guarded
  obtain ⟨left, _, notNegative, sum⟩ := run.left
  omega

/-- The response to the second of two messages of a topic, a second after the first. -/
def sampleResponse (second : Int) : ConsensusTopicResponse where
  consensusTimestamp := some ⟨1700000000 + second, 5⟩
  message := [1]
  sequenceNumber := second

def unavailable : MirrorFailure := .status 14 "Unavailable"

/-- One response, a failure, the reconnection and another response. -/
def failingRun : List Subscription.Event :=
  [.data 0 (sampleResponse 1), .failed 0 unavailable, .timeout 0, .data 1 (sampleResponse 2)]

theorem two_responses_within_limit :
    ((runAll (step prefixKeys) (TopicMessageQuery.subscribe { limit := some 2 } fun _ => none)
      failingRun).handled.length : Int) ≤ 2 :=
  @TopicMessageQuery.handled_le_limit prefixKeys _ _ rfl (by decide) (fun _ => none) failingRun
    (by decide +kernel)

/-- With nothing left of the limit, the reconnection asks for everything. -/
theorem limit_is_exceeded :
    ∃ (query : TopicMessageQuery) (listener : Message → Option String) (events : List Subscription.Event),
      query.limit = some 1 ∧
      Guarded (step prefixKeys) Possible (query.subscribe listener) events ∧
      (∀ index failure, .failed index failure ∈ events → query.retryHandler failure = true) ∧
      1 < (runAll (step prefixKeys) (query.subscribe listener) events).handled.length := by
  refine ⟨{ limit := some 1 }, fun _ => none, failingRun, rfl, by decide +kernel, ?_,
    by decide +kernel⟩
  intro index failure inRun
  simp only [failingRun, List.mem_cons, reduceCtorEq, Subscription.Event.failed.injEq, List.not_mem_nil, or_false,
    false_or] at inRun
  rw [inRun.2]
  rfl

end HederaSdk.Topic
