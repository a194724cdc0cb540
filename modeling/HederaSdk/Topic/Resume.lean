import HederaSdk.Topic.Assembly
import HederaSdk.Transaction.PrefixProto

/-!
# Subscriptions that reconnect

A stream that takes over continues behind the last response that was handled,
so no response is handled twice and none is skipped. What was gathered of a
message stays behind with the stream that failed: the messages are those of one
uninterrupted stream for as long as no stream fails while chunks wait.
-/

namespace HederaSdk.Topic

open Library

/-- The order of `Timestamp.compare`. -/
def isBefore (a b : Timestamp) : Bool :=
  decide (a.seconds < b.seconds) || (decide (a.seconds = b.seconds) && decide (a.nanos < b.nanos))

/-- A timestamp that is read without loss, with less than a second of nanoseconds. -/
structure IsProper (t : Timestamp) : Prop where
  seconds : -2147483648 ≤ t.seconds ∧ t.seconds < 2147483648
  nanos : 0 ≤ t.nanos ∧ t.nanos < 1000000000

/-- A mirror node sends what reached consensus between the two times of the request.
The log begins with the subscription, so no start time asks for all of it. -/
def ConsensusTopicQuery.wants (request : ConsensusTopicQuery) (response : ConsensusTopicResponse) :
    Bool :=
  match response.consensusTimestamp with
  | none => false
  | some timestamp =>
      request.consensusStartTime.all (fun start => !isBefore timestamp start) &&
        request.consensusEndTime.all fun stop => isBefore timestamp stop

def ConsensusTopicQuery.window (request : ConsensusTopicQuery) (log : List ConsensusTopicResponse) :
    List ConsensusTopicResponse := log.filter request.wants

/-- The responses of a topic in the order of their consensus timestamps. -/
structure IsLog (keys : KeyCodec) (log : List ConsensusTopicResponse) : Prop where
  readable : ∀ response ∈ log, response.Readable keys
  proper : ∀ response ∈ log, ∀ timestamp, response.consensusTimestamp = some timestamp →
    IsProper timestamp
  increasing : log.Pairwise fun first second => ∀ a b, first.consensusTimestamp = some a →
    second.consensusTimestamp = some b → isBefore a b = true

theorem isBefore_iff (a b : Timestamp) : isBefore a b = true ↔
    a.seconds < b.seconds ∨ a.seconds = b.seconds ∧ a.nanos < b.nanos := by
  simp [isBefore]

theorem IsProper.onWire {t : Timestamp} (proper : IsProper t) : t.onWire = t := by
  obtain ⟨seconds, nanos⟩ := proper
  have eqSeconds : Timestamp.toInt t.seconds = t.seconds := by
    simp only [Timestamp.toInt]
    exact Int.bmod_eq_of_le (by omega) (by omega)
  have eqNanos : Timestamp.toInt t.nanos = t.nanos := by
    simp only [Timestamp.toInt]
    exact Int.bmod_eq_of_le (by omega) (by omega)
  rw [Timestamp.onWire, eqSeconds, eqNanos]

/-- A request for what comes a nanosecond later is a request for what comes later. -/
theorem isBefore_next {a b : Timestamp} (properA : IsProper a) (properB : IsProper b) :
    isBefore b (Subscription.timestampToProtobuf (Transaction.plusNanos a.onWire 1)) =
      !isBefore a b := by
  obtain ⟨_, lowA, highA⟩ := properA
  obtain ⟨_, lowB, highB⟩ := properB
  rw [IsProper.onWire ⟨‹_›, lowA, highA⟩]
  rw [Bool.eq_iff_iff, Bool.not_eq_true', ← Bool.not_eq_true, isBefore_iff, isBefore_iff]
  simp only [Transaction.plusNanos, Subscription.timestampToProtobuf]
  by_cases last : a.nanos = 999999999
  · have carried : (a.nanos + 1).tdiv 1000000000 = 1 ∧ (a.nanos + 1).tmod 1000000000 = 0 := by
      rw [last]
      decide
    rw [carried.1, carried.2]
    simp only [Timestamp.toInt]
    have zero : Int.bmod 0 4294967296 = 0 := by decide
    rw [zero]
    omega
  · have bounds : 0 ≤ a.nanos + 1 ∧ a.nanos + 1 < 1000000000 := by omega
    rw [Int.tdiv_eq_zero_of_lt bounds.1 bounds.2, Int.tmod_eq_of_lt bounds.1 bounds.2,
      Timestamp.toInt, Int.bmod_eq_of_le (by omega) (by omega)]
    omega

theorem isBefore_irrefl (a : Timestamp) : isBefore a a = false := by
  rw [← Bool.not_eq_true, isBefore_iff]
  omega

/-- Asked for what comes behind the first response of a window, the mirror node
answers with the rest of the window. -/
theorem window_next {keys : KeyCodec} {log : List ConsensusTopicResponse} (isLog : IsLog keys log)
    {request next : ConsensusTopicQuery} {response : ConsensusTopicResponse} {timestamp : Timestamp}
    {rest : List ConsensusTopicResponse} (window : request.window log = response :: rest)
    (sent : response.consensusTimestamp = some timestamp)
    (start : next.consensusStartTime =
      some (Subscription.timestampToProtobuf (Transaction.plusNanos timestamp.onWire 1)))
    (stop : next.consensusEndTime = request.consensusEndTime) : next.window log = rest := by
  have inWindow : response ∈ request.window log := window ▸ List.mem_cons_self
  obtain ⟨inLog, wanted⟩ := List.mem_filter.mp inWindow
  have proper := isLog.proper response inLog timestamp sent
  have isLater : ∀ other ∈ log, next.wants other =
      (request.wants other && other.consensusTimestamp.any fun time => isBefore timestamp time) := by
    intro other otherInLog
    simp only [ConsensusTopicQuery.wants, sent] at wanted ⊢
    cases otherSent : other.consensusTimestamp with
    | none => rfl
    | some time =>
        have properTime := isLog.proper other otherInLog time otherSent
        simp only [start, stop, Option.all_some, Option.any_some, Bool.not_not,
          isBefore_next proper properTime]
        cases requestStart : request.consensusStartTime with
        | none => simp [Bool.and_comm]
        | some first =>
            simp only [requestStart, Option.all_some, Bool.and_eq_true, Bool.not_eq_true'] at wanted ⊢
            cases later : isBefore timestamp time with
            | false => simp
            | true =>
                have notBefore : isBefore time first = false := by
                  rw [← Bool.not_eq_true, isBefore_iff]
                  have notFirst := wanted.1
                  rw [← Bool.not_eq_true, isBefore_iff] at notFirst
                  rw [isBefore_iff] at later
                  omega
                simp [notBefore]
  have split_ : next.window log = (request.window log).filter fun other =>
      other.consensusTimestamp.any fun time => isBefore timestamp time := by
    rw [ConsensusTopicQuery.window, ConsensusTopicQuery.window, List.filter_filter]
    apply List.filter_congr
    intro other otherInLog
    rw [isLater other otherInLog, Bool.and_comm]
  have ordered : (response :: rest).Pairwise fun first second =>
      ∀ a b, first.consensusTimestamp = some a → second.consensusTimestamp = some b →
        isBefore a b = true := by
    rw [← window]
    exact isLog.increasing.sublist List.filter_sublist
  rw [split_, window, List.filter_cons, sent]
  simp only [Option.any_some, isBefore_irrefl, Bool.false_eq_true, if_false]
  apply List.filter_eq_self.mpr
  intro other inRest
  have otherInLog : other ∈ log :=
    (List.mem_filter.mp (window ▸ List.mem_cons_of_mem response inRest :
      other ∈ request.window log)).1
  obtain ⟨time, otherSent⟩ := (isLog.readable other otherInLog).timestamp
  rw [otherSent]
  exact (List.pairwise_cons.mp ordered).1 other inRest timestamp time sent otherSent

namespace Subscription

variable {keys : KeyCodec} {log window : List ConsensusTopicResponse} {s : Subscription}

/-- What happens to a subscription whose mirror node has the log: it is sent the log
response by response, and every failure is retried. -/
def Sends (log : List ConsensusTopicResponse) (s : Subscription) : Event → Prop
  | .data index response => ∃ stream ∈ s.streams[index]?, stream.running = true ∧
      (stream.request.window log)[stream.sent.length]? = some response
  | .failed index failure => index < s.streams.length ∧ s.shouldRetry failure = true
  | .timeout timer => timer < s.timers.length
  | .ended _ | .unsubscribe => False

/-- No stream fails while chunks wait for the rest of their message, and a stream is
opened from a known time once no other stream runs. -/
def LosesNothing (s : Subscription) : Event → Prop
  | .failed index _ => ∀ stream ∈ s.streams[index]?, stream.running = true →
      stream.list.entries = []
  | .timeout _ => s.startTime ≠ none ∧ ∀ stream ∈ s.streams, stream.running = false
  | _ => True

instance (log : List ConsensusTopicResponse) (s : Subscription) :
    ∀ event, Decidable (s.Sends log event)
  | .data index response => inferInstanceAs (Decidable (∃ stream ∈ s.streams[index]?,
      stream.running = true ∧ (stream.request.window log)[stream.sent.length]? = some response))
  | .failed _ _ => inferInstanceAs (Decidable (_ ∧ _))
  | .timeout timer => inferInstanceAs (Decidable (timer < s.timers.length))
  | .ended _ | .unsubscribe => inferInstanceAs (Decidable False)

instance (s : Subscription) : ∀ event, Decidable (s.LosesNothing event)
  | .failed index _ => inferInstanceAs (Decidable (∀ stream ∈ s.streams[index]?,
      stream.running = true → stream.list.entries = []))
  | .timeout _ => inferInstanceAs (Decidable (_ ∧ _))
  | .data _ _ | .ended _ | .unsubscribe => inferInstanceAs (Decidable True)

/-- The responses of the window are handled from the first on, as one stream would. -/
structure Resuming (keys : KeyCodec) (log window : List ConsensusTopicResponse)
    (s : Subscription) : Prop where
  initial : s.handled <+: window
  next : s.buildConsensusRequest.window log = window.drop s.handled.length
  passed : s.passed = gatheredMessages keys s.handled
  asked : ∀ (i : Nat) (stream : Stream), s.streams[i]? = some stream → stream.running = true →
    (stream.request.window log).drop stream.sent.length = window.drop s.handled.length ∧
      stream.list = waitingFor keys s.handled
  one : ∀ (i j : Nat) (first second : Stream), s.streams[i]? = some first →
    s.streams[j]? = some second → first.running = true → second.running = true → i = j
  /-- Between two streams nothing waits. -/
  idle : (∀ stream ∈ s.streams, stream.running = false) → (waitingFor keys s.handled).entries = []
  /-- Some stream runs or is going to. -/
  alive : (∃ stream ∈ s.streams, stream.running = true) ∨ s.timers ≠ []
  listening : ∃ listener, s.listener = some listener
  subscribed : s.isUnsubscribed = false

/-- A response that is sent is the next of the window. -/
theorem Resuming.sends (h : Resuming keys log window s) {index : Nat} {stream : Stream}
    {response : ConsensusTopicResponse} (there : s.streams[index]? = some stream)
    (running : stream.running = true)
    (sent : (stream.request.window log)[stream.sent.length]? = some response) :
    window.drop s.handled.length = response :: window.drop (s.handled.length + 1) := by
  have same := (h.asked index stream there running).1
  have head : (window.drop s.handled.length)[0]? = some response := by
    rw [← same, List.getElem?_drop, Nat.add_zero, sent]
  rw [List.getElem?_drop, Nat.add_zero] at head
  obtain ⟨inside, here⟩ := List.getElem?_eq_some_iff.mp head
  rw [← here]
  exact (List.drop_eq_getElem_cons inside)

/-- The subscription when it is told of a response. -/
def sentTo (s : Subscription) (index : Nat) (response : ConsensusTopicResponse) : Subscription :=
  { s.onStream index (fun stream => { stream with sent := stream.sent ++ [response] }) with
    handled := s.handled ++ [response] }

theorem sentTo_self {index : Nat} {stream : Stream} (there : s.streams[index]? = some stream)
    (response : ConsensusTopicResponse) :
    (s.sentTo index response).streams[index]? =
      some { stream with sent := stream.sent ++ [response] } := by
  simp [sentTo, onStream, there]

/-- The only stream that runs behind a response is the one it came on. -/
theorem Resuming.runs_sentTo (h : Resuming keys log window s) {index : Nat} {stream : Stream}
    (there : s.streams[index]? = some stream) (running : stream.running = true)
    (response : ConsensusTopicResponse) {i : Nat} {now : Stream}
    (found : (s.sentTo index response).streams[i]? = some now) (runningNow : now.running = true) :
    i = index ∧ now = { stream with sent := stream.sent ++ [response] } := by
  have old : ∃ old, s.streams[i]? = some old ∧ old.running = true := by
    simp only [sentTo, onStream, List.getElem?_modify] at found
    obtain ⟨old, inOld, eq⟩ := Option.map_eq_some_iff.mp found
    refine ⟨old, inOld, ?_⟩
    rw [← runningNow, ← eq]
    split <;> rfl
  obtain ⟨old, inOld, runningOld⟩ := old
  have same : i = index := h.one i index old stream inOld there runningOld running
  subst same
  rw [sentTo_self there] at found
  exact ⟨rfl, (Option.some.inj found).symm⟩

theorem Resuming.deliver (isLog : IsLog keys log) (h : Resuming keys log window s)
    (inLog : ∀ response ∈ window, response ∈ log) {index : Nat} {response : ConsensusTopicResponse}
    (sends : s.Sends log (.data index response)) :
    Resuming keys log window (step keys s (.data index response)) := by
  obtain ⟨stream, there, running, sent⟩ := sends
  obtain ⟨listener, listening⟩ := h.listening
  have split_ := h.sends there running sent
  obtain ⟨gap, list⟩ := h.asked index stream there running
  have inWindow : response ∈ window :=
    List.mem_of_mem_drop (split_ ▸ List.mem_cons_self : response ∈ window.drop s.handled.length)
  have readable := isLog.readable response (inLog response inWindow)
  obtain ⟨timestamp, stamped⟩ := readable.timestamp
  have thereLogged := sentTo_self (Option.mem_def.mp there) response
  have listLogged : (s.sentTo index response).listAt index = waitingFor keys s.handled := by
    rw [listAt, thereLogged]
    exact list
  have handlesIt := @handles keys (s.sentTo index response) _
    (List.getElem?_eq_some_iff.mp thereLogged).1 response listener listening readable (by
      rw [listLogged]
      intro key other member
      exact isLog.readable other (inLog other (h.initial.subset (Gather.mem_gather member))))
  have outlines : (step keys s (.data index response)).outline = (s.sentTo index response).takeFromLimit.outline :=
    outline_handleMessage index response _
  have stepped : step keys s (.data index response) =
      ((handleMessage keys index response).run (s.sentTo index response)).2 := rfl
  rw [stepped] at outlines ⊢
  generalize ((handleMessage keys index response).run (s.sentTo index response)).2 = t at handlesIt outlines
  have handled : t.handled = s.handled ++ [response] := congrArg (·.handled) outlines
  have stop : t.endTime = s.endTime := congrArg (·.endTime) outlines
  have gathers : (Gather.arrive (ConsensusTopicResponse.groupKey keys) ConsensusTopicResponse.total
      (waitingFor keys s.handled) response).1 = waitingFor keys t.handled := by
    rw [handled]
    simp only [waitingFor, Gather.gather_append]
  have thereAfter : ∃ after, t.streams[index]? = some after ∧ after.running = true := by
    obtain ⟨after, inAfter, _, runningAfter, _⟩ := stream_of_outline outlines.symm thereLogged
    exact ⟨after, inAfter, runningAfter.trans running⟩
  have runs : ∀ (i : Nat) (now : Stream), t.streams[i]? = some now → now.running = true →
      i = index ∧ now.request = stream.request ∧ now.sent = stream.sent ++ [response] := by
    intro i now atI runningNow
    obtain ⟨before, inBefore, request, runs, sentBefore⟩ := stream_of_outline outlines atI
    obtain ⟨same, rfl⟩ := h.runs_sentTo there running response inBefore (runs.trans runningNow)
    exact ⟨same, request.symm, sentBefore.symm⟩
  have length : t.handled.length = s.handled.length + 1 := by simp [handled]
  refine ⟨?_, ?_, ?_, ?_, ?_, ?_, ?_, ?_, ?_⟩
  · refine ⟨window.drop (s.handled.length + 1), ?_⟩
    rw [handled, List.append_assoc, List.singleton_append, ← split_]
    exact (List.prefix_append_drop h.initial).symm
  · rw [length]
    refine window_next isLog (h.next.trans split_) stamped ?_ ?_
    · simp only [buildConsensusRequest, handlesIt.startTime, stamped, Option.map_some]
    · simp only [buildConsensusRequest, stop]
  · rw [handlesIt.passed, listLogged, handled, gatheredMessages_append]
    exact congrArg (· ++ _) h.passed
  · intro i now atI runningNow
    obtain ⟨rfl, request, sentNow⟩ := runs i now atI runningNow
    refine ⟨?_, ?_⟩
    · rw [request, sentNow, length, List.length_append, List.length_singleton,
        ← List.drop_drop, gap, List.drop_drop]
    · have here : t.listAt i = now.list := by rw [listAt, atI]
      rw [← here, handlesIt.list, listLogged, gathers]
  · intro i j first second atFirst atSecond runsFirst runsSecond
    rw [(runs i first atFirst runsFirst).1, (runs j second atSecond runsSecond).1]
  · intro stopped
    obtain ⟨after, inAfter, runningAfter⟩ := thereAfter
    rw [stopped after (List.mem_of_getElem? inAfter)] at runningAfter
    cases runningAfter
  · obtain ⟨after, inAfter, runningAfter⟩ := thereAfter
    exact .inl ⟨after, List.mem_of_getElem? inAfter, runningAfter⟩
  · exact ⟨listener, (congrArg (·.listener) outlines : t.listener = s.listener).trans listening⟩
  · have handle : t.handle = s.handle := congrArg (·.handle) outlines
    rw [isUnsubscribed, handle]
    exact h.subscribed

/-- A stream that fails while nothing waits leaves nothing behind. -/
theorem Resuming.fail (h : Resuming keys log window s) {index : Nat} {failure : MirrorFailure}
    (sends : s.Sends log (.failed index failure)) (loses : s.LosesNothing (.failed index failure)) :
    Resuming keys log window (step keys s (.failed index failure)) := by
  have scheduled : step keys s (.failed index failure) =
      (s.onStream index fun stream => { stream with running := false }).scheduleRetry := by
    have subscribed : (s.onStream index fun stream =>
      { stream with running := false }).isUnsubscribed = false := h.subscribed
    have retried : (s.onStream index fun stream =>
      { stream with running := false }).shouldRetry failure = true := sends.2
    simp only [step, handleError, subscribed, retried, Bool.false_eq_true, if_false, if_true]
  have ran : ∀ (i : Nat) (now : Stream),
      (s.onStream index fun stream => { stream with running := false }).streams[i]? = some now →
      now.running = true → s.streams[i]? = some now := by
    intro i now found running
    simp only [onStream, List.getElem?_modify] at found
    obtain ⟨old, inOld, eq⟩ := Option.map_eq_some_iff.mp found
    by_cases same : index = i
    · rw [if_pos same] at eq
      subst eq
      cases running
    · rw [if_neg same] at eq
      rwa [← eq]
  rw [scheduled]
  refine ⟨h.initial, h.next, h.passed, fun i now found running =>
    h.asked i now (ran i now found running) running, fun i j first second atFirst atSecond
      runsFirst runsSecond => h.one i j first second (ran i first atFirst runsFirst)
        (ran j second atSecond runsSecond) runsFirst runsSecond, ?_, .inr ?_, h.listening,
    h.subscribed⟩
  · intro stopped
    by_cases before : ∃ stream, s.streams[index]? = some stream ∧ stream.running = true
    · obtain ⟨stream, there, running⟩ := before
      have nothing := loses stream there running
      rw [(h.asked index stream there running).2] at nothing
      exact nothing
    · refine h.idle fun stream member => ?_
      obtain ⟨i, atI⟩ := List.mem_iff_getElem?.mp member
      by_cases same : index = i
      · subst same
        exact Bool.eq_false_iff.mpr fun running => before ⟨stream, atI, running⟩
      · refine stopped stream (List.mem_iff_getElem?.mpr ⟨i, ?_⟩)
        simp [scheduleRetry, onStream, atI, same]
  · simp [scheduleRetry]

/-- The next stream asks for what is left and waits for nothing. -/
theorem Resuming.reopen (h : Resuming keys log window s) {timer : Nat}
    (loses : s.LosesNothing (.timeout timer)) :
    Resuming keys log window (step keys s (.timeout timer)) := by
  have stopped := loses.2
  have nothing : waitingFor keys s.handled = .empty := by
    have entries := h.idle stopped
    cases waiting : waitingFor keys s.handled with
    | mk list nodup =>
        rw [waiting] at entries
        dsimp only at entries
        subst entries
        rfl
  let new : Stream := { request := s.buildConsensusRequest }
  have streams : (step keys s (.timeout timer)).streams = s.streams ++ [new] := rfl
  have runs : ∀ (i : Nat) (now : Stream), (s.streams ++ [new])[i]? = some now →
      now.running = true → i = s.streams.length ∧ now = new := by
    intro i now found running
    rcases Nat.lt_trichotomy i s.streams.length with before | rfl | behind
    · rw [List.getElem?_append_left before] at found
      rw [stopped now (List.mem_of_getElem? found)] at running
      cases running
    · simpa using found.symm
    · rw [List.getElem?_eq_none (by simp; omega)] at found
      cases found
  have runsNew : ∃ stream ∈ s.streams ++ [new], stream.running = true :=
    ⟨new, List.mem_append_right _ (List.mem_singleton_self new), rfl⟩
  refine ⟨h.initial, h.next, h.passed, ?_, ?_, ?_, .inl (streams ▸ runsNew), h.listening, ?_⟩
  · intro i now found running
    obtain ⟨_, rfl⟩ := runs i now (streams ▸ found) running
    exact ⟨h.next, nothing.symm⟩
  · intro i j first second atFirst atSecond runsFirst runsSecond
    rw [(runs i first (streams ▸ atFirst) runsFirst).1,
      (runs j second (streams ▸ atSecond) runsSecond).1]
  · intro none
    obtain ⟨stream, member, running⟩ := runsNew
    rw [none stream (streams ▸ member)] at running
    cases running
  · have subscribed := h.subscribed
    simp only [isUnsubscribed, step, makeServerStreamRequest] at subscribed ⊢
    cases handle : s.handle with
    | none => rfl
    | some handle =>
        rw [handle] at subscribed
        exact subscribed

theorem Resuming.step (isLog : IsLog keys log) (inLog : ∀ response ∈ window, response ∈ log)
    (h : Resuming keys log window s) (event : Event) (sends : s.Sends log event)
    (loses : s.LosesNothing event) : Resuming keys log window (step keys s event) := by
  cases event with
  | data index response => exact h.deliver isLog inLog sends
  | failed index failure => exact h.fail sends loses
  | ended index => exact absurd sends id
  | timeout timer => exact h.reopen loses
  | unsubscribe => exact absurd sends id

end Subscription

open Subscription

theorem TopicMessageQuery.resuming_subscribe (keys : KeyCodec) (query : TopicMessageQuery)
    (listener : Message → Option String) (log : List ConsensusTopicResponse) :
    Resuming keys log ((query.subscribe listener).buildConsensusRequest.window log)
      (query.subscribe listener) := by
  refine ⟨List.nil_prefix, rfl, rfl, ?_, ?_, ?_, .inl ⟨_, List.mem_singleton_self _, rfl⟩,
    ⟨listener, rfl⟩, rfl⟩
  · intro i stream found running
    match i with
    | 0 =>
        cases found
        exact ⟨rfl, rfl⟩
    | i + 1 => cases found
  · intro i j first second atFirst atSecond _ _
    match i, j with
    | 0, 0 => rfl
    | 0, j + 1 => cases atSecond
    | i + 1, _ => cases atFirst
  · exact fun _ => rfl

/-- Over any number of failures, a subscription handles the log from the first
response on and makes the messages of it that one stream would, as long as nothing
is lost with a stream. While it is not through, some stream runs or is going to. -/
theorem TopicMessageQuery.passes_complete_messages {keys : KeyCodec} (query : TopicMessageQuery)
    (listener : Message → Option String) {log : List ConsensusTopicResponse}
    (isLog : IsLog keys log) {events : List Subscription.Event}
    (guarded : Guarded (step keys) (fun s event => s.Sends log event ∧ s.LosesNothing event)
      (query.subscribe listener) events) :
    let window := (query.subscribe listener).buildConsensusRequest.window log
    let s := runAll (step keys) (query.subscribe listener) events
    s.handled <+: window ∧ s.passed = gatheredMessages keys s.handled ∧
      (Gather.Sized (ConsensusTopicResponse.groupKey keys) ConsensusTopicResponse.total window →
        s.passed = completeMessages keys s.handled) ∧
      ((∃ stream ∈ s.streams, stream.running = true) ∨ s.timers ≠ []) ∧
      ∀ stream ∈ s.streams, stream.running = true →
        stream.sent.length = (stream.request.window log).length → s.handled = window := by
  intro window s
  have run : Resuming keys log window s :=
    runAll_invariant (fun s event h guard =>
      h.step isLog (fun response member => (List.mem_filter.mp member).1) event guard.1 guard.2)
      (query.resuming_subscribe keys listener log) guarded
  refine ⟨run.initial, run.passed, ?_, run.alive, ?_⟩
  · intro sized
    obtain ⟨rest, whole⟩ := run.initial
    rw [run.passed]
    exact gatheredMessages_eq ((whole ▸ sized : Gather.Sized _ _ (s.handled ++ rest)).initial)
  · intro stream member running through
    obtain ⟨i, atI⟩ := List.mem_iff_getElem?.mp member
    have nothing := (run.asked i stream atI running).1
    rw [through, List.drop_length] at nothing
    have whole := List.prefix_append_drop run.initial
    rw [← nothing, List.append_nil] at whole
    exact whole.symm

/-- The chunks of a message of two chunks. -/
def sampleChunk (number : Int) : ConsensusTopicResponse where
  consensusTimestamp := some ⟨1700000000 + number, 5⟩
  message := [1, 2]
  sequenceNumber := number
  chunkInfo := some
    { initialTransactionID := some
        (TransactionId.toProtobuf prefixKeys (.withValidStart (.ofNum 2) ⟨1700000000, 5⟩))
      total := 2
      number }

def sampleLog : List ConsensusTopicResponse := [sampleChunk 1, sampleChunk 2]

theorem isLog_sampleLog : IsLog prefixKeys sampleLog := by
  have readable : ∀ number, (sampleChunk number).Readable prefixKeys := by
    intro number
    refine ⟨⟨_, rfl⟩, fun id here => ?_, fun info here _ => ?_⟩
    · cases here
      exact ⟨_, by
        rw [readTransactionId, TransactionId.fromProtobuf_toProtobuf prefixKeys_faithful]
        rfl⟩
    · cases here
      exact Option.some_ne_none _
  refine ⟨?_, ?_, ?_⟩
  · simp [sampleLog, readable]
  · simp only [sampleLog, List.mem_cons, List.not_mem_nil, or_false]
    rintro response (rfl | rfl) timestamp sent <;> cases sent <;> exact ⟨by decide, by decide⟩
  · simp only [sampleLog, List.pairwise_cons, List.mem_singleton, forall_eq, List.not_mem_nil,
      false_implies, implies_true, List.Pairwise.nil, and_true]
    intro a b first second
    cases first
    cases second
    decide

/-- The stream fails behind the first chunk, and the next one is sent the second. -/
def halvedRun : List Subscription.Event :=
  [.data 0 (sampleChunk 1), .failed 0 (.status 14 "Unavailable"), .timeout 0,
    .data 1 (sampleChunk 2)]

/-- The stream fails behind the message. -/
def wholeRun : List Subscription.Event :=
  [.data 0 (sampleChunk 1), .data 0 (sampleChunk 2), .failed 0 (.status 14 "Unavailable"),
    .timeout 0]

theorem message_before_failure_is_passed :
    (runAll (step prefixKeys) (TopicMessageQuery.subscribe {} fun _ => none) wholeRun).passed =
      gatheredMessages prefixKeys sampleLog := by
  have guarded : Guarded (step prefixKeys)
      (fun s event => s.Sends sampleLog event ∧ s.LosesNothing event)
      (TopicMessageQuery.subscribe {} fun _ => none) wholeRun := by decide +kernel
  have handled : (runAll (step prefixKeys) (TopicMessageQuery.subscribe {} fun _ => none)
      wholeRun).handled = sampleLog := by decide +kernel
  have passed := (TopicMessageQuery.passes_complete_messages {} (fun _ => none) isLog_sampleLog
    guarded).2.1
  rw [passed, handled]

/-- The first chunk is gone with its stream, so the message is never passed. -/
theorem chunk_is_lost :
    ∃ (query : TopicMessageQuery) (listener : Message → Option String)
      (log : List ConsensusTopicResponse) (events : List Subscription.Event),
      query.limit = none ∧ IsLog prefixKeys log ∧
      Guarded (step prefixKeys) (Sends log) (query.subscribe listener) events ∧
      (∃ stream ∈ (runAll (step prefixKeys) (query.subscribe listener) events).streams,
        stream.running = true ∧ stream.sent.length = (stream.request.window log).length) ∧
      (completeMessages prefixKeys log).length = 1 ∧
      (runAll (step prefixKeys) (query.subscribe listener) events).passed = [] :=
  ⟨{}, fun _ => none, sampleLog, halvedRun, rfl, isLog_sampleLog, by decide +kernel,
    by decide +kernel, by decide +kernel, by decide +kernel⟩

end HederaSdk.Topic
