import HederaSdk.Library.Gather
import HederaSdk.Topic.Query

/-!
# Putting messages together

To a stream, a chunk is an item with the text of its initial transaction id as
key and the total as size; a message of one chunk has no key. A response that
can be read is filed as `Gather.arrive` files it and passes the message of the
group that it completes.
-/

namespace HederaSdk.Topic

open Library
open Js (Value)

/-- A response as a mirror node sends it: with a timestamp, and with an initial
transaction id that can be read wherever a message is split. -/
structure ConsensusTopicResponse.Readable (keys : KeyCodec) (response : ConsensusTopicResponse) :
    Prop where
  timestamp : ∃ timestamp, response.consensusTimestamp = some timestamp
  initialId : ∀ id, response.initialTransactionID = some id →
    ∃ read, readTransactionId keys (some id) = .ok read
  chunk : ∀ info, response.chunkInfo = some info → info.total ≠ 1 →
    info.initialTransactionID ≠ none

namespace ConsensusTopicResponse

variable (keys : KeyCodec)

/-- What the partial groups are filed under; a single chunk is not filed. -/
def groupKey (response : ConsensusTopicResponse) : Option String :=
  match response.chunkInfo with
  | none => none
  | some info =>
      if info.total = 1 then none
      else
        match readTransactionId keys info.initialTransactionID with
        | .ok id => some id.toString
        | .error _ => none

def total (response : ConsensusTopicResponse) : Int :=
  match response.chunkInfo with
  | some info => info.total
  | none => 1

end ConsensusTopicResponse

/-- The message of a complete group. -/
def Message.ofGroup (keys : KeyCodec) : List ConsensusTopicResponse → Except JsError Message
  | [single] => Message.ofSingle keys single
  | responses => Message.ofMany keys responses

/-- The messages that one stream makes of a sequence of responses. -/
def gatheredMessages (keys : KeyCodec) (responses : List ConsensusTopicResponse) : List Message :=
  (Gather.gather (ConsensusTopicResponse.groupKey keys) ConsensusTopicResponse.total .empty
    responses).2.filterMap fun group => (Message.ofGroup keys group).toOption

/-- The messages that are complete in a sequence of responses, each at the place of
its last response. -/
def completeMessages (keys : KeyCodec) (responses : List ConsensusTopicResponse) : List Message :=
  (Gather.completions (ConsensusTopicResponse.groupKey keys) ConsensusTopicResponse.total []
    responses).filterMap fun group => (Message.ofGroup keys group).toOption

/-- Where the chunks of a message name one total and no chunk is there twice, a
stream makes the complete messages. -/
theorem gatheredMessages_eq {keys : KeyCodec} {responses : List ConsensusTopicResponse}
    (sized : Gather.Sized (ConsensusTopicResponse.groupKey keys) ConsensusTopicResponse.total
      responses) :
    gatheredMessages keys responses = completeMessages keys responses := by
  rw [gatheredMessages, (Gather.gather_completions sized).1, completeMessages]

namespace Message

variable {keys : KeyCodec}

theorem readInitialId_ok {response : ConsensusTopicResponse} (readable : response.Readable keys) :
    ∃ id, readInitialId keys response = .ok id := by
  unfold readInitialId
  cases present : response.initialTransactionID with
  | none => exact ⟨none, rfl⟩
  | some id =>
      obtain ⟨read, ok⟩ := readable.initialId id present
      exact ⟨some read, by simp [ok, Except.map]⟩

theorem readTimestamp_ok {response : ConsensusTopicResponse} (readable : response.Readable keys) :
    ∃ timestamp, response.readTimestamp = .ok timestamp := by
  obtain ⟨timestamp, present⟩ := readable.timestamp
  exact ⟨timestamp.onWire, by simp [ConsensusTopicResponse.readTimestamp, present]⟩

theorem fromProtobuf_ok {response : ConsensusTopicResponse} (readable : response.Readable keys) :
    ∃ chunk, MessageChunk.fromProtobuf response = .ok chunk ∧
      chunk.contents = response.message := by
  obtain ⟨timestamp, read⟩ := readTimestamp_ok readable
  exact ⟨_, by rw [MessageChunk.fromProtobuf, read]; rfl, rfl⟩

theorem ofSingle_ok {response : ConsensusTopicResponse} (readable : response.Readable keys) :
    ∃ message, ofSingle keys response = .ok message ∧ message.contents = response.message := by
  obtain ⟨timestamp, readTime⟩ := readTimestamp_ok readable
  obtain ⟨id, readId⟩ := readInitialId_ok readable
  obtain ⟨chunk, readChunk, _⟩ := fromProtobuf_ok readable
  exact ⟨_, by simp [ofSingle, readTime, readId, readChunk, bind, Except.bind]; rfl, rfl⟩

theorem mem_sortChunks {responses : List ConsensusTopicResponse} {response : ConsensusTopicResponse} :
    response ∈ sortChunks responses ↔ response ∈ responses := by
  simp [sortChunks]

theorem mapM_fromProtobuf_ok {responses : List ConsensusTopicResponse}
    (readable : ∀ response ∈ responses, response.Readable keys) :
    ∃ chunks, responses.mapM MessageChunk.fromProtobuf = .ok chunks := by
  induction responses with
  | nil => exact ⟨[], rfl⟩
  | cons response rest inductionHypothesis =>
      obtain ⟨chunk, readChunk, _⟩ := fromProtobuf_ok (readable response List.mem_cons_self)
      obtain ⟨chunks, readRest⟩ := inductionHypothesis fun response inRest =>
        readable response (List.mem_cons_of_mem _ inRest)
      exact ⟨chunk :: chunks, by simp [readChunk, readRest, bind, Except.bind, pure, Except.pure]⟩

theorem ofMany_ok {responses : List ConsensusTopicResponse} (some_ : responses ≠ [])
    (readable : ∀ response ∈ responses, response.Readable keys) :
    ∃ message, ofMany keys responses = .ok message ∧
      message.contents = (sortChunks responses).flatMap ConsensusTopicResponse.message := by
  have last : responses.getLast? = some (responses.getLast some_) :=
    List.getLast?_eq_some_getLast some_
  obtain ⟨timestamp, readTime⟩ := readTimestamp_ok (readable _ (List.getLast_mem some_))
  obtain ⟨chunks, readChunks⟩ := @mapM_fromProtobuf_ok keys (sortChunks responses)
    fun response inSorted => readable response (mem_sortChunks.mp inSorted)
  have first : ∃ id, firstInitialId keys (sortChunks responses) = .ok id := by
    unfold firstInitialId
    cases head : (sortChunks responses).head? with
    | none => exact ⟨none, rfl⟩
    | some first =>
        exact readInitialId_ok (readable first (mem_sortChunks.mp (List.mem_of_head? head)))
  obtain ⟨id, readId⟩ := first
  refine ⟨{
    consensusTimestamp := timestamp
    contents := (sortChunks responses).flatMap ConsensusTopicResponse.message
    runningHash := (responses.getLast some_).runningHash
    sequenceNumber := (responses.getLast some_).sequenceNumber
    initialTransactionId := id
    chunks }, ?_, rfl⟩
  simp only [ofMany, last, readTime, readChunks, readId, bind, Except.bind]
  rfl

theorem ofGroup_ok {responses : List ConsensusTopicResponse} (some_ : responses ≠ [])
    (readable : ∀ response ∈ responses, response.Readable keys) :
    ∃ message, ofGroup keys responses = .ok message ∧
      message.contents = (sortChunks responses).flatMap ConsensusTopicResponse.message := by
  match responses with
  | [] => exact absurd rfl some_
  | [single] =>
      obtain ⟨message, made, contents⟩ := ofSingle_ok (readable single List.mem_cons_self)
      exact ⟨message, made, by simp [sortChunks, contents]⟩
  | first :: second :: rest => exact ofMany_ok some_ readable

end Message

namespace Subscription

variable {keys : KeyCodec}

/-- The chunks that wait once the responses are handled. -/
abbrev waitingFor (keys : KeyCodec) (handled : List ConsensusTopicResponse) :
    OrderedMap String (List ConsensusTopicResponse) :=
  (Gather.gather (ConsensusTopicResponse.groupKey keys) ConsensusTopicResponse.total .empty
    handled).1

theorem gatheredMessages_append (handled : List ConsensusTopicResponse)
    (response : ConsensusTopicResponse) :
    gatheredMessages keys (handled ++ [response]) = gatheredMessages keys handled ++
      ((Gather.arrive (ConsensusTopicResponse.groupKey keys) ConsensusTopicResponse.total
        (waitingFor keys handled) response).2.bind fun group =>
          (Message.ofGroup keys group).toOption).toList := by
  rw [gatheredMessages, Gather.gather_append, List.filterMap_append, gatheredMessages]
  congr 1
  cases (Gather.arrive (ConsensusTopicResponse.groupKey keys) ConsensusTopicResponse.total
    (waitingFor keys handled) response).2 with
  | none => rfl
  | some group => cases made : (Message.ofGroup keys group).toOption <;> simp [made]

/-- What a stream whose waiting chunks can be read does with a response: it files
it and passes the message that is complete. -/
structure Handles (keys : KeyCodec) (index : Nat) (response : ConsensusTopicResponse)
    (s t : Subscription) : Prop where
  list : t.listAt index =
    (Gather.arrive (ConsensusTopicResponse.groupKey keys) ConsensusTopicResponse.total
      (s.listAt index) response).1
  passed : t.passed = s.passed ++
    ((Gather.arrive (ConsensusTopicResponse.groupKey keys) ConsensusTopicResponse.total
      (s.listAt index) response).2.bind fun group => (Message.ofGroup keys group).toOption).toList
  startTime : t.startTime =
    response.consensusTimestamp.map fun timestamp => Transaction.plusNanos timestamp.onWire 1

theorem listAt_setList {s : Subscription} {index : Nat} (there : index < s.streams.length)
    (list : OrderedMap String (List ConsensusTopicResponse)) :
    (s.setList index list).listAt index = list := by
  simp [listAt, setList, onStream, there]

theorem passed_passTopicMessage {s : Subscription} {listener : Message → Option String}
    (listening : s.listener = some listener) (message : Message) :
    (s.passTopicMessage message).passed = s.passed ++ [message] := by
  simp only [passTopicMessage, listening]
  split <;> rfl

theorem streams_passTopicMessage (s : Subscription) (message : Message) :
    (s.passTopicMessage message).streams = s.streams := by
  unfold passTopicMessage
  split
  · rfl
  · dsimp only
    split <;> rfl

theorem startTime_passTopicMessage (s : Subscription) (message : Message) :
    (s.passTopicMessage message).startTime = s.startTime := by
  unfold passTopicMessage
  split
  · rfl
  · dsimp only
    split <;> rfl

theorem listAt_passTopicMessage (s : Subscription) (message : Message) (index : Nat) :
    (s.passTopicMessage message).listAt index = s.listAt index := by
  rw [listAt, streams_passTopicMessage, listAt]

theorem run_passSingle {s : Subscription} {response : ConsensusTopicResponse} {message : Message}
    (made : Message.ofSingle keys response = .ok message) :
    ((passSingle keys response).run s).2 = s.passTopicMessage message := by
  rw [passSingle, made]
  rfl

/-- A chunk waits until its group is complete. -/
theorem run_handleChunkedMessage {s : Subscription} {index : Nat} (there : index < s.streams.length)
    {response : ConsensusTopicResponse} {info : ConsensusMessageChunkInfo}
    {listener : Message → Option String} (listening : s.listener = some listener)
    (chunked : response.chunkInfo = some info) (split_ : info.total ≠ 1)
    (readable : response.Readable keys)
    (waiting : ∀ key, ∀ other ∈ (s.listAt index).bucket key, other.Readable keys) :
    let t := ((handleChunkedMessage keys index response info).run s).2
    t.listAt index = (Gather.arrive (ConsensusTopicResponse.groupKey keys)
        ConsensusTopicResponse.total (s.listAt index) response).1 ∧
      t.passed = s.passed ++ ((Gather.arrive (ConsensusTopicResponse.groupKey keys)
        ConsensusTopicResponse.total (s.listAt index) response).2.bind fun group =>
          (Message.ofGroup keys group).toOption).toList ∧
      t.startTime = s.startTime := by
  obtain ⟨value, present⟩ := Option.ne_none_iff_exists'.mp (readable.chunk info chunked split_)
  obtain ⟨id, read⟩ := readable.initialId value (by
    simp [ConsensusTopicResponse.initialTransactionID, chunked, present])
  have key : response.groupKey keys = some id.toString := by
    simp [ConsensusTopicResponse.groupKey, chunked, split_, present, read]
  have size : response.total = info.total := by simp [ConsensusTopicResponse.total, chunked]
  have filedReadable : ∀ other ∈ ((s.listAt index).push id.toString response).bucket id.toString,
      other.Readable keys := by
    intro other member
    rw [OrderedMap.bucket_push, if_pos rfl] at member
    rcases List.mem_append.mp member with before | last
    · exact waiting _ other before
    · exact List.mem_singleton.mp last ▸ readable
  simp only [handleChunkedMessage, present, read, Gather.arrive, key, size]
  rw [Method.run_bind_ok (Method.run_ofExcept_ok id s), Method.run_this_bind,
    Method.run_update_bind]
  generalize filed : (s.listAt index).push id.toString response = list at filedReadable
  by_cases done : ((list.bucket id.toString).length : Int) = info.total
  · have nonempty : list.bucket id.toString ≠ [] := by
      rw [← filed, OrderedMap.bucket_push, if_pos rfl]
      simp
    obtain ⟨message, made, _⟩ := Message.ofMany_ok nonempty filedReadable
    have grouped : Message.ofGroup keys (list.bucket id.toString) = .ok message := by
      rcases shape : list.bucket id.toString with _ | ⟨single, _ | ⟨second, rest⟩⟩
      · exact absurd shape nonempty
      · rw [shape] at done
        exact absurd done.symm (by simpa using split_)
      · rw [← made, shape]
        rfl
    simp only [done, if_true, made]
    rw [Method.run_bind_ok (Method.run_ofExcept_ok message _), Method.run_update_bind,
      Method.run_update]
    have there' : index < (s.setList index list).streams.length := by
      simpa [setList, onStream] using there
    refine ⟨?_, ?_, ?_⟩
    · rw [listAt_passTopicMessage, listAt_setList there']
    · rw [passed_passTopicMessage (by exact listening)]
      simp [grouped, Except.toOption, setList, onStream]
    · rw [startTime_passTopicMessage]
      rfl
  · simp only [done, if_false]
    exact ⟨listAt_setList there list, by simp [setList, onStream], rfl⟩

/-- A response that can be read is filed, and the message it completes is passed. -/
theorem handles {s : Subscription} {index : Nat} (there : index < s.streams.length)
    {response : ConsensusTopicResponse} {listener : Message → Option String}
    (listening : s.listener = some listener) (readable : response.Readable keys)
    (waiting : ∀ key, ∀ other ∈ (s.listAt index).bucket key, other.Readable keys) :
    Handles keys index response s ((handleMessage keys index response).run s).2 := by
  obtain ⟨timestamp, sent⟩ := readable.timestamp
  let ready : Subscription :=
    { s.takeFromLimit with startTime := some (Transaction.plusNanos timestamp.onWire 1) }
  have dispatched : (handleMessage keys index response).run s =
      (dispatch keys index response).run ready := by
    simp only [handleMessage, advance, ConsensusTopicResponse.readTimestamp, sent]
    rfl
  have startTime : ready.startTime =
      response.consensusTimestamp.map fun timestamp => Transaction.plusNanos timestamp.onWire 1 := by
    simp [ready, sent]
  have single : response.groupKey keys = none →
      Handles keys index response s ((passSingle keys response).run ready).2 := by
    intro alone
    obtain ⟨message, made, _⟩ := Message.ofSingle_ok readable
    rw [run_passSingle made]
    refine ⟨?_, ?_, ?_⟩
    · rw [listAt_passTopicMessage, Gather.arrive, alone]
      rfl
    · rw [passed_passTopicMessage (by exact listening), Gather.arrive, alone]
      simp [Message.ofGroup, made, Except.toOption, ready, takeFromLimit]
    · rw [startTime_passTopicMessage, startTime]
  rw [dispatched, dispatch]
  cases chunked : response.chunkInfo with
  | none => exact single (by simp [ConsensusTopicResponse.groupKey, chunked])
  | some info =>
      by_cases alone : info.total = 1
      · simp only [alone, if_true]
        exact single (by simp [ConsensusTopicResponse.groupKey, chunked, alone])
      · simp only [alone, if_false]
        have chunk := @run_handleChunkedMessage keys ready _ there _ _ listener listening
          chunked alone readable waiting
        exact ⟨chunk.1, chunk.2.1, chunk.2.2.trans startTime⟩

/-- Handled one after the other, responses pass the messages that one stream gathers. -/
theorem runAll_data (query : TopicMessageQuery) (listener : Message → Option String)
    (responses : List ConsensusTopicResponse)
    (readable : ∀ response ∈ responses, response.Readable keys) :
    let s := runAll (step keys) (query.subscribe listener) (responses.map (.data 0))
    s.passed = gatheredMessages keys responses ∧ s.listAt 0 = waitingFor keys responses ∧
      0 < s.streams.length ∧ s.listener = some listener := by
  induction responses using List.reverseRecOn with
  | nil => exact ⟨rfl, rfl, Nat.one_pos, rfl⟩
  | append_singleton responses response inductionHypothesis =>
      obtain ⟨passed, list, there, listening⟩ := inductionHypothesis fun response inResponses =>
        readable response (List.mem_append_left _ inResponses)
      rw [List.map_append, runAll_append]
      generalize runAll (step keys) (query.subscribe listener) (responses.map (.data 0)) = s
        at passed list there listening
      let told : Subscription :=
        { s.onStream 0 fun stream => { stream with sent := stream.sent ++ [response] } with
          handled := s.handled ++ [response] }
      have listTold : told.listAt 0 = waitingFor keys responses := by
        rw [← list]
        simp only [told, listAt, onStream, List.getElem?_modify]
        cases s.streams[0]? <;> rfl
      have thereTold : 0 < told.streams.length := by simpa [told, onStream] using there
      have handles := @handles keys told _ thereTold response listener listening
        (readable response (List.mem_append_right _ (List.mem_singleton_self _)))
        fun key other waits => readable other (List.mem_append_left _
          (Gather.mem_gather (listTold ▸ waits)))
      have outline := @outline_handleMessage keys 0 response told
      refine ⟨?_, ?_, ?_, ?_⟩
      · exact handles.passed.trans (by rw [listTold, gatheredMessages_append, ← passed]; rfl)
      · exact handles.list.trans (by rw [listTold, waitingFor, waitingFor, Gather.gather_append])
      · have lengths : ((handleMessage keys 0 response).run told).2.streams.length =
            told.streams.length := by
          simpa [Subscription.outline, takeFromLimit] using congrArg (·.streams.length) outline
        exact lengths.symm ▸ thereTold
      · exact (congrArg (·.listener) outline).trans listening

end Subscription

end HederaSdk.Topic
