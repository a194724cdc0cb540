import HederaSdk.Execution.Executable
import HederaSdk.Library.Method
import HederaSdk.Library.OrderedMap
import HederaSdk.Library.Runs
import HederaSdk.Topic.Message
import HederaSdk.Transaction.Requests

/-!
# Subscriptions to a topic

A subscription opens a stream at a mirror node and opens another one after each
failure that it retries. What it wants next, the start time and the limit, is
kept in the query and moves on with every response; the chunks that wait for
the rest of their message are kept with the stream.

The environment of a subscription sends it events: responses, failures and ends
of its streams, and timers that run out. A step is the answer to one event.
-/

namespace HederaSdk.Topic

open Library
open Js (Value)

/-- What a stream fails with: an `Error` or a status of the mirror node. -/
inductive MirrorFailure where
  | error (message : String)
  | status (code : Int) (details : String)

def MirrorFailure.message : MirrorFailure → String
  | .error message => message
  | .status _ details => details

/-- `_retryHandler` as the constructor sets it. -/
def MirrorFailure.isRetried : MirrorFailure → Bool
  | .error _ => true
  | .status code details =>
      (code = 13 && rstStream details) || code = 5 || code = 8 || code = 14 || code = 17

/-- A limit of 0 asks for every response there will be. -/
structure ConsensusTopicQuery where
  topicID : Option Value
  consensusStartTime : Option Timestamp
  consensusEndTime : Option Timestamp
  limit : Int

/-- `call` is the stream that the handle cancels. -/
structure SubscriptionHandle where
  call : Option Nat := none
  unsubscribed : Bool := false

structure TopicMessageQuery where
  topicId : Option Value := none
  startTime : Option Timestamp := none
  endTime : Option Timestamp := none
  limit : Option Int := none
  maxAttempts : Nat := 20
  /-- In milliseconds. -/
  maxBackoff : Nat := 8000
  retryHandler : MirrorFailure → Bool := MirrorFailure.isRetried
  attempt : Nat := 0
  handle : Option SubscriptionHandle := none
  /-- The listener may throw. -/
  listener : Option (Message → Option String) := none

/-- One call of the mirror node, with the chunks whose message is not complete. -/
structure Stream where
  request : ConsensusTopicQuery
  list : OrderedMap String (List ConsensusTopicResponse) := .empty
  running : Bool := true
  /-- The responses that were sent on it. -/
  sent : List ConsensusTopicResponse := []

/-- A query that was subscribed, with its streams, its timers and all that the
callbacks were called with. -/
structure Subscription extends TopicMessageQuery where
  streams : List Stream := []
  /-- The delays of the timers that are running. -/
  timers : List Nat := []
  passed : List Message := []
  reported : List (Option Message × String) := []
  completed : Nat := 0
  /-- The responses that were handled, over all streams. -/
  handled : List ConsensusTopicResponse := []

abbrev SubscriptionMethod := Method JsError Subscription

namespace Subscription

variable (keys : KeyCodec)

/-! ## Streams -/

def timestampToProtobuf (t : Timestamp) : Timestamp := ⟨t.seconds, Timestamp.toInt t.nanos⟩

/-- `_buildConsensusRequest` -/
def buildConsensusRequest (s : Subscription) : ConsensusTopicQuery where
  topicID := s.topicId
  consensusStartTime := s.startTime.map timestampToProtobuf
  consensusEndTime := s.endTime.map timestampToProtobuf
  limit := s.limit.getD 0

/-- `_makeServerStreamRequest` -/
def makeServerStreamRequest (s : Subscription) : Subscription :=
  { s with
    streams := s.streams ++ [{ request := s.buildConsensusRequest }]
    handle := s.handle.map fun handle => { handle with call := some s.streams.length } }

def onStream (index : Nat) (f : Stream → Stream) (s : Subscription) : Subscription :=
  { s with streams := s.streams.modify index f }

def setList (index : Nat) (list : OrderedMap String (List ConsensusTopicResponse)) :
    Subscription → Subscription :=
  onStream index fun stream => { stream with list }

/-- The partial groups of a stream. -/
def listAt (s : Subscription) (index : Nat) : OrderedMap String (List ConsensusTopicResponse) :=
  match s.streams[index]? with
  | some stream => stream.list
  | none => .empty

/-! ## Responses -/

/-- `_errorHandler` -/
def report (message : Option Message) (error : String) (s : Subscription) : Subscription :=
  { s with reported := s.reported ++ [(message, error)] }

/-- `_passTopicMessage` -/
def passTopicMessage (message : Message) (s : Subscription) : Subscription :=
  match s.listener with
  | none => s.report (some message) "(BUG) listener is unexpectedly not set"
  | some listener =>
      let s := { s with passed := s.passed ++ [message] }
      match listener message with
      | none => s
      | some error => s.report (some message) error

/-- `_handleChunkedMessage` -/
def handleChunkedMessage (index : Nat) (response : ConsensusTopicResponse)
    (info : ConsensusMessageChunkInfo) : SubscriptionMethod Unit := do
  let id ← Method.ofExcept (readTransactionId keys info.initialTransactionID)
  let transactionId := id.toString
  let s ← Method.this
  let list := (s.listAt index).push transactionId response
  Method.update (setList index list)
  let responses := list.bucket transactionId
  if responses.length = info.total then do
    let topicMessage ← Method.ofExcept (Message.ofMany keys responses)
    Method.update (setList index (list.delete transactionId))
    Method.update (passTopicMessage topicMessage)
  else pure ()

/-- A limit that is left goes down by one. -/
def takeFromLimit (s : Subscription) : Subscription :=
  { s with limit := s.limit.map fun limit => if 0 < limit then limit - 1 else limit }

/-- The next stream is to start behind the response. -/
def advance (response : ConsensusTopicResponse) : SubscriptionMethod Unit := do
  let consensusTimestamp ← Method.ofExcept response.readTimestamp
  Method.update fun s => { s with startTime := some (Transaction.plusNanos consensusTimestamp 1) }

def passSingle (response : ConsensusTopicResponse) : SubscriptionMethod Unit := do
  let message ← Method.ofExcept (Message.ofSingle keys response)
  Method.update (passTopicMessage message)

def dispatch (index : Nat) (response : ConsensusTopicResponse) : SubscriptionMethod Unit :=
  match response.chunkInfo with
  | none => passSingle keys response
  | some info =>
      if info.total = 1 then passSingle keys response
      else handleChunkedMessage keys index response info

/-- `_handleMessage` -/
def handleMessage (index : Nat) (response : ConsensusTopicResponse) : SubscriptionMethod Unit := do
  Method.update takeFromLimit
  advance response
  dispatch keys index response

/-! ## Failures -/

def shouldRetry (s : Subscription) (failure : MirrorFailure) : Bool :=
  decide (s.attempt < s.maxAttempts) && s.retryHandler failure

/-- `_scheduleRetry` -/
def scheduleRetry (s : Subscription) : Subscription :=
  { s with
    timers := s.timers ++ [min (250 * 2 ^ s.attempt) s.maxBackoff]
    attempt := s.attempt + 1 }

def isUnsubscribed (s : Subscription) : Bool :=
  (s.handle.map SubscriptionHandle.unsubscribed).getD false

/-- `_handleError` -/
def handleError (failure : MirrorFailure) (s : Subscription) : Subscription :=
  if s.isUnsubscribed then s
  else if s.shouldRetry failure then s.scheduleRetry
  else s.report none failure.message

/-- `SubscriptionHandle.unsubscribe` -/
def unsubscribe (s : Subscription) : Subscription :=
  match s.handle with
  | some { call := some call, .. } =>
      let s := { s with handle := some { call := some call, unsubscribed := true } }
      s.onStream call fun stream => { stream with running := false }
  | _ => s

/-! ## Runs -/

/-- The mirror channel reports one failure both as an error and as a status, so
`failed` may come again for a stream that no longer runs. -/
inductive Event where
  | data (stream : Nat) (response : ConsensusTopicResponse)
  | failed (stream : Nat) (failure : MirrorFailure)
  | ended (stream : Nat)
  | timeout (timer : Nat)
  | unsubscribe

def step (s : Subscription) : Event → Subscription
  | .data index response =>
      let s := s.onStream index fun stream => { stream with sent := stream.sent ++ [response] }
      ((handleMessage keys index response).run { s with handled := s.handled ++ [response] }).2
  | .failed index failure =>
      (s.onStream index fun stream => { stream with running := false }).handleError failure
  | .ended index =>
      let s := s.onStream index fun stream => { stream with running := false }
      { s with completed := s.completed + 1 }
  | .timeout timer => { s with timers := s.timers.eraseIdx timer }.makeServerStreamRequest
  | .unsubscribe => s.unsubscribe

/-! ## What a response changes -/

variable {keys}

/-- What the handling of a response does not write, once it has lowered the limit. -/
def outline (s : Subscription) : Subscription :=
  { s with
    startTime := none
    streams := s.streams.map fun stream => { stream with list := .empty }
    passed := []
    reported := [] }

/-- Two subscriptions of one outline have the same streams up to their partial groups. -/
theorem stream_of_outline {s t : Subscription} (same : s.outline = t.outline) {index : Nat}
    {stream : Stream} (found : s.streams[index]? = some stream) :
    ∃ other, t.streams[index]? = some other ∧ other.request = stream.request ∧
      other.running = stream.running ∧ other.sent = stream.sent := by
  have streams : (s.streams.map fun stream => { stream with list := .empty }) =
      t.streams.map fun stream => { stream with list := .empty } := congrArg (·.streams) same
  have here := congrArg (·[index]?) streams
  simp only [List.getElem?_map, found, Option.map_some] at here
  obtain ⟨other, inOther, equal⟩ := Option.map_eq_some_iff.mp here.symm
  simp only [Stream.mk.injEq, true_and] at equal
  exact ⟨other, inOther, equal⟩

theorem outline_setList (index : Nat) (list : OrderedMap String (List ConsensusTopicResponse))
    (s : Subscription) : (s.setList index list).outline = s.outline := by
  have streams : ((s.setList index list).streams.map fun stream => { stream with list := .empty }) =
      s.streams.map fun stream => { stream with list := .empty } := by
    apply List.ext_getElem?
    intro i
    simp only [setList, onStream, List.getElem?_map, List.getElem?_modify]
    cases s.streams[i]? with
    | none => rfl
    | some stream => by_cases same : index = i <;> simp [same]
  simp only [outline, streams]
  rfl

theorem outline_passTopicMessage (message : Message) (s : Subscription) :
    (s.passTopicMessage message).outline = s.outline := by
  unfold passTopicMessage
  split
  · rfl
  · dsimp only
    split <;> rfl

theorem keeps_handleChunkedMessage (fixed : Subscription) (index : Nat)
    (response : ConsensusTopicResponse) (info : ConsensusMessageChunkInfo) :
    Method.Keeps (fun s => s.outline = fixed.outline)
      (handleChunkedMessage keys index response info) := by
  have setting (list : OrderedMap String (List ConsensusTopicResponse)) :
      Method.Keeps (fun s => s.outline = fixed.outline)
        (Method.update (setList index list) : Method JsError Subscription Unit) :=
    .update fun s h => (outline_setList index list s).trans h
  refine .bind (.ofExcept _) fun id => .bind .this fun s => .bind (setting _) fun _ =>
    .ite (.bind (.ofExcept _) fun message => .bind (setting _) fun _ => .update ?_) (.pure _)
  exact fun s h => (outline_passTopicMessage message s).trans h

theorem keeps_passSingle (fixed : Subscription) (response : ConsensusTopicResponse) :
    Method.Keeps (fun s => s.outline = fixed.outline) (passSingle keys response) :=
  .bind (.ofExcept _) fun message => .update fun s h => (outline_passTopicMessage message s).trans h

/-- A response lowers the limit and changes nothing else of the outline. -/
theorem outline_handleMessage (index : Nat) (response : ConsensusTopicResponse) (s : Subscription) :
    ((handleMessage keys index response).run s).2.outline = s.takeFromLimit.outline := by
  have dispatched : Method.Keeps (fun t => t.outline = s.takeFromLimit.outline)
      (dispatch keys index response) := by
    unfold dispatch
    cases response.chunkInfo with
    | none => exact keeps_passSingle _ response
    | some info =>
        exact .ite (keeps_passSingle _ response) (keeps_handleChunkedMessage _ index response info)
  have rest : Method.Keeps (fun t => t.outline = s.takeFromLimit.outline)
      (advance response >>= fun _ => dispatch keys index response) :=
    .bind (.bind (.ofExcept _) fun _ => .update fun _ h => h) fun _ => dispatched
  exact rest s.takeFromLimit rfl

end Subscription

/-- `subscribe` -/
def TopicMessageQuery.subscribe (query : TopicMessageQuery) (listener : Message → Option String) :
    Subscription :=
  Subscription.makeServerStreamRequest
    { query with handle := some {}, listener := some listener }

end HederaSdk.Topic
