import HederaSdk.Errors
import Mathlib.Data.List.Sort

/-!
# Messages of a topic

The mirror node answers a subscription with one response for each message that
was submitted. A long message was submitted in chunks: its responses carry a
chunk info, with the id of the first chunk, and are put together again in the
order of their numbers.
-/

namespace HederaSdk.Topic

open Js (Value)

/-- Fields that are not set are read as zero; a message that is not set is `null`. -/
structure ConsensusMessageChunkInfo where
  initialTransactionID : Option Value := none
  total : Int := 0
  number : Int := 0
  deriving DecidableEq

structure ConsensusTopicResponse where
  consensusTimestamp : Option Timestamp := none
  message : Bytes := []
  runningHash : Bytes := []
  sequenceNumber : Int := 0
  chunkInfo : Option ConsensusMessageChunkInfo := none
  deriving DecidableEq

/-- `TransactionId._fromProtobuf` -/
def readTransactionId (keys : KeyCodec) (id : Option Value) : Except JsError TransactionId :=
  match id with
  | none => .error (.typeError "Cannot read properties of null (reading 'accountID')")
  | some id => (TransactionId.fromProtobuf keys id).mapError JsError.error

namespace ConsensusTopicResponse

/-- `Timestamp._fromProtobuf` of the consensus timestamp -/
def readTimestamp (response : ConsensusTopicResponse) : Except JsError Timestamp :=
  match response.consensusTimestamp with
  | none => .error (.typeError "Cannot read properties of null (reading 'seconds')")
  | some timestamp => .ok timestamp.onWire

def initialTransactionID (response : ConsensusTopicResponse) : Option Value :=
  response.chunkInfo.bind ConsensusMessageChunkInfo.initialTransactionID

/-- The number that the chunks are sorted by. -/
def chunkNumber (response : ConsensusTopicResponse) : Int :=
  match response.chunkInfo with
  | some info => info.number
  | none => 0

end ConsensusTopicResponse

/-- `TopicMessageChunk` -/
structure MessageChunk where
  consensusTimestamp : Timestamp
  contents : Bytes
  runningHash : Bytes
  sequenceNumber : Int
  deriving DecidableEq

/-- `TopicMessage` -/
structure Message where
  consensusTimestamp : Timestamp
  contents : Bytes
  runningHash : Bytes
  sequenceNumber : Int
  initialTransactionId : Option TransactionId
  chunks : List MessageChunk
  deriving DecidableEq

def MessageChunk.fromProtobuf (response : ConsensusTopicResponse) : Except JsError MessageChunk :=
  response.readTimestamp.map fun consensusTimestamp =>
    { consensusTimestamp
      contents := response.message
      runningHash := response.runningHash
      sequenceNumber := response.sequenceNumber }

namespace Message

/-- The initial transaction id of a response, when it has one. -/
def readInitialId (keys : KeyCodec) (response : ConsensusTopicResponse) :
    Except JsError (Option TransactionId) :=
  match response.initialTransactionID with
  | none => .ok none
  | some id => (readTransactionId keys (some id)).map some

def ofSingle (keys : KeyCodec) (response : ConsensusTopicResponse) : Except JsError Message := do
  let consensusTimestamp ← response.readTimestamp
  let initialTransactionId ← readInitialId keys response
  let chunk ← MessageChunk.fromProtobuf response
  pure
    { consensusTimestamp
      contents := response.message
      runningHash := response.runningHash
      sequenceNumber := response.sequenceNumber
      initialTransactionId
      chunks := [chunk] }

/-- `responses.sort`: the comparator only tells smaller numbers apart, so equal
numbers stay as they are. -/
def sortChunks (responses : List ConsensusTopicResponse) : List ConsensusTopicResponse :=
  responses.insertionSort fun a b => a.chunkNumber ≤ b.chunkNumber

def firstInitialId (keys : KeyCodec) (sorted : List ConsensusTopicResponse) :
    Except JsError (Option TransactionId) :=
  match sorted.head? with
  | none => .ok none
  | some first => readInitialId keys first

/-- The time, the hash and the sequence number are those of the response that
arrived last. -/
def ofMany (keys : KeyCodec) (responses : List ConsensusTopicResponse) : Except JsError Message :=
  match responses.getLast? with
  | none =>
      .error (.typeError "Cannot read properties of undefined (reading 'consensusTimestamp')")
  | some last => do
      let consensusTimestamp ← last.readTimestamp
      let sorted := sortChunks responses
      let chunks ← sorted.mapM MessageChunk.fromProtobuf
      let initialTransactionId ← firstInitialId keys sorted
      pure
        { consensusTimestamp
          contents := sorted.flatMap ConsensusTopicResponse.message
          runningHash := last.runningHash
          sequenceNumber := last.sequenceNumber
          initialTransactionId
          chunks }

end Message

end HederaSdk.Topic
