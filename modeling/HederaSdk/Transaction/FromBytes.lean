import HederaSdk.Transaction.Requests

/-!
# Loading transactions

The bytes of a transaction list are read body by body. The different transaction
ids and node ids, in the order of their first occurrence, are taken for the
rows and columns of a grid of bodies, and neighbours in a row are compared.
-/

namespace HederaSdk.Transaction

open Library
open Js (Value)

variable (proto : Proto)

/-- The readers of the transaction types that only have a message: each reads
the message of the first body and hands everything else on unchanged. -/
structure TypeReaders where
  readData : DataCase → Value → Except JsError Value
  defaultMaxTransactionFee : DataCase → Int

/-! ## Reading the list -/

structure Parsed where
  signedTransactions : List SignedTransaction := []
  transactionIds : List TransactionId := []
  nodeIds : List AccountId := []
  bodies : List Value := []

/-- Add an id unless one with the same text was seen. -/
def noteId {Id : Type} (text : Id → String) (ids : List Id) (id : Id) : List Id :=
  if text id ∈ ids.map text then ids else ids ++ [id]

def noteTransactionId (body : Value) (ids : List TransactionId) :
    Except JsError (List TransactionId) :=
  if (body.get "transactionID").isNullish then .ok ids
  else
    match TransactionId.fromProtobuf proto.keys (body.get "transactionID") with
    | .ok id => .ok (noteId TransactionId.toString ids id)
    | .error message => .error (.error message)

def noteNodeId (body : Value) (ids : List AccountId) : Except JsError (List AccountId) :=
  if (body.get "nodeAccountID").isNullish then .ok ids
  else
    match AccountId.fromProtobuf proto.keys (body.get "nodeAccountID") with
    | .ok id => .ok (noteId AccountId.toString ids id)
    | .error message => .error (.error message)

def noteBody (bodyBytes : Bytes) (parsed : Parsed) : Except JsError Parsed := do
  let body ← proto.decodeBody bodyBytes
  let transactionIds ← noteTransactionId proto body parsed.transactionIds
  let nodeIds ← noteNodeId proto body parsed.nodeIds
  if (proto.dataCase body).isNone then
    .error (.error "(BUG) body.data was not set in the protobuf")
  else .ok { parsed with transactionIds, nodeIds, bodies := parsed.bodies ++ [body] }

def noteBareBody (transaction : ProtoTransaction) (parsed : Parsed) : Except JsError Parsed :=
  if transaction.bodyBytes = [] then .ok parsed else noteBody proto transaction.bodyBytes parsed

def noteSignedTransaction (transaction : ProtoTransaction) (parsed : Parsed) :
    Except JsError Parsed :=
  if transaction.signedTransactionBytes = [] then .ok parsed
  else do
    let signed ← proto.decodeSigned transaction.signedTransactionBytes
    noteBody proto signed.bodyBytes
      { parsed with signedTransactions := parsed.signedTransactions ++ [signed] }

/-- A transaction may carry a bare body, a signed transaction, or both. -/
def noteTransaction (transaction : ProtoTransaction) (parsed : Parsed) : Except JsError Parsed := do
  noteSignedTransaction proto transaction (← noteBareBody proto transaction parsed)

def noteAll : List ProtoTransaction → Parsed → Except JsError Parsed
  | [], parsed => .ok parsed
  | transaction :: rest, parsed => do noteAll rest (← noteTransaction proto transaction parsed)

/-- Bytes that are no list are read as a single transaction. -/
def readList (bytes : Bytes) : Except JsError (List ProtoTransaction) := do
  let list ← proto.decodeList bytes
  if list ≠ [] then .ok list
  else do
    let transaction ← proto.decodeTransaction bytes
    if transaction.signedTransactionBytes ≠ [] then .ok [transaction]
    else .ok [proto.wrap { bodyBytes := transaction.bodyBytes, sigMap := transaction.sigMap }]

/-! ## Validation -/

def bodyAt (bodies : List Value) (p : Nat) : Value := (bodies[p]?).getD .undefined

/-- One comparison of neighbours; the node id may differ. -/
def compareNeighbours (bodies : List Value) (p : Nat) : Except JsError Unit :=
  match Js.compare ["nodeAccountID"] (bodyAt bodies p) (bodyAt bodies (p + 1)) with
  | .ok true => .ok ()
  | .ok false => .error (.error "failed to validate transaction bodies")
  | .error _ => .error (.typeError "Cannot convert undefined or null to object")

/-- The positions compared with their right neighbours: `rows` rows of `columns`. -/
def comparedPositions (rows columns : Nat) : List Nat :=
  (List.range rows).flatMap fun i => (List.range (columns - 1)).map fun j => i * columns + j

def validateBodies (bodies : List Value) (rows columns : Nat) : Except JsError Unit :=
  (comparedPositions rows columns).forM (compareNeighbours bodies)

/-! ## Building the transaction -/

/-- The signer loop: every key is recorded without a signer. -/
def noteSigners : List SignaturePair → Transaction → Except JsError Transaction
  | [], tx => .ok tx
  | pair :: rest, tx =>
      match PublicKey.fromBytes proto.decoders pair.pubKeyPrefix with
      | .error message => .error (.error message)
      | .ok key => noteSigners rest
          (recordSigner key none
            { tx with signerPublicKeys := insert (hexEncode pair.pubKeyPrefix) tx.signerPublicKeys })

/-- The signature pairs at a position: those of the signed transaction, or of the
transaction where there is none. -/
def pairsAt (list : List ProtoTransaction) (signed : List SignedTransaction) (i : Nat) :
    Except JsError (List SignaturePair) :=
  match signed[i]?, list[i]? with
  | some signed, _ => .ok signed.sigPair
  | none, some transaction => .ok (transaction.sigMap.getD [])
  | none, none => .error (.typeError "Cannot read properties of undefined (reading 'sigMap')")

/-- `Long.toInt` of the seconds, or the default. -/
def readValidDuration (body : Value) : Int :=
  match ((body.get "transactionValidDuration").get "seconds").toLong? with
  | some seconds => Timestamp.toInt seconds
  | none => 120

/-- A fee of 0 counts as not set. -/
def readTransactionFee (body : Value) : Option Int :=
  (body.get "transactionFee").toLong?.filter (· ≠ 0)

/-- `Transaction._fromProtobufTransactions`: the signers are those of the first signed
transactions, one for each node. -/
def fromProtobufTransactions (tx : Transaction) (list : List ProtoTransaction) (parsed : Parsed) :
    Except JsError Transaction := do
  validateBodies parsed.bodies parsed.transactionIds.length parsed.nodeIds.length
  let nodeIds := parsed.nodeIds.filter fun id => !id.equals (.ofNum 0)
  let rows ← (List.range nodeIds.length).mapM (pairsAt list parsed.signedTransactions)
  noteSigners proto rows.flatten
    { tx with
      transactions := { list := list.map some }
      signedTransactions := { list := parsed.signedTransactions }
      transactionIds := { list := parsed.transactionIds }
      nodeAccountIds := { list := nodeIds }
      transactionValidDuration := readValidDuration (bodyAt parsed.bodies 0)
      maxTransactionFee := readTransactionFee (bodyAt parsed.bodies 0)
      transactionMemo := ((bodyAt parsed.bodies 0).get "memo").toString?.getD "" }

/-- The contents of every body at a multiple of `step`, from the position on. -/
def joinContents (bodies : List Value) (step : Nat) : Nat → Nat → Except JsError Bytes
  | 0, _ => .ok []
  | fuel + 1, p =>
      match bodies[p]? with
      | none => .ok []
      | some body =>
          let append := body.get "fileAppend"
          if append.isNullish then
            .error (.typeError "Cannot read properties of null (reading 'contents')")
          else (joinContents bodies step fuel (p + step)).map
            ((append.get "contents").toBytes?.getD [] ++ ·)

def readOptional (v : Value) : Option Value := if v.isNullish then none else some v

/-- The size of a first chunk, or the default when it is empty. -/
def readChunkSize (length : Nat) : ℕ+ := if h : 0 < length then ⟨length, h⟩ else 4096

/-- `FileAppendTransaction._fromProtobuf` -/
def readFileAppend (parsed : Parsed) : Except JsError FileAppend := do
  let append := (bodyAt parsed.bodies 0).get "fileAppend"
  let step := if 0 < parsed.nodeIds.length then parsed.nodeIds.length else 1
  let contents ← joinContents parsed.bodies step parsed.bodies.length 0
  .ok {
    fileId := readOptional (append.get "fileID")
    contents := some contents
    maxChunks := parsed.bodies.length / step
    chunkSize := readChunkSize ((append.get "contents").toBytes?.getD []).length
    chunkInterval :=
      match parsed.transactionIds with
      | first :: second :: _ => second.validStart.nanos - first.validStart.nanos
      | _ => 10 }

/-- `TopicMessageSubmitTransaction._fromProtobuf`: only the first chunk is kept. -/
def readTopicMessage (parsed : Parsed) : TopicMessage :=
  let message := (bodyAt parsed.bodies 0).get "consensusSubmitMessage"
  { topicId := readOptional (message.get "topicID")
    message := some ((message.get "message").toBytes?.getD []) }

/-- `_fromProtobuf` of the class in the registry. -/
def readTransaction (types : TypeReaders) (dataCase : DataCase) (list : List ProtoTransaction)
    (parsed : Parsed) : Except JsError Transaction :=
  match dataCase with
  | .fileAppend => do
      let append ← readFileAppend parsed
      fromProtobufTransactions proto
        { data := .fileAppend append, defaultMaxTransactionFee := 500000000 } list parsed
  | .consensusSubmitMessage =>
      fromProtobufTransactions proto { data := .topicMessageSubmit (readTopicMessage parsed) } list
        parsed
  | dataCase => do
      let data ← types.readData dataCase (bodyAt parsed.bodies 0)
      fromProtobufTransactions proto
        { data := .plain dataCase data
          defaultMaxTransactionFee := types.defaultMaxTransactionFee dataCase } list parsed

/-- `Transaction.fromBytes` -/
def fromBytes (types : TypeReaders) (bytes : Bytes) : Except JsError Transaction := do
  let list ← readList proto bytes
  let parsed ← noteAll proto list {}
  match proto.dataCase (bodyAt parsed.bodies 0) with
  | none => .error (.error
      "No transaction found in bytes or failed to decode TransactionBody")
  | some name =>
      match DataCase.ofName? name with
      | none => .error (.error
          s!"(BUG) Transaction.fromBytes() not implemented for type {name}")
      | some dataCase => readTransaction proto types dataCase list parsed

end HederaSdk.Transaction
