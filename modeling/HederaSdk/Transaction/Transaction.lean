import HederaSdk.Execution.Executable
import HederaSdk.Library.Method
import HederaSdk.Transaction.Messages
import Mathlib.Data.Finset.Insert
import Mathlib.Data.PNat.Defs

/-!
# Transactions

A transaction is frozen by building one signed transaction for each transaction
id and node, row by row. It is signed at once, pair by pair, or on demand: then
keys and signers are only remembered and each request is built and signed when
it is made. Freezing decides which, by the setting of the client.

Two transaction types split their contents into chunks, one transaction id for
each; every other type only has its message.
-/

namespace HederaSdk

open Library
open Js (Value Properties)

instance neZeroFileChunk : NeZero 4096 := ⟨by decide⟩

structure FileAppend where
  fileId : Option Value := none
  contents : Option Bytes := none
  /-- A fraction when read from a ragged list. -/
  maxChunks : ℚ := 20
  chunkSize : ℕ+ := 4096
  /-- In nanoseconds. -/
  chunkInterval : Int := 10

structure ChunkInfo where
  initialTransactionID : TransactionId
  total : Nat
  number : Nat

structure TopicMessage where
  topicId : Option Value := none
  message : Option Bytes := none
  maxChunks : ℚ := 20
  chunkSize : ℕ+ := 1024
  chunkInfo : Option ChunkInfo := none

inductive TransactionData where
  | plain (dataCase : DataCase) (data : Value)
  | fileAppend (append : FileAppend)
  | topicMessageSubmit (submit : TopicMessage)

structure Transaction extends Executable where
  transactions : SdkList (Option ProtoTransaction) := {}
  signedTransactions : SdkList SignedTransaction := {}
  /-- Hex texts of the raw keys that have signed. -/
  signerPublicKeys : Finset String := ∅
  transactionValidDuration : Int := 120
  /-- In tinybars. -/
  defaultMaxTransactionFee : Int := 200000000
  maxTransactionFee : Option Int := none
  transactionMemo : String := ""
  transactionIds : SdkList TransactionId := {}
  publicKeys : List PublicKey := []
  transactionSigners : List (Option Signer) := []
  regenerateTransactionId : Option Bool := none
  operatorAccountId : Option AccountId := none
  data : TransactionData

abbrev TransactionMethod := Method JsError Transaction

/-- `getRequiredChunks` -/
def requiredChunks (length : Nat) (chunkSize : ℕ+) : Nat := (length + (chunkSize - 1)) / chunkSize

def chunkOf (data : Bytes) (chunkSize : ℕ+) (chunk : Nat) : Bytes :=
  (data.drop (chunk * chunkSize)).take chunkSize

def ChunkInfo.toProtobuf (keys : KeyCodec) (info : ChunkInfo) : Value :=
  .object (.cons "initialTransactionID" (info.initialTransactionID.toProtobuf keys)
    (.cons "total" (.number info.total) (.cons "number" (.number info.number) .nil)))

namespace Transaction

variable (proto : Proto)

/-! ## Bodies -/

/-- `_getTransactionDataCase` -/
def dataCase (tx : Transaction) : DataCase :=
  match tx.data with
  | .plain dataCase _ => dataCase
  | .fileAppend _ => .fileAppend
  | .topicMessageSubmit _ => .consensusSubmitMessage

/-- `_makeTransactionData`: a file chunk is chosen by the cursor of the transaction
ids, a topic chunk by the chunk info. -/
def makeTransactionData (tx : Transaction) : Value :=
  match tx.data with
  | .plain _ data => data
  | .fileAppend append =>
      .object <| .consSome "fileID" append.fileId <|
        .consSome "contents" (append.contents.map fun contents =>
          .bytes (chunkOf contents append.chunkSize tx.transactionIds.index)) .nil
  | .topicMessageSubmit submit =>
      match submit.chunkInfo, submit.message with
      | some info, some message =>
          .object <| .consSome "topicID" submit.topicId <|
            .cons "message" (.bytes (chunkOf message submit.chunkSize (info.number - 1))) <|
            .cons "chunkInfo" (info.toProtobuf proto.keys) .nil
      | _, message =>
          .object <| .consSome "topicID" submit.topicId <|
            .consSome "message" (message.map Value.bytes) .nil

def makeTransactionBody (tx : Transaction) (nodeId : Option AccountId) : TransactionBody where
  transactionID := tx.transactionIds.current
  nodeAccountID := nodeId
  transactionFee := tx.maxTransactionFee
  transactionValidDuration := tx.transactionValidDuration
  memo := tx.transactionMemo
  dataCase := tx.dataCase
  data := tx.makeTransactionData proto

def makeSignedTransaction (tx : Transaction) (nodeId : Option AccountId) : SignedTransaction where
  bodyBytes := proto.encodeBody (tx.makeTransactionBody proto nodeId)
  sigMap := some []

/-! ## Freezing -/

def isFrozen (tx : Transaction) : Bool := decide (0 < tx.signedTransactions.length)

/-- `_isFrozen` -/
def isFrozenOrOnDemand (tx : Transaction) : Bool := tx.signOnDemand || tx.isFrozen

def requireFrozen : TransactionMethod Unit := do
  let tx ← Method.this
  if tx.isFrozenOrOnDemand then pure ()
  else
    Method.throwing (.error
      "transaction must have been frozen before calculating the hash will be stable, try calling `freeze`")

def requireNotFrozen : TransactionMethod Unit := do
  let tx ← Method.this
  if tx.isFrozenOrOnDemand then
    Method.throwing (.error
      "transaction is immutable; it has at least one signature or has been explicitly frozen")
  else pure ()

def requireNotSignOnDemand : TransactionMethod Unit := do
  let tx ← Method.this
  if tx.signOnDemand then
    Method.throwing (.error "Please use `toBytesAsync()` if `signOnDemand` is enabled")
  else pure ()

def lockIds (tx : Transaction) : Transaction :=
  { tx with
    transactionIds := tx.transactionIds.setLocked
    nodeAccountIds := tx.nodeAccountIds.setLocked }

/-- `_getTransactionId`: reading the id locks the list of ids. -/
def getTransactionId : TransactionMethod TransactionId := do
  let tx ← Method.this
  let missing : JsError := .error
    "transaction must have been frozen before getting the transaction ID, try calling `freeze`"
  if tx.transactionIds.isEmpty then Method.throwing missing
  else do
    Method.update fun tx => { tx with transactionIds := tx.transactionIds.setLocked }
    match tx.transactionIds.current with
    | some id => pure id
    | none => Method.throwing missing

/-- `_setNodeAccountIds`; `picked` is what the client's network answers. -/
def setNodeAccountIdsFrom (client : Option Client) (picked : Except JsError (List AccountId)) :
    TransactionMethod Unit := do
  let tx ← Method.this
  if !tx.nodeAccountIds.isEmpty then pure ()
  else if client.isNone then
    Method.throwing
      (.error "`nodeAccountId` must be set or `client` must be provided with `freezeWith`")
  else do
    let nodeIds ← Method.ofExcept picked
    let nodeAccountIds ← Method.ofExcept (tx.nodeAccountIds.setList nodeIds)
    Method.update fun tx => { tx with nodeAccountIds }

/-- `_setTransactionId` -/
def checkTransactionId : TransactionMethod Unit := do
  let tx ← Method.this
  if tx.operatorAccountId.isNone && tx.transactionIds.isEmpty then
    Method.throwing
      (.error "`transactionId` must be set or `client` must be provided with `freezeWith`")
  else pure ()

/-- `_buildNewTransactionIdList` -/
def buildNewTransactionIdList (generated : Timestamp) (tx : Transaction) : Transaction :=
  match tx.transactionIds.locked, tx.operatorAccountId with
  | false, some operatorAccountId =>
      { tx with
        transactionIds := tx.transactionIds.set tx.transactionIds.index
          (.withValidStart operatorAccountId generated) }
  | _, _ => tx

/-- `_buildSignedTransactions` -/
def buildSignedTransactions : TransactionMethod Unit := do
  let tx ← Method.this
  if tx.signedTransactions.locked then pure ()
  else do
    let signedTransactions ← Method.ofExcept (tx.signedTransactions.setList
      (tx.nodeAccountIds.list.map fun nodeId => tx.makeSignedTransaction proto (some nodeId)))
    Method.update fun tx => { tx with signedTransactions }

/-- The settings that `freezeWith` takes from the client before it looks at any id. -/
def takeSettings (client : Option Client) (tx : Transaction) : Transaction :=
  { tx with
    signOnDemand := (client.map Client.signOnDemand).getD false
    operator := client.bind Client.operator
    operatorAccountId := tx.operatorAccountId.or (client.bind Client.operatorAccountId)
    maxTransactionFee := some (tx.maxTransactionFee.getD
      ((client.bind Client.defaultMaxTransactionFee).getD tx.defaultMaxTransactionFee))
    regenerateTransactionId := tx.regenerateTransactionId.or
      (client.map Client.defaultRegenerateTransactionId) }

/-- `validateChecksum` of the payer of every transaction id. -/
def validateTransactionIds (client : Option Client) (tx : Transaction) : Except JsError Unit :=
  match client with
  | none => .ok ()
  | some client => tx.transactionIds.list.forM fun id =>
      id.accountId.validateChecksum client.network.ledgerId

/-- `Transaction.freezeWith` -/
def freezeBase (client : Option Client) (picked : Except JsError (List AccountId))
    (generated : Timestamp) : TransactionMethod Unit := do
  Method.update (takeSettings client)
  setNodeAccountIdsFrom client picked
  checkTransactionId
  let tx ← Method.this
  Method.ofExcept (tx.validateTransactionIds client)
  Method.update (buildNewTransactionIdList generated)
  let tx ← Method.this
  if tx.signOnDemand then pure () else buildSignedTransactions proto

/-! ### Chunks -/

def nextChunkId (interval : Int) (id : TransactionId) : TransactionId :=
  .withValidStart id.accountId ⟨id.validStart.seconds, id.validStart.nanos + interval⟩

def pushSignedTransaction (nodeId : AccountId) : TransactionMethod Unit := do
  let tx ← Method.this
  let signedTransactions ← Method.ofExcept
    (tx.signedTransactions.push (tx.makeSignedTransaction proto (some nodeId)))
  Method.update fun tx => { tx with signedTransactions }

def pushTransactionId (id : TransactionId) : TransactionMethod Unit := do
  let tx ← Method.this
  let transactionIds ← Method.ofExcept (tx.transactionIds.push id)
  Method.update fun tx => { tx with transactionIds := transactionIds.advance }

/-- The loop over the chunks: an id for the chunk and a row of signed transactions. -/
def buildChunks (prepare : Nat → Transaction → Transaction) (interval : Int) :
    Nat → Nat → TransactionId → TransactionMethod Unit
  | 0, _, _ => pure ()
  | remaining + 1, chunk, id => do
      Method.update (prepare chunk)
      pushTransactionId id
      let tx ← Method.this
      Method.forEach (pushSignedTransaction proto) tx.nodeAccountIds.list
      buildChunks prepare interval remaining (chunk + 1) (nextChunkId interval id)

/-- The lists are emptied and the lock of the ids is lifted before the chunks are built. -/
def clearForChunks (tx : Transaction) : Transaction :=
  { tx with
    transactionIds := { tx.transactionIds with locked := false }.clear
    transactions := tx.transactions.clear
    signedTransactions := tx.signedTransactions.clear }

/-- `FileAppendTransaction.freezeWith` behind the base method. -/
def freezeFileAppend (append : FileAppend) : TransactionMethod Unit :=
  match append.contents with
  | none => pure ()
  | some contents => do
      let id ← getTransactionId
      Method.update clearForChunks
      buildChunks proto (fun _ tx => tx) append.chunkInterval
        (requiredChunks contents.length append.chunkSize) 0 id
      Method.update fun tx => { tx with transactionIds := tx.transactionIds.advance.setLocked }

def setChunkInfo (submit : TopicMessage) (chunkInfo : Option ChunkInfo) (tx : Transaction) :
    Transaction :=
  { tx with data := .topicMessageSubmit { submit with chunkInfo } }

/-- `TopicMessageSubmitTransaction.freezeWith` behind the base method; the ids are
left unlocked. -/
def freezeTopicMessage (submit : TopicMessage) : TransactionMethod Unit :=
  match submit.message with
  | none => pure ()
  | some message => do
      let chunks := requiredChunks message.length submit.chunkSize
      if submit.maxChunks < chunks then
        Method.throwing (.error
          s!"Message with size {message.length} too long for {submit.maxChunks} chunks")
      else do
        let id ← getTransactionId
        Method.update clearForChunks
        buildChunks proto
          (fun chunk => setChunkInfo submit (some ⟨id, chunks, chunk + 1⟩)) 1 chunks 0 id
        Method.update fun tx =>
          setChunkInfo submit none { tx with transactionIds := tx.transactionIds.advance }

/-- `freezeWith` of the transaction's class. -/
def freezeWith (client : Option Client) (picked : Except JsError (List AccountId))
    (generated : Timestamp) : TransactionMethod Unit := do
  freezeBase proto client picked generated
  let tx ← Method.this
  match tx.data with
  | .plain _ _ => pure ()
  | .fileAppend append => freezeFileAppend proto append
  | .topicMessageSubmit submit => freezeTopicMessage proto submit

/-- `freeze`: without a client no node is picked. -/
def freeze (generated : Timestamp) : TransactionMethod Unit :=
  freezeWith proto none (.ok []) generated

end Transaction

end HederaSdk
