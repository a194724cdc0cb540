import HederaSdk.Transaction.Signing

/-!
# Requests and responses of a transaction

At once, the request is the signed transaction at the position of the two
cursors, ids first. On demand, a new body is built for the node under its
cursor, which moves on, and signed by the signers in the order of their array.
-/

namespace HederaSdk.Transaction

open Library

variable (proto : Proto)

/-! ## Building -/

/-- `_transactions.set(index, { signedTransactionBytes })` -/
def encodeAt (index : Nat) : TransactionMethod Unit := do
  let tx ← Method.this
  match tx.signedTransactions.get index with
  | none => Method.throwing (.typeError "Cannot read properties of undefined (reading 'sigMap')")
  | some signed => Method.update fun tx =>
      { tx with transactions := tx.transactions.set index (some (proto.wrap signed)) }

def pushAbsent (_ : Nat) : TransactionMethod Unit := do
  let tx ← Method.this
  let transactions ← Method.ofExcept (tx.transactions.push none)
  Method.update fun tx => { tx with transactions }

/-- An element that is set is encoded anew, since signatures may have been added. -/
def encodePresent (index : Nat) : TransactionMethod Unit := do
  let tx ← Method.this
  if (tx.transactions.get index).join.isSome then encodeAt proto index else pure ()

def encodeMissing (index : Nat) : TransactionMethod Unit := do
  let tx ← Method.this
  if (tx.transactions.get index).join.isNone then encodeAt proto index else pure ()

/-- `_buildTransaction` -/
def buildTransaction (index : Nat) : TransactionMethod Unit := do
  let tx ← Method.this
  Method.forEach pushAbsent (List.range (index - tx.transactions.length))
  encodePresent proto index
  encodeMissing proto index

/-- The signatures of the signers that are set, each under the key beside it. -/
def signPairs (bodyBytes : Bytes) :
    Nat → List PublicKey → List (Option Signer) → Except JsError (List SignaturePair)
  | _, [], _ => .ok []
  | moment, key :: keys, signers =>
      match signers.head?.join with
      | none => signPairs bodyBytes (moment + 1) keys signers.tail
      | some signer =>
          match signer moment bodyBytes with
          | .error e => .error e
          | .ok signature =>
              (signPairs bodyBytes (moment + 1) keys signers.tail).map
                (key.toProtobufSignature signature :: ·)

/-- `_signTransaction` -/
def signTransaction (moment : Nat) : TransactionMethod SignedTransaction := do
  let tx ← Method.this
  Method.update fun tx => { tx with nodeAccountIds := tx.nodeAccountIds.advance }
  let signed := tx.makeSignedTransaction proto tx.nodeAccountIds.current
  let pairs ← Method.ofExcept
    (signPairs signed.bodyBytes moment tx.publicKeys tx.transactionSigners)
  pure { signed with sigMap := some pairs }

def buildTransactionAsync (moment : Nat) : TransactionMethod ProtoTransaction := do
  let signed ← signTransaction proto moment
  pure (proto.wrap signed)

/-- The flat position of the two cursors. -/
def requestIndex (tx : Transaction) : Nat :=
  tx.transactionIds.index * tx.nodeAccountIds.length + tx.nodeAccountIds.index

def makeRequestAsync (moment : Nat) : TransactionMethod ProtoTransaction := do
  let tx ← Method.this
  if tx.signOnDemand then buildTransactionAsync proto moment
  else do
    let index := tx.requestIndex
    buildTransaction proto index
    let tx ← Method.this
    -- building at the index has set the element
    match (tx.transactions.get index).join with
    | some request => pure request
    | none => Method.throwing (.typeError "Cannot encode undefined")

/-! ## Serializing -/

/-- A file whose contents take more chunks than allowed is not built. -/
def checkChunks (tx : Transaction) : Except JsError Unit :=
  match tx.data with
  | .fileAppend append =>
      let required := match append.contents with
        | none => 1
        | some contents => requiredChunks contents.length append.chunkSize
      if append.maxChunks ≠ 0 ∧ append.maxChunks < required then
        .error (.error
          s!"cannot build `FileAppendTransaction` with more than {append.maxChunks} chunks")
      else .ok ()
  | _ => .ok ()

/-- `_buildAllTransactions` -/
def buildAllTransactions : TransactionMethod Unit := do
  let tx ← Method.this
  Method.ofExcept tx.checkChunks
  Method.forEach (buildTransaction proto) (List.range tx.signedTransactions.length)

/-- An unsigned transaction as it stands in the list of an incomplete one. -/
def incomplete (signed : SignedTransaction) : ProtoTransaction :=
  { bodyBytes := signed.bodyBytes, sigMap := signed.sigMap }

/-- The nodes that incomplete transactions are made for. -/
def incompleteNodes (tx : Transaction) : List (Option AccountId) :=
  if tx.nodeAccountIds.list = [] then [none] else tx.nodeAccountIds.list.map some

/-- `Transaction._buildIncompleteTransactions` -/
def buildIncompleteBase : TransactionMethod Unit := do
  let tx ← Method.this
  let transactions ← Method.ofExcept (tx.transactions.setList
    (tx.incompleteNodes.map fun nodeId => some (incomplete (tx.makeSignedTransaction proto nodeId))))
  Method.update fun tx => { tx with transactions }

def plusNanos (t : Timestamp) (nanos : Int) : Timestamp :=
  let ns := t.nanos + nanos
  ⟨t.seconds + ns.tdiv 1000000000, ns.tmod 1000000000⟩

def pushIncomplete (nodeId : Option AccountId) : TransactionMethod Unit := do
  let tx ← Method.this
  let transactions ← Method.ofExcept
    (tx.transactions.push (some (incomplete (tx.makeSignedTransaction proto nodeId))))
  Method.update fun tx => { tx with transactions }

/-- Reading the transaction id locks the list of ids. -/
def lockTransactionIds (tx : Transaction) : Transaction :=
  if tx.transactionIds.isEmpty then tx
  else { tx with transactionIds := tx.transactionIds.setLocked }

/-- `FileAppendTransaction._buildIncompleteTransactions`; `now` is used when no id is set. -/
def buildIncompleteFileAppend (append : FileAppend) (now : Timestamp) :
    TransactionMethod Unit := do
  Method.update lockTransactionIds
  let tx ← Method.this
  let accountId := (tx.transactionIds.current.map TransactionId.accountId).getD (.ofNum 0)
  let validStart := (tx.transactionIds.current.map TransactionId.validStart).getD now
  Method.ofExcept tx.checkChunks
  Method.update clearForChunks
  let required := match append.contents with
    | none => 1
    | some contents => requiredChunks contents.length append.chunkSize
  Method.forEach (fun chunk => do
    pushTransactionId
      (.withValidStart accountId (plusNanos validStart (append.chunkInterval * (chunk : Nat))))
    let tx ← Method.this
    Method.forEach (pushIncomplete proto) tx.incompleteNodes) (List.range required)
  Method.update fun tx => { tx with transactionIds := tx.transactionIds.advance.setLocked }

/-- `_buildIncompleteTransactions` of the transaction's class. -/
def buildIncompleteTransactions (now : Timestamp) : TransactionMethod Unit := do
  let tx ← Method.this
  match tx.data with
  | .fileAppend append => buildIncompleteFileAppend proto append now
  | _ => buildIncompleteBase proto

/-- Encoding stops at an element that is not set. -/
def encodeTransactions (transactions : List (Option ProtoTransaction)) : Except JsError Bytes :=
  match transactions.mapM id with
  | some list => .ok (proto.encodeList list)
  | none =>
      .error (.typeError "Cannot read properties of null (reading 'signedTransactionBytes')")

def buildForBytes (now : Timestamp) : TransactionMethod Unit := do
  let tx ← Method.this
  if tx.isFrozenOrOnDemand then do
    Method.update lockIds
    buildAllTransactions proto
  else buildIncompleteTransactions proto now

def toBytes (now : Timestamp) : TransactionMethod Bytes := do
  requireNotSignOnDemand
  buildForBytes proto now
  let tx ← Method.this
  Method.ofExcept (encodeTransactions proto tx.transactions.list)

/-! ## Responses -/

structure TransactionResponse where
  nodeId : AccountId
  transactionHash : Bytes
  transactionId : TransactionId
  deriving DecidableEq

/-- The status of a response; a precheck code that is not set means `OK`. -/
def precheckStatus (precheckCode : Option Int) : Except JsError Status :=
  Status.fromCode (precheckCode.getD 0)

/-- `_shouldRetry`: an expired id that is not fixed is replaced by a new one. -/
def shouldRetry (precheckCode : Option Int) (generated : Timestamp) :
    TransactionMethod (Status × ExecutionState) := do
  let status ← Method.ofExcept (precheckStatus precheckCode)
  let tx ← Method.this
  if status ∈ [Status.Busy, .Unknown, .PlatformTransactionNotCreated, .PlatformNotActive] then
    pure (status, .retry)
  else if status = .Ok then pure (status, .finished)
  else if status = .TransactionExpired then
    if tx.transactionIds.locked || tx.regenerateTransactionId = some false then
      pure (status, .error)
    else do
      Method.update (buildNewTransactionIdList generated)
      pure (status, .retry)
  else pure (status, .error)

/-- `_mapStatusError` -/
def mapStatusError (precheckCode : Option Int) (nodeId : AccountId) :
    TransactionMethod JsError := do
  let status ← Method.ofExcept (precheckStatus precheckCode)
  let transactionId ← getTransactionId
  pure (.precheckStatus status.code nodeId transactionId)

/-- `_mapResponse` -/
def mapResponse (sha384 : Bytes → Bytes) (nodeId : AccountId) (request : ProtoTransaction) :
    TransactionMethod TransactionResponse := do
  let transactionHash := sha384 request.signedTransactionBytes
  let transactionId ← getTransactionId
  Method.update fun tx => { tx with transactionIds := tx.transactionIds.advance }
  pure { nodeId, transactionHash, transactionId }

/-- `_getLogId` reads the valid start of the current id. -/
def getLogId : TransactionMethod Unit := do
  let tx ← Method.this
  match tx.transactionIds.current with
  | some _ => pure ()
  | none => Method.throwing (.typeError "Cannot read properties of undefined (reading 'validStart')")

/-! ## Before the execution -/

/-- The operator, when the transaction has none of its own. -/
def takeOperator (client : Client) (tx : Transaction) : Transaction :=
  { tx with
    operator := tx.operator.or client.operator
    operatorAccountId := tx.operatorAccountId.or client.operatorAccountId }

def signWithOwnOperator (moment : Nat) : TransactionMethod Unit := do
  let tx ← Method.this
  match tx.operator with
  | none => pure ()
  | some operator => signWith operator.publicKey operator.transactionSigner moment

def freezeForExecution (client : Client) (picked : Except JsError (List AccountId))
    (generated : Timestamp) : TransactionMethod Unit := do
  let tx ← Method.this
  if tx.isFrozenOrOnDemand then pure () else freezeWith proto (some client) picked generated

def validateOwnChecksums (client : Client) (checksums : TransactionData → Except JsError Unit) :
    TransactionMethod Unit := do
  let tx ← Method.this
  if client.autoValidateChecksums then Method.ofExcept (checksums tx.data) else pure ()

def freezeAndSign (client : Client) (picked : Except JsError (List AccountId))
    (checksums : TransactionData → Except JsError Unit) (generated : Timestamp) (moment : Nat) :
    TransactionMethod Unit := do
  freezeForExecution proto client picked generated
  validateOwnChecksums client checksums
  Method.update (takeOperator client)
  signWithOwnOperator moment

/-- `_beforeExecute`; `checksums` is the check of the ids in the transaction's own data. -/
def beforeExecute (client : Client) (picked : Except JsError (List AccountId))
    (checksums : TransactionData → Except JsError Unit) (generated : Timestamp) (moment : Nat) :
    TransactionMethod Unit := do
  Method.update fun tx => { tx with transactionNodeIds := client.nodeTexts }
  freezeAndSign proto client picked checksums generated moment

end HederaSdk.Transaction
