import HederaSdk.Transaction.Requests

/-!
# Bytes, hashes and signatures of a transaction

The methods that show a transaction build its list of transactions first: at once
from the signed transactions, on demand by signing a body for each node in turn.
Most of them lock the lists then, so that they build nothing again.

Signatures are filed under the texts of node id, transaction id and key.
-/

namespace HederaSdk

open Library

/-! ## Signature maps -/

/-- A map by the texts of its keys. -/
abbrev ObjectMap (β : Type) := OrderedMap String β

/-- The key of a pair, read by the kind of its signature; `none` for another kind. -/
def SignaturePair.readKey (decoders : PublicKey.Decoders) (pair : SignaturePair) :
    Except JsError (Option (PublicKey × Bytes)) :=
  match pair.signature with
  | some (.ed25519, signature) =>
      match PublicKey.fromBytesEd25519 decoders pair.pubKeyPrefix with
      | .ok key => .ok (some (key, signature))
      | .error message => .error (.error message)
  | some (.ecdsaSecp256k1, signature) =>
      match PublicKey.fromBytesEcdsa decoders pair.pubKeyPrefix with
      | .ok key => .ok (some (key, signature))
      | .error message => .error (.error message)
  | _ => .ok none

/-- `SignaturePairMap._fromTransactionSigMap` -/
def signaturePairMap (decoders : PublicKey.Decoders) :
    List SignaturePair → ObjectMap Bytes → Except JsError (ObjectMap Bytes)
  | [], signatures => .ok signatures
  | pair :: rest, signatures => do
      match ← pair.readKey decoders with
      | none => signaturePairMap decoders rest signatures
      | some (key, signature) =>
          signaturePairMap decoders rest (signatures.set key.toString signature)

/-- `NodeAccountIdSignatureMap._fromSignedTransactions`; a place without a signed
transaction throws. -/
def nodeAccountIdSignatureMap (proto : Proto) : List (Option SignedTransaction) →
    ObjectMap (ObjectMap Bytes) → Except JsError (ObjectMap (ObjectMap Bytes))
  | [], signatures => .ok signatures
  | none :: _, _ => .error (.typeError "Cannot destructure property 'bodyBytes' of undefined")
  | some signed :: rest, signatures =>
      match signed.sigMap with
      | none => nodeAccountIdSignatureMap proto rest signatures
      | some pairs => do
          let body ← proto.decodeBody signed.bodyBytes
          if (body.get "transactionID").isNullish then nodeAccountIdSignatureMap proto rest signatures
          else do
            let id ← (TransactionId.fromProtobuf proto.keys (body.get "transactionID")).mapError
              JsError.error
            let pairMap ← signaturePairMap proto.decoders pairs .empty
            nodeAccountIdSignatureMap proto rest (signatures.set id.toString pairMap)

namespace Transaction

variable (proto : Proto)

/-- The signed transactions for a node: one for each transaction id. -/
def signedForNode (tx : Transaction) (row : Nat) : List (Option SignedTransaction) :=
  let rowLength := tx.nodeAccountIds.length
  let columns := (tx.signedTransactions.length + (rowLength - 1)) / rowLength
  (List.range columns).map fun col => tx.signedTransactions.get (col * rowLength + row)

/-- The nodes from a row on. -/
def signatureMapFrom (tx : Transaction) : List AccountId → Nat →
    ObjectMap (ObjectMap (ObjectMap Bytes)) → Except JsError (ObjectMap (ObjectMap (ObjectMap Bytes)))
  | [], _, signatures => .ok signatures
  | nodeId :: rest, row, signatures => do
      let own ← nodeAccountIdSignatureMap proto (tx.signedForNode row) .empty
      signatureMapFrom tx rest (row + 1) (signatures.set nodeId.toString own)

/-- `SignatureMap._fromTransaction` -/
def signatureMap (tx : Transaction) : Except JsError (ObjectMap (ObjectMap (ObjectMap Bytes))) :=
  signatureMapFrom proto tx tx.nodeAccountIds.list 0 .empty

/-- Looking a signature up by the three texts. -/
def lookup (signatures : ObjectMap (ObjectMap (ObjectMap Bytes))) : SignatureMap :=
  fun nodeId id key => (signatures.get? nodeId).bind fun own => (own.get? id).bind (·.get? key)

/-! ## Hashes -/

/-- The nodes from an index on. -/
def transactionHashMapFrom (sha384 : Bytes → Bytes) (tx : Transaction) : List AccountId → Nat →
    ObjectMap Bytes → Except JsError (ObjectMap Bytes)
  | [], _, hashes => .ok hashes
  | nodeId :: rest, i, hashes =>
      match (tx.transactions.get i).join with
      | none => .error (.typeError
          "Cannot read properties of null (reading 'signedTransactionBytes')")
      | some transaction => transactionHashMapFrom sha384 tx rest (i + 1)
          (hashes.set nodeId.toString (sha384 transaction.signedTransactionBytes))

/-- `TransactionHashMap._fromTransaction` -/
def transactionHashMap (sha384 : Bytes → Bytes) (tx : Transaction) :
    Except JsError (ObjectMap Bytes) :=
  transactionHashMapFrom sha384 tx tx.nodeAccountIds.list 0 .empty

/-! ## Building -/

def pushTransaction (moment : Nat) : TransactionMethod Unit := do
  let transaction ← buildTransactionAsync proto moment
  let tx ← Method.this
  let transactions ← Method.ofExcept (tx.transactions.push (some transaction))
  Method.update fun tx => { tx with transactions }

/-- `_buildAllTransactionsAsync`; the signers are called from the given moments on, one
for each transaction. -/
def buildAllTransactionsAsync (moments : Nat → Nat) : TransactionMethod Unit := do
  let tx ← Method.this
  if !tx.signOnDemand then buildAllTransactions proto
  else do
    buildSignedTransactions proto
    let tx ← Method.this
    if tx.transactions.locked then pure ()
    else
      Method.forEach (fun i => pushTransaction proto (moments i))
        (List.range tx.signedTransactions.length)

def lockLists (tx : Transaction) : Transaction :=
  { tx with
    transactions := tx.transactions.setLocked
    signedTransactions := tx.signedTransactions.setLocked }

/-- Lock the ids, build, and lock what was built. -/
def buildAndLock (moments : Nat → Nat) : TransactionMethod Unit := do
  Method.update lockIds
  buildAllTransactionsAsync proto moments
  Method.update lockLists

def toBytesAsync (moments : Nat → Nat) : TransactionMethod Bytes := do
  buildAndLock proto moments
  let tx ← Method.this
  Method.ofExcept (encodeTransactions proto tx.transactions.list)

def getTransactionHash (sha384 : Bytes → Bytes) (moments : Nat → Nat) : TransactionMethod Bytes := do
  requireFrozen
  buildAndLock proto moments
  let tx ← Method.this
  match (tx.transactions.get 0).join with
  | some transaction => pure (sha384 transaction.signedTransactionBytes)
  | none =>
      Method.throwing
        (.typeError "Cannot read properties of undefined (reading 'signedTransactionBytes')")

/-- The lists are left as they are. -/
def getTransactionHashPerNode (sha384 : Bytes → Bytes) (moments : Nat → Nat) :
    TransactionMethod (ObjectMap Bytes) := do
  requireFrozen
  Method.update lockIds
  buildAllTransactionsAsync proto moments
  let tx ← Method.this
  Method.ofExcept (transactionHashMap sha384 tx)

def getSignatures : TransactionMethod (ObjectMap (ObjectMap (ObjectMap Bytes))) := do
  requireFrozen
  requireNotSignOnDemand
  buildAllTransactions proto
  Method.update lockIds
  let tx ← Method.this
  Method.ofExcept (signatureMap proto tx)

def getSignaturesAsync (moments : Nat → Nat) :
    TransactionMethod (ObjectMap (ObjectMap (ObjectMap Bytes))) := do
  buildAndLock proto moments
  let tx ← Method.this
  Method.ofExcept (signatureMap proto tx)

end Transaction

end HederaSdk
