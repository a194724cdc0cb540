import HederaSdk.Errors
import HederaSdk.Transaction.DataCase

/-!
# Messages of a transaction

The messages that a transaction is sent and stored in, from the inside out: a
body, the signed transaction that carries the bytes of a body and the
signatures over them, the transaction that carries the bytes of a signed
transaction, and the list of such transactions.

`Proto` holds the generated encoders and decoders. A decoded body is an object
of the script language, since bodies are compared property by property.
-/

namespace HederaSdk

open Js (Value Properties)

inductive SignatureCase where
  | contract
  | ed25519
  | rsa3072
  | ecdsa384
  | ecdsaSecp256k1
  deriving DecidableEq

structure SignaturePair where
  pubKeyPrefix : Bytes
  signature : Option (SignatureCase × Bytes)
  deriving DecidableEq

/-- The signature of a pair when it is of a kind the SDK makes. -/
def SignaturePair.ownSignature (pair : SignaturePair) : Option Bytes :=
  match pair.signature with
  | some (.ed25519, signature) | some (.ecdsaSecp256k1, signature) => some signature
  | _ => none

/-- `_toProtobufSignature` -/
def PublicKey.toProtobufSignature (key : PublicKey) (signature : Bytes) : SignaturePair where
  pubKeyPrefix := key.toBytesRaw
  signature := some (match key.type with
    | .ed25519 => .ed25519
    | .secp256k1 => .ecdsaSecp256k1, signature)

/-- The `sigPair` of a signature map that is set. -/
structure SignedTransaction where
  bodyBytes : Bytes
  sigMap : Option (List SignaturePair)
  deriving DecidableEq

namespace SignedTransaction

def sigPair (signed : SignedTransaction) : List SignaturePair := signed.sigMap.getD []

def addPair (signed : SignedTransaction) (pair : SignaturePair) : SignedTransaction :=
  { signed with sigMap := some (signed.sigPair ++ [pair]) }

@[simp] theorem sigPair_addPair (signed : SignedTransaction) (pair : SignaturePair) :
    (signed.addPair pair).sigPair = signed.sigPair ++ [pair] := rfl

@[simp] theorem bodyBytes_addPair (signed : SignedTransaction) (pair : SignaturePair) :
    (signed.addPair pair).bodyBytes = signed.bodyBytes := rfl

end SignedTransaction

/-- Bytes that are not set are read as empty. -/
structure ProtoTransaction where
  signedTransactionBytes : Bytes := []
  bodyBytes : Bytes := []
  sigMap : Option (List SignaturePair) := none
  deriving DecidableEq

structure TransactionBody where
  transactionID : Option TransactionId
  nodeAccountID : Option AccountId
  transactionFee : Option Int
  transactionValidDuration : Int
  memo : String
  dataCase : DataCase
  data : Value

/-- A property that is left out when the value is not set. -/
def Js.Properties.consSome (key : String) (value : Option Value) (rest : Properties) : Properties :=
  match value with
  | some value => .cons key value rest
  | none => rest

/-- The body as a decoder returns it, in the order of the field numbers. -/
def TransactionBody.toObject (keys : KeyCodec) (body : TransactionBody) : Value :=
  .object <|
    .consSome "transactionID" (body.transactionID.map (TransactionId.toProtobuf keys)) <|
    .consSome "nodeAccountID" (body.nodeAccountID.map (AccountId.toProtobuf keys)) <|
    .consSome "transactionFee" (body.transactionFee.map (Value.long · true)) <|
    .cons "transactionValidDuration"
      (.object (.cons "seconds" (.long body.transactionValidDuration false) .nil)) <|
    .cons "memo" (.string body.memo) <|
    .cons body.dataCase.name body.data .nil

/-- The generated encoders and decoders, and the libraries that read a key. -/
structure Proto where
  keys : KeyCodec
  decoders : PublicKey.Decoders
  encodeBody : TransactionBody → Bytes
  decodeBody : Bytes → Except JsError Value
  /-- The getter `data` of a decoded body: the case that is set. -/
  dataCase : Value → Option String
  encodeSigned : SignedTransaction → Bytes
  decodeSigned : Bytes → Except JsError SignedTransaction
  decodeTransaction : Bytes → Except JsError ProtoTransaction
  encodeList : List ProtoTransaction → Bytes
  decodeList : Bytes → Except JsError (List ProtoTransaction)

namespace Proto

/-- The transaction that carries a signed transaction. -/
def wrap (proto : Proto) (signed : SignedTransaction) : ProtoTransaction :=
  { signedTransactionBytes := proto.encodeSigned signed }

/-- A message is decoded to what was encoded. -/
structure Faithful (proto : Proto) : Prop where
  keys : proto.keys.Faithful
  body : ∀ body, proto.decodeBody (proto.encodeBody body) = .ok (body.toObject proto.keys)
  signed : ∀ signed, proto.decodeSigned (proto.encodeSigned signed) = .ok signed
  dataCase : ∀ body : TransactionBody,
    proto.dataCase (body.toObject proto.keys) = some body.dataCase.name
  list : ∀ list, proto.decodeList (proto.encodeList list) = .ok list
  /-- A signed transaction with a body takes at least a byte. -/
  encodeSigned_ne : ∀ signed, signed.bodyBytes ≠ [] → proto.encodeSigned signed ≠ []
  /-- A body has a memo and a valid duration, so it takes at least a byte. -/
  encodeBody_ne : ∀ body, proto.encodeBody body ≠ []

theorem wrap_inj {proto : Proto} (faithful : proto.Faithful) {signed other : SignedTransaction}
    (same : proto.wrap signed = proto.wrap other) : signed = other := by
  have bytes := congrArg ProtoTransaction.signedTransactionBytes same
  have decoded := congrArg proto.decodeSigned bytes
  rw [wrap, wrap, faithful.signed, faithful.signed] at decoded
  exact Except.ok.inj decoded

end Proto

end HederaSdk
