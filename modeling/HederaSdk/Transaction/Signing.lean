import HederaSdk.Library.OrderedMap
import HederaSdk.Transaction.Transaction
import Mathlib.Data.Finset.Basic

/-!
# Signing

The signers of a transaction are recorded in several places: the hex texts of
their keys, the two arrays of keys and signers that are walked in step when a
request is signed on demand, and the signature maps of the signed transactions.
Each method below updates its own choice of these.
-/

namespace HederaSdk.Transaction

open Library

variable (proto : Proto)

/-! ## Signing with a key -/

/-- The loop of `signWith`: each signature is added as soon as it is there, so a
signer that fails leaves the earlier ones behind. -/
def signEach (key : PublicKey) (signer : Signer) :
    Nat → List SignedTransaction → Except JsError Unit × List SignedTransaction
  | _, [] => (.ok (), [])
  | moment, signed :: rest =>
      match signer moment signed.bodyBytes with
      | .error e => (.error e, signed :: rest)
      | .ok signature =>
          let (outcome, rest) := signEach key signer (moment + 1) rest
          (outcome, signed.addPair (key.toProtobufSignature signature) :: rest)

def withSigned (list : List SignedTransaction) (tx : Transaction) : Transaction :=
  { tx with signedTransactions := { tx.signedTransactions with list } }

/-- Replace the signed transactions by what a loop over them made of them. -/
def replaceSigned (result : Except JsError Unit × List SignedTransaction) :
    TransactionMethod Unit := do
  Method.update (withSigned result.2)
  Method.ofExcept result.1

def recordSigner (key : PublicKey) (signer : Option Signer) (tx : Transaction) : Transaction :=
  { tx with
    publicKeys := tx.publicKeys ++ [key]
    transactionSigners := tx.transactionSigners ++ [signer] }

/-- The first signature is made at `moment`. -/
def signWith (key : PublicKey) (signer : Signer) (moment : Nat) : TransactionMethod Unit := do
  requireFrozen
  let tx ← Method.this
  if key.hex ∈ tx.signerPublicKeys then pure ()
  else do
    Method.update fun tx =>
      { tx with
        transactions := tx.transactions.clear
        signerPublicKeys := insert key.hex tx.signerPublicKeys }
    if tx.signOnDemand then Method.update (recordSigner key (some signer))
    else do
      Method.update lockIds
      replaceSigned (signEach key signer moment tx.signedTransactions.list)

theorem run_requireFrozen {tx : Transaction} (frozen : tx.isFrozenOrOnDemand = true) :
    requireFrozen.run tx = (.ok (), tx) := by
  simp [requireFrozen, frozen]

theorem run_signWith_known {key : PublicKey} {tx : Transaction}
    (frozen : tx.isFrozenOrOnDemand = true) (known : key.hex ∈ tx.signerPublicKeys)
    (signer : Signer) (moment : Nat) : (signWith key signer moment).run tx = (.ok (), tx) := by
  rw [signWith, Method.run_bind_ok (run_requireFrozen frozen), Method.run_this_bind, if_pos known,
    Method.run_pure]

/-- The transaction once a new signer has been noted. -/
def noteSigner (key : PublicKey) (tx : Transaction) : Transaction :=
  { tx with
    transactions := tx.transactions.clear
    signerPublicKeys := insert key.hex tx.signerPublicKeys }

theorem run_signWith_onDemand {key : PublicKey} {tx : Transaction} (onDemand : tx.signOnDemand = true)
    (unknown : key.hex ∉ tx.signerPublicKeys) (signer : Signer) (moment : Nat) :
    (signWith key signer moment).run tx = (.ok (), recordSigner key (some signer) (noteSigner key tx)) := by
  have frozen : tx.isFrozenOrOnDemand = true := by simp [isFrozenOrOnDemand, onDemand]
  rw [signWith, Method.run_bind_ok (run_requireFrozen frozen), Method.run_this_bind,
    if_neg unknown, Method.run_update_bind, if_pos onDemand, Method.run_update]
  rfl

theorem run_signWith_immediate {key : PublicKey} {tx : Transaction}
    (frozen : tx.isFrozenOrOnDemand = true) (immediate : tx.signOnDemand = false)
    (unknown : key.hex ∉ tx.signerPublicKeys) (signer : Signer) (moment : Nat) :
    (signWith key signer moment).run tx =
      (replaceSigned (signEach key signer moment tx.signedTransactions.list)).run
        (lockIds (noteSigner key tx)) := by
  rw [signWith, Method.run_bind_ok (run_requireFrozen frozen), Method.run_this_bind,
    if_neg unknown, Method.run_update_bind, if_neg (by simp [immediate]), Method.run_update_bind]
  rfl

/-! ## Adding a signature -/

/-- Signatures by the texts of a node id, a transaction id and a key. -/
abbrev SignatureMap := String → String → String → Option Bytes

/-- The ids a body is made for. -/
def readIds (bodyBytes : Bytes) : Except JsError (TransactionId × AccountId) := do
  let body ← proto.decodeBody bodyBytes
  if (body.get "transactionID").isNullish || (body.get "nodeAccountID").isNullish then
    .error (.error "Transaction ID or Node Account ID not found in the signed transaction")
  else do
    let transactionId ← (TransactionId.fromProtobuf proto.keys (body.get "transactionID")).mapError
      JsError.error
    let nodeId ← (AccountId.fromProtobuf proto.keys (body.get "nodeAccountID")).mapError
      JsError.error
    .ok (transactionId, nodeId)

def findSignature (key : PublicKey) (signatures : SignatureMap) (bodyBytes : Bytes) :
    Except JsError Bytes := do
  let (transactionId, nodeId) ← readIds proto bodyBytes
  match signatures nodeId.toString transactionId.toString key.toString with
  | some signature => .ok signature
  | none => .error (.error "Signature not found for the transaction and public key")

/-- The loop of `addSignature`; the signature map is there even when no signature is found. -/
def addEach (key : PublicKey) (signatures : SignatureMap) :
    List SignedTransaction → Except JsError Unit × List SignedTransaction
  | [] => (.ok (), [])
  | signed :: rest =>
      match findSignature proto key signatures signed.bodyBytes with
      | .error e => (.error e, { signed with sigMap := some signed.sigPair } :: rest)
      | .ok signature =>
          let (outcome, rest) := addEach key signatures rest
          (outcome, signed.addPair (key.toProtobufSignature signature) :: rest)

/-- Freeze a transaction without signed transactions before its signatures are touched. -/
def freezeIfNeeded (generated : Timestamp) : TransactionMethod Unit := do
  let tx ← Method.this
  if tx.isFrozen then pure () else freeze proto generated

def lockForSignature (tx : Transaction) : Transaction :=
  lockIds { tx with
    transactions := tx.transactions.clear
    signedTransactions := tx.signedTransactions.setLocked }

def noteAdded (key : PublicKey) (tx : Transaction) : Transaction :=
  recordSigner key none { tx with signerPublicKeys := insert key.hex tx.signerPublicKeys }

def addSignature (key : PublicKey) (signatures : SignatureMap) (generated : Timestamp) :
    TransactionMethod Unit := do
  freezeIfNeeded proto generated
  let tx ← Method.this
  if key.hex ∈ tx.signerPublicKeys then pure ()
  else do
    Method.update lockForSignature
    replaceSigned (addEach proto key signatures tx.signedTransactions.list)
    Method.update (noteAdded key)

theorem run_freezeIfNeeded {tx : Transaction} (frozen : tx.isFrozen = true) (generated : Timestamp) :
    (freezeIfNeeded proto generated).run tx = (.ok (), tx) := by
  rw [freezeIfNeeded, Method.run_this_bind, if_pos frozen, Method.run_pure]

section

variable {proto} {key : PublicKey} {signatures : SignatureMap} {generated : Timestamp}
  {tx frozen : Transaction}

theorem run_addSignature_known (freezes : (freezeIfNeeded proto generated).run tx = (.ok (), frozen))
    (known : key.hex ∈ frozen.signerPublicKeys) :
    (addSignature proto key signatures generated).run tx = (.ok (), frozen) := by
  rw [addSignature, Method.run_bind_ok freezes, Method.run_this_bind, if_pos known, Method.run_pure]

theorem run_addSignature_unknown
    (freezes : (freezeIfNeeded proto generated).run tx = (.ok (), frozen))
    (unknown : key.hex ∉ frozen.signerPublicKeys) :
    (addSignature proto key signatures generated).run tx =
      let result := addEach proto key signatures frozen.signedTransactions.list
      let added := withSigned result.2 (lockForSignature frozen)
      match result.1 with
      | .ok _ => (.ok (), noteAdded key added)
      | .error e => (.error e, added) := by
  rw [addSignature, Method.run_bind_ok freezes, Method.run_this_bind, if_neg unknown,
    Method.run_update_bind, Method.run_bind, replaceSigned, Method.run_update_bind]
  rcases addEach proto key signatures frozen.signedTransactions.list with ⟨_ | _, list⟩ <;> rfl

end

/-! ## Removing signatures -/

def shouldRemoveSignature (pair : SignaturePair) (publicKeyHex : String) : Bool :=
  decide (hexEncode pair.pubKeyPrefix = publicKeyHex)

def removeSignaturesFromTransaction (publicKeyHex : String) (signed : SignedTransaction) :
    SignedTransaction :=
  { signed with sigMap := signed.sigMap.map (·.filter (!shouldRemoveSignature · publicKeyHex)) }

def removedSignatures (publicKeyHex : String) (signed : SignedTransaction) : List Bytes :=
  (signed.sigPair.filter (shouldRemoveSignature · publicKeyHex)).filterMap
    SignaturePair.ownSignature

/-- Every occurrence of the key leaves the array of keys; the array of signers
loses its last element. -/
def forgetSigner (key : PublicKey) (tx : Transaction) : Transaction :=
  { tx with
    signerPublicKeys := tx.signerPublicKeys.erase key.hex
    publicKeys := tx.publicKeys.filter fun other => !other.equals key
    transactionSigners := tx.transactionSigners.dropLast }

def mapSigned (f : SignedTransaction → SignedTransaction) (tx : Transaction) : Transaction :=
  withSigned (tx.signedTransactions.list.map f) tx

def removeSignature (key : PublicKey) (generated : Timestamp) : TransactionMethod (List Bytes) := do
  freezeIfNeeded proto generated
  let tx ← Method.this
  if key.hex ∈ tx.signerPublicKeys then do
    Method.update fun tx => forgetSigner key (mapSigned (removeSignaturesFromTransaction key.hex) tx)
    pure (tx.signedTransactions.list.flatMap (removedSignatures key.hex))
  else Method.throwing (.error "The public key has not signed this transaction")

/-- Signatures by the text of their prefix, which stands for one key object. -/
abbrev CollectedSignatures := OrderedMap Bytes (PublicKey × List Bytes)

/-- The pairs of one signed transaction; `none` when one is of another kind. -/
def collectPairs : List SignaturePair → CollectedSignatures →
    Except JsError (Option CollectedSignatures)
  | [], collected => .ok (some collected)
  | pair :: rest, collected =>
      match pair.ownSignature with
      | none => .ok none
      | some signature =>
          match collected.get? pair.pubKeyPrefix with
          | some (key, signatures) =>
              collectPairs rest (collected.set pair.pubKeyPrefix (key, signatures ++ [signature]))
          | none =>
              match PublicKey.fromBytes proto.decoders pair.pubKeyPrefix with
              | .error message => .error (.error message)
              | .ok key => collectPairs rest (collected.set pair.pubKeyPrefix (key, [signature]))

/-- `_collectSignaturesByPublicKey`: nothing is collected when a signature map is
missing or a pair is of another kind. -/
def collectSignatures : List SignedTransaction → CollectedSignatures →
    Except JsError CollectedSignatures
  | [], collected => .ok collected
  | signed :: rest, collected =>
      match signed.sigMap with
      | none => .ok .empty
      | some pairs =>
          match collectPairs proto pairs collected with
          | .error e => .error e
          | .ok none => .ok .empty
          | .ok (some collected) => collectSignatures rest collected

/-- The entries of the map that is returned: a key and its signatures. -/
def removeAllSignatures (generated : Timestamp) : TransactionMethod (List (PublicKey × List Bytes)) := do
  freezeIfNeeded proto generated
  let tx ← Method.this
  let removed ← Method.ofExcept (collectSignatures proto tx.signedTransactions.list .empty)
  Method.update fun tx =>
    { mapSigned (fun signed => { signed with sigMap := signed.sigMap.map fun _ => [] }) tx with
      signerPublicKeys := ∅
      publicKeys := []
      transactionSigners := [] }
  pure removed.values

section

variable {proto} {key : PublicKey} {generated : Timestamp} {tx frozen : Transaction}

theorem run_removeSignature (freezes : (freezeIfNeeded proto generated).run tx = (.ok (), frozen)) :
    (removeSignature proto key generated).run tx =
      if key.hex ∈ frozen.signerPublicKeys then
        (.ok (frozen.signedTransactions.list.flatMap (removedSignatures key.hex)),
          forgetSigner key (mapSigned (removeSignaturesFromTransaction key.hex) frozen))
      else (.error (.error "The public key has not signed this transaction"), frozen) := by
  rw [removeSignature, Method.run_bind_ok freezes, Method.run_this_bind]
  split <;> rfl

theorem run_removeAllSignatures
    (freezes : (freezeIfNeeded proto generated).run tx = (.ok (), frozen)) :
    (removeAllSignatures proto generated).run tx =
      match collectSignatures proto frozen.signedTransactions.list .empty with
      | .error e => (.error e, frozen)
      | .ok collected => (.ok collected.values,
          { mapSigned (fun signed => { signed with sigMap := signed.sigMap.map fun _ => [] }) frozen with
            signerPublicKeys := ∅
            publicKeys := []
            transactionSigners := [] }) := by
  rw [removeAllSignatures, Method.run_bind_ok freezes, Method.run_this_bind]
  cases collectSignatures proto frozen.signedTransactions.list .empty with
  | error e => rfl
  | ok collected => rfl

end

end HederaSdk.Transaction
