import HederaSdk.Library.PrefixCode
import HederaSdk.Transaction.Messages

/-!
# A codec in executable form

The generated protobuf code stands outside of the model; what the model relies
on is that messages are read back as they were written. This codec does so for
every message, so the assumption can be met, and it can be run.
-/

namespace HederaSdk

open Library.PrefixCode
open Js (Value Properties)

/-! ## Objects -/

mutual

def writeValue : Value → List UInt8
  | .undefined => [0]
  | .null => [1]
  | .number n => 2 :: writeInt n
  | .string s => 3 :: writeString s
  | .boolean b => [4, if b then 1 else 0]
  | .object properties => 5 :: writeProperties properties

def writeProperties : Properties → List UInt8
  | .nil => [0]
  | .cons key value rest => 1 :: (writeString key ++ (writeValue value ++ writeProperties rest))

end

mutual

/-- The fuel bounds the depth; the length of the input is always enough. -/
def readValue : Nat → Reader Value
  | 0, _ => none
  | _, [] => none
  | fuel + 1, tag :: input =>
      if tag = 0 then some (.undefined, input)
      else if tag = 1 then some (.null, input)
      else if tag = 2 then (readInt input).map fun r => (.number r.1, r.2)
      else if tag = 3 then (readString input).map fun r => (.string r.1, r.2)
      else if tag = 4 then (readByte input).map fun r => (.boolean (r.1 = 1), r.2)
      else (readProperties fuel input).map fun r => (.object r.1, r.2)

def readProperties : Nat → Reader Properties
  | 0, _ => none
  | _, [] => none
  | fuel + 1, tag :: input =>
      if tag = 0 then some (.nil, input)
      else
        match readString input with
        | none => none
        | some (key, input) =>
            match readValue fuel input with
            | none => none
            | some (value, input) =>
                (readProperties fuel input).map fun r => (.cons key value r.1, r.2)

end

mutual

theorem reads_value : ∀ (value : Value) (fuel : Nat) (rest : List UInt8),
    (writeValue value).length ≤ fuel → readValue fuel (writeValue value ++ rest) = some (value, rest)
  | value, 0, rest, enough => by cases value <;> simp [writeValue] at enough
  | .undefined, fuel + 1, rest, _ => rfl
  | .null, fuel + 1, rest, _ => rfl
  | .number n, fuel + 1, rest, _ => by simp [writeValue, readValue, reads_int n rest]
  | .string s, fuel + 1, rest, _ => by simp [writeValue, readValue, reads_string s rest]
  | .boolean b, fuel + 1, rest, _ => by cases b <;> rfl
  | .object properties, fuel + 1, rest, enough => by
      have inner := reads_properties properties fuel rest (by simpa [writeValue] using enough)
      simp [writeValue, readValue, inner]

theorem reads_properties : ∀ (properties : Properties) (fuel : Nat) (rest : List UInt8),
    (writeProperties properties).length ≤ fuel →
      readProperties fuel (writeProperties properties ++ rest) = some (properties, rest)
  | properties, 0, rest, enough => by cases properties <;> simp [writeProperties] at enough
  | .nil, fuel + 1, rest, _ => rfl
  | .cons key value properties, fuel + 1, rest, enough => by
      simp only [writeProperties, List.length_cons, List.length_append, Nat.add_le_add_iff_right]
        at enough
      have value' := reads_value value fuel (writeProperties properties ++ rest) (by omega)
      have properties' := reads_properties properties fuel rest (by omega)
      simp [writeProperties, readProperties, reads_string key, value', properties']

end

/-! ## Messages -/

def SignatureCase.toByte : SignatureCase → UInt8
  | .contract => 0
  | .ed25519 => 1
  | .rsa3072 => 2
  | .ecdsa384 => 3
  | .ecdsaSecp256k1 => 4

def SignatureCase.ofByte (b : UInt8) : SignatureCase :=
  if b = 0 then .contract else if b = 1 then .ed25519 else if b = 2 then .rsa3072
  else if b = 3 then .ecdsa384 else .ecdsaSecp256k1

def writeBytes : Writer Bytes := writeList writeByte

def readBytes : Reader Bytes := readList readByte

theorem reads_bytes : Reads writeBytes readBytes := reads_byte.list

def writeSigMap : Writer (Option (List SignaturePair)) :=
  writeOption (writeList fun pair => writePair writeBytes
    (writeOption (writePair (fun c => writeByte (SignatureCase.toByte c)) writeBytes))
      (pair.pubKeyPrefix, pair.signature))

def readSigMap : Reader (Option (List SignaturePair)) :=
  readOption (readList fun input => (readPair readBytes
    (readOption (readPair (fun input => (readByte input).map fun r => (SignatureCase.ofByte r.1, r.2))
      readBytes)) input).map fun r => (⟨r.1.1, r.1.2⟩, r.2))

theorem reads_sigMap : Reads writeSigMap readSigMap := by
  have signatureCase := reads_byte.map (f := SignatureCase.toByte) (g := SignatureCase.ofByte)
    (by intro c; cases c <;> rfl)
  have pair := (reads_bytes.pair (signatureCase.pair reads_bytes).option).map
    (f := fun pair : SignaturePair => (pair.pubKeyPrefix, pair.signature))
    (g := fun p => ⟨p.1, p.2⟩) fun _ => rfl
  exact pair.list.option

def writeSigned (signed : SignedTransaction) : List UInt8 :=
  writePair writeBytes writeSigMap (signed.bodyBytes, signed.sigMap)

def readSigned : Reader SignedTransaction := fun input =>
  (readPair readBytes readSigMap input).map fun r => (⟨r.1.1, r.1.2⟩, r.2)

theorem reads_signed : Reads writeSigned readSigned :=
  (reads_bytes.pair reads_sigMap).map
    (f := fun signed : SignedTransaction => (signed.bodyBytes, signed.sigMap))
    (g := fun p => ⟨p.1, p.2⟩) fun _ => rfl

def writeTransaction (transaction : ProtoTransaction) : List UInt8 :=
  writePair writeBytes (writePair writeBytes writeSigMap)
    (transaction.signedTransactionBytes, transaction.bodyBytes, transaction.sigMap)

def readTransactionMessage : Reader ProtoTransaction := fun input =>
  (readPair readBytes (readPair readBytes readSigMap) input).map fun r =>
    (⟨r.1.1, r.1.2.1, r.1.2.2⟩, r.2)

theorem reads_transaction : Reads writeTransaction readTransactionMessage :=
  (reads_bytes.pair (reads_bytes.pair reads_sigMap)).map
    (f := fun transaction : ProtoTransaction =>
      (transaction.signedTransactionBytes, transaction.bodyBytes, transaction.sigMap))
    (g := fun p => ⟨p.1, p.2.1, p.2.2⟩) fun _ => rfl

/-- The type of a key before its raw bytes. -/
def prefixKeys : KeyCodec where
  encode key := (match key.type with | .ed25519 => 0 | .secp256k1 => 1) :: key.raw
  decode
    | type :: raw =>
        if h : type = 0 ∧ raw.length = 32 then .ok (some ⟨.ed25519, raw, h.2⟩)
        else if h : type = 1 ∧ raw.length = 33 then .ok (some ⟨.secp256k1, raw, h.2⟩)
        else .ok none
    | [] => .error "no key"

theorem prefixKeys_faithful : prefixKeys.Faithful where
  decode_encode := by
    rintro ⟨type, raw, valid⟩
    cases type with
    | ed25519 =>
        have length : raw.length = 32 := valid
        simp [prefixKeys, length]
    | secp256k1 =>
        have length : raw.length = 33 := valid
        simp [prefixKeys, length]
  encode_length := by
    rintro ⟨type, raw, valid⟩
    cases type <;> simp [prefixKeys, valid, KeyType.rawLength]

/-- The last property of a body is its data. -/
def lastKey : Properties → Option String
  | .nil => none
  | .cons key _ .nil => some key
  | .cons _ _ rest => lastKey rest

theorem lastKey_cons {key : String} {value : Value} {rest : Properties} (more : rest ≠ .nil) :
    lastKey (.cons key value rest) = lastKey rest := by
  cases rest with
  | nil => exact absurd rfl more
  | cons _ _ _ => rfl

theorem consSome_ne_nil {key : String} {value : Option Value} {rest : Properties}
    (more : rest ≠ .nil) : Properties.consSome key value rest ≠ .nil := by
  cases value with
  | none => exact more
  | some value => exact Properties.noConfusion

theorem lastKey_consSome {key : String} {value : Option Value} {rest : Properties}
    (more : rest ≠ .nil) : lastKey (.consSome key value rest) = lastKey rest := by
  cases value with
  | none => rfl
  | some value => exact lastKey_cons more

def decodeWith {α : Type} (read : Reader α) (input : Bytes) : Except JsError α :=
  match readAll read input with
  | some a => .ok a
  | none => .error (.error "illegal buffer")

def prefixProto : Proto where
  keys := prefixKeys
  decoders := {
    forge := fun _ => .error "illegal ASN.1"
    elliptic := fun _ => .error "unknown point format" }
  encodeBody body := writeValue (body.toObject prefixKeys)
  decodeBody input := decodeWith (readValue input.length) input
  dataCase
    | .object properties => lastKey properties
    | _ => none
  encodeSigned := writeSigned
  decodeSigned := decodeWith readSigned
  decodeTransaction := decodeWith readTransactionMessage
  encodeList := writeList writeTransaction
  decodeList := decodeWith (readList readTransactionMessage)

theorem prefixProto_faithful : prefixProto.Faithful where
  keys := prefixKeys_faithful
  body := by
    intro body
    have found := reads_value (body.toObject prefixKeys) _ [] (Nat.le_refl _)
    rw [List.append_nil] at found
    simp [prefixProto, decodeWith, readAll, found]
  signed := by
    intro signed
    simp [prefixProto, decodeWith, reads_signed.readAll signed]
  dataCase := by
    intro body
    have more : Properties.cons "transactionValidDuration"
        (.object (.cons "seconds" (.long body.transactionValidDuration false) .nil))
        (.cons "memo" (.string body.memo) (.cons body.dataCase.name body.data .nil)) ≠ .nil := by
      simp
    change lastKey (.consSome _ _ (.consSome _ _ (.consSome _ _ _))) = some body.dataCase.name
    rw [lastKey_consSome (consSome_ne_nil (consSome_ne_nil more)),
      lastKey_consSome (consSome_ne_nil more), lastKey_consSome more]
    rfl
  list := by
    intro list
    simp [prefixProto, decodeWith, reads_transaction.list.readAll list]
  encodeSigned_ne := by
    intro signed _
    simp [prefixProto, writeSigned, writePair, writeBytes, writeList, writeNat_ne_nil]
  encodeBody_ne := by
    intro body
    simp [prefixProto, TransactionBody.toObject, writeValue]

end HederaSdk
