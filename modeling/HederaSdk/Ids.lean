import HederaSdk.Js.Value
import HederaSdk.Keys

/-!
# Account and transaction ids

An id has a text, which the SDK compares ids by, and a protobuf message, which
is what a transaction body carries. `toProtobuf` gives the message as a decoder
returns it: nullish fields are absent and 64-bit fields are `Long` objects.

Not everything survives the message: a checksum is local, a number beside an
alias key is dropped and a timestamp is cut to 32 bits. `onWire` is the id that
is read back.
-/

namespace HederaSdk

open Js (Value)

/-- Encoding of a key inside an alias. Reading may find a key of another kind
(`none`) or no key at all. -/
structure KeyCodec where
  encode : PublicKey → Bytes
  decode : Bytes → Except String (Option PublicKey)

/-- What the generated encoder and decoder of `proto.Key` do for a public key.
A 20-byte alias would be read as an EVM address; an encoded key is longer. -/
structure KeyCodec.Faithful (keys : KeyCodec) : Prop where
  decode_encode : ∀ key, keys.decode (keys.encode key) = .ok (some key)
  encode_length : ∀ key, (keys.encode key).length ≠ 20

abbrev EvmAddress := { bytes : Bytes // bytes.length = 20 }

structure AccountId where
  shard : Int
  realm : Int
  num : Int
  aliasKey : Option PublicKey := none
  evmAddress : Option EvmAddress := none
  checksum : Option String := none
  deriving DecidableEq

namespace AccountId

/-- `new AccountId(num)` -/
def ofNum (num : Int) : AccountId := { shard := 0, realm := 0, num }

def toString (id : AccountId) : String :=
  let account :=
    match id.aliasKey, id.evmAddress with
    | some key, _ => key.toString
    | none, some address => hexEncode address.1
    | none, none => s!"{id.num}"
  s!"{id.shard}.{id.realm}.{account}"

def equals (id other : AccountId) : Bool :=
  let account :=
    match id.aliasKey, other.aliasKey, id.evmAddress, other.evmAddress with
    | some key, some otherKey, _, _ => key.equals otherKey
    | _, _, some address, some otherAddress => decide (address = otherAddress)
    | none, none, none, none => decide (id.num = other.num)
    | _, _, _, _ => false
  decide (id.shard = other.shard) && decide (id.realm = other.realm) && account

/-- The message of the id as a decoder returns it. -/
def toProtobuf (keys : KeyCodec) (id : AccountId) : Value :=
  let withAlias : Js.Properties :=
    match id.aliasKey, id.evmAddress with
    | some key, _ => .cons "alias" (.bytes (keys.encode key)) .nil
    | none, some address =>
        .cons "accountNum" (.long id.num false) (.cons "alias" (.bytes address.1) .nil)
    | none, none => .cons "accountNum" (.long id.num false) .nil
  .object (.cons "shardNum" (.long id.shard false) (.cons "realmNum" (.long id.realm false)
    withAlias))

/-- The key or EVM address an alias stands for; a key that is no `PublicKey` is dropped. -/
def readAlias (keys : KeyCodec) : Option Bytes → Except String (Option PublicKey × Option EvmAddress)
  | none => .ok (none, none)
  | some data =>
      if h : data.length = 20 then .ok (none, some ⟨data, h⟩)
      else (keys.decode data).map fun key => (key, none)

def fromProtobuf (keys : KeyCodec) (id : Value) : Except String AccountId :=
  (readAlias keys (id.get "alias").toBytes?).map fun account =>
    { shard := (id.get "shardNum").toLong?.getD 0
      realm := (id.get "realmNum").toLong?.getD 0
      num := (id.get "accountNum").toLong?.getD 0
      aliasKey := account.1
      evmAddress := account.2 }

/-- The id that is read back from the message. -/
def onWire (id : AccountId) : AccountId :=
  match id.aliasKey with
  | some key => { shard := id.shard, realm := id.realm, num := 0, aliasKey := some key }
  | none => { id with checksum := none }

theorem fromProtobuf_toProtobuf {keys : KeyCodec} (faithful : keys.Faithful) (id : AccountId) :
    fromProtobuf keys (id.toProtobuf keys) = .ok id.onWire := by
  obtain ⟨shard, realm, num, aliasKey, evmAddress, checksum⟩ := id
  cases aliasKey with
  | some key =>
      simp [fromProtobuf, toProtobuf, onWire, readAlias, faithful.decode_encode,
        faithful.encode_length, Except.map]
  | none =>
      cases evmAddress with
      | some address => simp [fromProtobuf, toProtobuf, onWire, readAlias, address.2, Except.map]
      | none => simp [fromProtobuf, toProtobuf, onWire, readAlias, Except.map]

theorem toProtobuf_onWire (keys : KeyCodec) (id : AccountId) :
    id.onWire.toProtobuf keys = id.toProtobuf keys := by
  obtain ⟨shard, realm, num, aliasKey, evmAddress, checksum⟩ := id
  cases aliasKey <;> rfl

theorem equals_onWire (id : AccountId) (num : Int) :
    id.onWire.equals (.ofNum num) = id.equals (.ofNum num) := by
  obtain ⟨shard, realm, _, aliasKey, evmAddress, checksum⟩ := id
  cases aliasKey with
  | none => rfl
  | some key => cases evmAddress <;> simp [onWire, equals, ofNum]

theorem toString_onWire (id : AccountId) : id.onWire.toString = id.toString := by
  obtain ⟨shard, realm, num, aliasKey, evmAddress, checksum⟩ := id
  cases aliasKey <;> rfl

@[simp] theorem onWire_onWire (id : AccountId) : id.onWire.onWire = id.onWire := by
  obtain ⟨shard, realm, num, aliasKey, evmAddress, checksum⟩ := id
  cases aliasKey <;> rfl

end AccountId

/-! ## Transaction ids -/

structure Timestamp where
  seconds : Int
  nanos : Int
  deriving DecidableEq, Repr

/-- `String.padStart(length, "0")` -/
def padStart (length : Nat) (text : String) : String :=
  String.ofList (List.replicate (length - text.length) '0') ++ text

namespace Timestamp

def toString (t : Timestamp) : String :=
  let nanos := padStart 9 s!"{t.nanos}"
  s!"{t.seconds}.{nanos}"

/-- `Long.toInt`: the low 32 bits, signed. -/
def toInt (n : Int) : Int := Int.bmod n 4294967296

def toProtobuf (t : Timestamp) : Value :=
  .object (.cons "seconds" (.long t.seconds false) (.cons "nanos" (.number (toInt t.nanos)) .nil))

def fromProtobuf (t : Value) : Timestamp where
  seconds := toInt ((t.get "seconds").toLong?.getD 0)
  nanos := (t.get "nanos").toNumber?.getD 0

def onWire (t : Timestamp) : Timestamp := ⟨toInt t.seconds, toInt t.nanos⟩

@[simp] theorem fromProtobuf_toProtobuf (t : Timestamp) : fromProtobuf t.toProtobuf = t.onWire := by
  simp [fromProtobuf, toProtobuf, onWire, Value.toNumber?]

end Timestamp

/-- The account and the valid start are set by every factory of the class. -/
structure TransactionId where
  accountId : AccountId
  validStart : Timestamp
  scheduled : Bool := false
  nonce : Option Int := none
  deriving DecidableEq

namespace TransactionId

def withValidStart (accountId : AccountId) (validStart : Timestamp) : TransactionId :=
  { accountId, validStart }

def toString (id : TransactionId) : String :=
  let nonce := match id.nonce with
    | some nonce => s!"/{nonce}"
    | none => ""
  let scheduled := if id.scheduled then "?scheduled" else ""
  s!"{id.accountId.toString}@{id.validStart.toString}{scheduled}{nonce}"

def toProtobuf (keys : KeyCodec) (id : TransactionId) : Value :=
  let nonce : Js.Properties := match id.nonce with
    | some nonce => .cons "nonce" (.number (Timestamp.toInt nonce)) .nil
    | none => .nil
  .object (.cons "transactionValidStart" id.validStart.toProtobuf
    (.cons "accountID" (id.accountId.toProtobuf keys)
      (.cons "scheduled" (.boolean id.scheduled) nonce)))

/-- The constructor reads a nonce of 0 as no nonce. -/
def fromProtobuf (keys : KeyCodec) (id : Value) : Except String TransactionId :=
  if (id.get "accountID").isNullish || (id.get "transactionValidStart").isNullish then
    .error "Neither `nonce` or `accountID` and `transactionValidStart` are set"
  else
    (AccountId.fromProtobuf keys (id.get "accountID")).map fun accountId =>
      { accountId
        validStart := Timestamp.fromProtobuf (id.get "transactionValidStart")
        scheduled := (id.get "scheduled").toBool?.getD false
        nonce := (id.get "nonce").toNumber?.filter (· ≠ 0) }

def onWire (id : TransactionId) : TransactionId where
  accountId := id.accountId.onWire
  validStart := id.validStart.onWire
  scheduled := id.scheduled
  nonce := (id.nonce.map Timestamp.toInt).filter (· ≠ 0)

theorem fromProtobuf_toProtobuf {keys : KeyCodec} (faithful : keys.Faithful) (id : TransactionId) :
    fromProtobuf keys (id.toProtobuf keys) = .ok id.onWire := by
  obtain ⟨accountId, validStart, scheduled, nonce⟩ := id
  have account := AccountId.fromProtobuf_toProtobuf faithful accountId
  have accountSet : (accountId.toProtobuf keys).isNullish = false := rfl
  have startSet : validStart.toProtobuf.isNullish = false := rfl
  cases nonce <;>
    simp [fromProtobuf, toProtobuf, onWire, account, accountSet, startSet, Except.map,
      Value.toNumber?]

end TransactionId

end HederaSdk
