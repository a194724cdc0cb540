import HederaSdk.Update.Fields

/-!
# Key messages as objects

The message of a key is an object with one property, its kind. A list of keys is an object with the
indices as properties.
-/

namespace HederaSdk

open Library
open Js (Value Properties)

/-! ## Contract ids -/

namespace ContractIdMessage

def toValue (id : ContractIdMessage) : Value :=
  .object <| .cons "contractNum" (.long id.contractNum false) <|
    .cons "shardNum" (.long id.shardNum false) <| .cons "realmNum" (.long id.realmNum false) <|
    .consSome "evmAddress" (id.evmAddress.map Value.bytes) .nil

def ofValue (v : Value) : ContractIdMessage where
  shardNum := readNumber "shardNum" v
  realmNum := readNumber "realmNum" v
  contractNum := readNumber "contractNum" v
  evmAddress := (v.get "evmAddress").toBytes?

theorem ofValue_toValue (id : ContractIdMessage) : ofValue id.toValue = id := by
  obtain ⟨shardNum, realmNum, contractNum, evmAddress⟩ := id
  cases evmAddress <;> simp [ofValue, toValue, readNumber, Properties.consSome]

theorem plain_toValue (id : ContractIdMessage) : id.toValue.Plain := by
  obtain ⟨shardNum, realmNum, contractNum, evmAddress⟩ := id
  cases evmAddress <;>
    simp [toValue, Value.Plain, Properties.Plain, Value.long, Properties.consSome, Js.plain_bytes]

end ContractIdMessage

namespace ContractId

def toValue (id : ContractId) : Value := id.toProtobuf.toValue

/-- `_fromProtobuf` -/
def ofValue (v : Value) : ContractId := .fromProtobuf (.ofValue v)

def onWire (id : ContractId) : ContractId := .fromProtobuf id.toProtobuf

theorem readMessage_map (field : Option ContractId) :
    readMessage ofValue ((field.map toValue).getD .undefined) = field.map onWire :=
  HederaSdk.readMessage_map (fun _ => rfl)
    (fun id => congrArg ContractId.fromProtobuf id.toProtobuf.ofValue_toValue) field

theorem plain_field (field : Option ContractId) : PlainField (field.map toValue) :=
  plain_map (fun id => id.toProtobuf.plain_toValue) field

/-- The EVM address is written and not read. -/
theorem sameContractId_iff (field : Option ContractId) (default : Value) :
    ((field.map onWire).map toValue).getD default = (field.map toValue).getD default ↔
      ∀ id ∈ field, id.evmAddress = none := by
  cases field with
  | none => simp
  | some id =>
      have messages : id.onWire.toProtobuf = id.toProtobuf ↔ id.evmAddress = none := by
        simp [onWire, toProtobuf, fromProtobuf, eq_comm]
      simp only [Option.map_some, Option.getD_some, Option.mem_some_iff, forall_eq', ← messages]
      constructor
      · intro same
        have read := congrArg ContractIdMessage.ofValue same
        rwa [toValue, toValue, ContractIdMessage.ofValue_toValue, ContractIdMessage.ofValue_toValue] at read
      · exact congrArg ContractIdMessage.toValue

end ContractId

/-! ## Keys -/

namespace ProtoKey

mutual
def toValue : ProtoKey → Value
  | .contractID id => .object (.cons "contractID" id.toValue .nil)
  | .delegatableContractId id => .object (.cons "delegatableContractId" id.toValue .nil)
  | .ed25519 data => .object (.cons "ed25519" (.bytes data) .nil)
  | .ecdsaSecp256k1 data => .object (.cons "ECDSASecp256k1" (.bytes data) .nil)
  | .thresholdKey threshold keys =>
      .object (.cons "thresholdKey" (.object (.cons "threshold" (.number threshold)
        (.cons "keys" (.object (.cons "keys" (.object (toValues 0 keys)) .nil)) .nil))) .nil)
  | .keyList keys => .object (.cons "keyList" (.object (.cons "keys" (.object (toValues 0 keys)) .nil)) .nil)

/-- The elements of an array from an index on. -/
def toValues : Nat → List ProtoKey → Properties
  | _, [] => .nil
  | index, key :: rest => .cons (toString index) (toValue key) (toValues (index + 1) rest)
end

mutual
def ofValue : Value → Option ProtoKey
  | .object (.cons kind (.object message) .nil) =>
      if kind = "contractID" then some (.contractID (.ofValue (.object message)))
      else if kind = "delegatableContractId" then
        some (.delegatableContractId (.ofValue (.object message)))
      else if kind = "ed25519" then (Value.object message).toBytes?.map .ed25519
      else if kind = "ECDSASecp256k1" then (Value.object message).toBytes?.map .ecdsaSecp256k1
      else if kind = "thresholdKey" then ofThresholdKey message
      else if kind = "keyList" then ofKeyList message
      else none
  | _ => none

def ofThresholdKey : Properties → Option ProtoKey
  | .cons _ (.number threshold) (.cons _ (.object (.cons _ (.object keys) .nil)) .nil) =>
      (ofValues keys).map (.thresholdKey threshold.toNat)
  | _ => none

def ofKeyList : Properties → Option ProtoKey
  | .cons _ (.object keys) .nil => (ofValues keys).map .keyList
  | _ => none

def ofValues : Properties → Option (List ProtoKey)
  | .nil => some []
  | .cons _ key rest =>
      match ofValue key, ofValues rest with
      | some key, some rest => some (key :: rest)
      | _, _ => none
end

mutual
/-- The message of a key is read back from its object. -/
theorem ofValue_toValue : ∀ key : ProtoKey, ofValue key.toValue = some key
  | .contractID id => by
      have whole := id.ofValue_toValue
      rw [toValue]
      rw [ContractIdMessage.toValue] at whole ⊢
      rw [ofValue, if_pos rfl, whole]
  | .delegatableContractId id => by
      have whole := id.ofValue_toValue
      rw [toValue]
      rw [ContractIdMessage.toValue] at whole ⊢
      rw [ofValue, if_neg (by decide), if_pos rfl, whole]
  | .ed25519 data => by
      have whole := Value.toBytes?_bytes data
      rw [toValue]
      rw [Value.bytes] at whole ⊢
      rw [ofValue, if_neg (by decide), if_neg (by decide), if_pos rfl, whole, Option.map_some]
  | .ecdsaSecp256k1 data => by
      have whole := Value.toBytes?_bytes data
      rw [toValue]
      rw [Value.bytes] at whole ⊢
      rw [ofValue, if_neg (by decide), if_neg (by decide), if_neg (by decide), if_pos rfl, whole,
        Option.map_some]
  | .thresholdKey threshold keys => by
      have all := ofValues_toValues 0 keys
      rw [toValue, ofValue, if_neg (by decide), if_neg (by decide), if_neg (by decide),
        if_neg (by decide), if_pos rfl, ofThresholdKey, all]
      rfl
  | .keyList keys => by
      have all := ofValues_toValues 0 keys
      rw [toValue, ofValue, if_neg (by decide), if_neg (by decide), if_neg (by decide),
        if_neg (by decide), if_neg (by decide), if_pos rfl, ofKeyList, all]
      rfl

theorem ofValues_toValues : ∀ (index : Nat) (keys : List ProtoKey),
    ofValues (toValues index keys) = some keys
  | _, [] => by rw [toValues, ofValues]
  | index, key :: rest => by
      have first := ofValue_toValue key
      have others := ofValues_toValues (index + 1) rest
      rw [toValues, ofValues, first, others]
end

theorem toValue_injective : Function.Injective toValue := by
  intro key other same
  have read := ofValue_toValue key
  rw [same, ofValue_toValue] at read
  exact (Option.some.inj read).symm

mutual
theorem plain_toValue : ∀ key : ProtoKey, key.toValue.Plain
  | .contractID id | .delegatableContractId id => by
      rw [toValue]
      exact ⟨id.plain_toValue, trivial⟩
  | .ed25519 data | .ecdsaSecp256k1 data => by
      rw [toValue]
      exact ⟨Js.plain_bytes data, trivial⟩
  | .thresholdKey threshold keys => by
      rw [toValue]
      exact ⟨⟨trivial, ⟨plain_toValues 0 keys, trivial⟩, trivial⟩, trivial⟩
  | .keyList keys => by
      rw [toValue]
      exact ⟨⟨plain_toValues 0 keys, trivial⟩, trivial⟩

theorem plain_toValues : ∀ (index : Nat) (keys : List ProtoKey), (toValues index keys).Plain
  | _, [] => by
      rw [toValues]
      exact trivial
  | index, key :: rest => by
      rw [toValues]
      exact ⟨plain_toValue key, plain_toValues (index + 1) rest⟩
end

end ProtoKey

namespace Key

/-- `_toProtobufKey` -/
def toValue (key : Key) : Value := key.toProtobufKey.toValue

/-- The key that is read back. -/
def onWire (key : Key) : Key := key.map SimpleKey.onWire

mutual
/-- A decoded key without a null in it. -/
def whole? : Decoded → Option Key
  | .leaf key => key.map .leaf
  | .node threshold keys => (wholeAll? keys).map (.node threshold)

def wholeAll? : List Decoded → Option (List Key)
  | [] => some []
  | key :: rest =>
      match whole? key, wholeAll? rest with
      | some key, some rest => some (key :: rest)
      | _, _ => none
end

mutual
theorem whole?_map_some : ∀ key : Key, whole? (key.map some) = some key
  | .leaf key => rfl
  | .node threshold keys => by
      have all := wholeAll?_mapAll_some keys
      rw [Rose.map, whole?, all]
      rfl

theorem wholeAll?_mapAll_some : ∀ keys : List Key, wholeAll? (Rose.mapAll some keys) = some keys
  | [] => rfl
  | key :: rest => by
      have first := whole?_map_some key
      have others := wholeAll?_mapAll_some rest
      rw [Rose.mapAll, wholeAll?, first, others]
end

/-- A null in a list fails once the list is written; here it fails at once. -/
def ofDecoded : Decoded → Except String (Option Key)
  | .leaf key => .ok (key.map .leaf)
  | .node threshold keys =>
      match whole? (.node threshold keys) with
      | some key => .ok (some key)
      | none => .error "Cannot read properties of null (reading '_toProtobufKey')"

theorem ofDecoded_map_some (key : Key) : ofDecoded (key.map some) = .ok (some key) := by
  cases key with
  | leaf key => rfl
  | node threshold keys =>
      have whole := whole?_map_some (.node threshold keys)
      rw [Rose.map_node] at whole ⊢
      rw [ofDecoded, whole]

/-- `Key._fromProtobufKey` -/
def ofValue (decoders : PublicKey.Decoders) (v : Value) : Except String (Option Key) :=
  match ProtoKey.ofValue v with
  | none => .ok none
  | some message => (fromProtobufKey decoders message).bind ofDecoded

theorem ofValue_toValue (decoders : PublicKey.Decoders) (key : Key) :
    ofValue decoders key.toValue = .ok (some key.onWire) := by
  rw [ofValue, toValue, ProtoKey.ofValue_toValue]
  simp only [fromProtobufKey_toProtobufKey, Except.bind]
  exact ofDecoded_map_some key.onWire

theorem plain_toValue (key : Key) : key.toValue.Plain := ProtoKey.plain_toValue _

theorem plain_field (field : Option Key) : PlainField (field.map toValue) := plain_map plain_toValue field

theorem isNullish_toValue (key : Key) : key.toValue.isNullish = false := by
  rw [toValue]
  cases key.toProtobufKey <;> rw [ProtoKey.toValue] <;> rfl

def readField (decoders : PublicKey.Decoders) (v : Value) : Except String (Option Key) :=
  if v.isNullish then .ok none else ofValue decoders v

theorem readField_map (decoders : PublicKey.Decoders) (field : Option Key) :
    readField decoders ((field.map toValue).getD .undefined) = .ok (field.map onWire) := by
  cases field with
  | none => rfl
  | some key => simp [readField, isNullish_toValue, ofValue_toValue]

/-- No contract id in the key has an EVM address. -/
def HasNumbers (key : Key) : Prop := ∀ leaf ∈ key.leaves, leaf.evmAddress = none

theorem toValue_onWire_iff {key : Key} : key.onWire.toValue = key.toValue ↔ key.HasNumbers := by
  rw [toValue, toValue, ProtoKey.toValue_injective.eq_iff]
  exact toProtobufKey_map_iff

theorem sameKey_iff (field : Option Key) (default : Value) :
    ((field.map onWire).map toValue).getD default = (field.map toValue).getD default ↔
      ∀ key ∈ field, key.HasNumbers := by
  cases field with
  | none => simp
  | some key => simp [toValue_onWire_iff]

/-! ### Lists of keys -/

/-- The message of a list of keys. -/
def listMessage (keys : List Key) : Value :=
  .object (.cons "keys" (.object (ProtoKey.toValues 0 (keys.map toProtobufKey))) .nil)

/-- A null among the keys fails once they are written; here it fails at once. -/
def readElement (decoders : PublicKey.Decoders) (message : ProtoKey) : Except String Key := do
  let decoded ← fromProtobufKey decoders message
  match ← ofDecoded decoded with
  | some key => .ok key
  | none => .error "Cannot read properties of null (reading '_toProtobufKey')"

def readList (decoders : PublicKey.Decoders) (v : Value) : Except String (List Key) :=
  match v.get "keys" with
  | .object elements => ((ProtoKey.ofValues elements).getD []).mapM (readElement decoders)
  | _ => .ok []

theorem readList_listMessage (decoders : PublicKey.Decoders) (keys : List Key) :
    readList decoders (listMessage keys) = .ok (keys.map onWire) := by
  have each (key : Key) : readElement decoders key.toProtobufKey = .ok key.onWire := by
    have read := fromProtobufKey_toProtobufKey decoders key
    rw [readElement, read]
    simp only [bind, Except.bind, ofDecoded_map_some]
    rfl
  rw [readList, listMessage, Value.get_object, Properties.get_cons, if_pos rfl]
  simp only [ProtoKey.ofValues_toValues, Option.getD_some]
  rw [List.mapM_map]
  exact except_mapM_ok fun key _ => each key

theorem listMessage_onWire_iff {keys : List Key} :
    listMessage (keys.map onWire) = listMessage keys ↔ ∀ key ∈ keys, key.HasNumbers := by
  have lists (first second : List ProtoKey) :
      ProtoKey.toValues 0 first = ProtoKey.toValues 0 second ↔ first = second := by
    constructor
    · intro same
      have read := ProtoKey.ofValues_toValues 0 first
      rw [same, ProtoKey.ofValues_toValues] at read
      exact (Option.some.inj read).symm
    · exact congrArg (ProtoKey.toValues 0)
  simp only [listMessage, Value.object.injEq, Properties.cons.injEq, true_and, and_true, lists]
  rw [List.map_map, List.map_inj_left]
  exact forall₂_congr fun key _ => toProtobufKey_map_iff

theorem plain_listMessage (keys : List Key) : (listMessage keys).Plain :=
  ⟨ProtoKey.plain_toValues 0 _, trivial⟩

end Key

end HederaSdk
