import HederaSdk.Keys
import HederaSdk.Library.Rose

/-!
# Trees of keys

A key is a public key, a contract id, a delegatable contract id or a list of keys with an
optional threshold. It goes to the network as a tree of messages and is read back leaf by
leaf. All of it survives but the EVM address of a contract id, which is written and not
read.
-/

namespace HederaSdk

open Library

structure ContractId where
  shard : Int
  realm : Int
  num : Int
  evmAddress : Option Bytes := none
  checksum : Option String := none
  deriving DecidableEq

/-- The message of a contract id. -/
structure ContractIdMessage where
  shardNum : Int
  realmNum : Int
  contractNum : Int
  evmAddress : Option Bytes
  deriving DecidableEq

namespace ContractId

def toProtobuf (id : ContractId) : ContractIdMessage where
  shardNum := id.shard
  realmNum := id.realm
  contractNum := id.num
  evmAddress := id.evmAddress

def fromProtobuf (id : ContractIdMessage) : ContractId where
  shard := id.shardNum
  realm := id.realmNum
  num := id.contractNum

/-- `new DelegateContractId(id)` of another contract id. -/
def delegate (id : ContractId) : ContractId where
  shard := id.shard
  realm := id.realm
  num := id.num

end ContractId

/-! ## Keys and their messages -/

inductive SimpleKey where
  | publicKey (key : PublicKey)
  | contractId (id : ContractId)
  | delegateContractId (id : ContractId)
  deriving DecidableEq

/-- A tree of keys; a list has its threshold. -/
abbrev Key := Rose SimpleKey (Option Nat)

/-- The message of a key, one of the kinds it may be of. -/
inductive ProtoKey where
  | contractID (id : ContractIdMessage)
  | delegatableContractId (id : ContractIdMessage)
  | ed25519 (data : Bytes)
  | ecdsaSecp256k1 (data : Bytes)
  | thresholdKey (threshold : Nat) (keys : List ProtoKey)
  | keyList (keys : List ProtoKey)

def PublicKey.toProtobufKey (key : PublicKey) : ProtoKey :=
  match key.type with
  | .ed25519 => .ed25519 key.toBytesRaw
  | .secp256k1 => .ecdsaSecp256k1 key.toBytesRaw

def SimpleKey.toProtobufKey : SimpleKey → ProtoKey
  | .publicKey key => key.toProtobufKey
  | .contractId id => .contractID id.toProtobuf
  | .delegateContractId id => .delegatableContractId id.toProtobuf

namespace Key

mutual
def toProtobufKey : Key → ProtoKey
  | .leaf key => key.toProtobufKey
  | .node none keys => .keyList (toProtobufKeys keys)
  | .node (some threshold) keys => .thresholdKey threshold (toProtobufKeys keys)

def toProtobufKeys : List Key → List ProtoKey
  | [] => []
  | key :: rest => toProtobufKey key :: toProtobufKeys rest
end

/-- What a message is read as; a leaf without a key is null. -/
abbrev Decoded := Rose (Option SimpleKey) (Option Nat)

section FromProtobuf

variable (decoders : PublicKey.Decoders)

/-- Read a public key; no bytes are no key. -/
def fromProtobufBytes (read : Bytes → Except String PublicKey) (data : Bytes) :
    Except String Decoded :=
  if data.length > 0 then (read data).map fun key => .leaf (some (.publicKey key))
  else .ok (.leaf none)

mutual
def fromProtobufKey : ProtoKey → Except String Decoded
  | .contractID id => .ok (.leaf (some (.contractId (.fromProtobuf id))))
  | .delegatableContractId id =>
      .ok (.leaf (some (.delegateContractId (ContractId.fromProtobuf id).delegate)))
  | .ed25519 data => fromProtobufBytes (PublicKey.fromBytesEd25519 decoders) data
  | .ecdsaSecp256k1 data => fromProtobufBytes (PublicKey.fromBytesEcdsa decoders) data
  | .thresholdKey threshold keys => (fromProtobufKeys keys).map (.node (some threshold))
  | .keyList keys => (fromProtobufKeys keys).map (.node none)

def fromProtobufKeys : List ProtoKey → Except String (List Decoded)
  | [] => .ok []
  | key :: rest => do
      let key ← fromProtobufKey key
      let rest ← fromProtobufKeys rest
      pure (key :: rest)
end

end FromProtobuf

/-! ## Reading back -/

end Key

namespace SimpleKey

def evmAddress : SimpleKey → Option Bytes
  | publicKey _ => none
  | contractId id => id.evmAddress
  | delegateContractId id => id.evmAddress

/-- A key as it is shown without the checksum of its id. -/
def withoutChecksum : SimpleKey → SimpleKey
  | publicKey key => .publicKey key
  | contractId id => .contractId { id with checksum := none }
  | delegateContractId id => .delegateContractId { id with checksum := none }

/-- A key as it is read back. -/
def onWire : SimpleKey → SimpleKey
  | publicKey key => .publicKey key
  | contractId id => .contractId id.delegate
  | delegateContractId id => .delegateContractId id.delegate

theorem toProtobufKey_onWire {key : SimpleKey} :
    key.onWire.toProtobufKey = key.toProtobufKey ↔ key.evmAddress = none := by
  cases key <;>
    simp [onWire, toProtobufKey, evmAddress, ContractId.toProtobuf, ContractId.delegate, eq_comm]

theorem withoutChecksum_onWire {key : SimpleKey} (number : key.evmAddress = none) :
    key.onWire.withoutChecksum = key.withoutChecksum := by
  cases key with
  | publicKey key => rfl
  | contractId id => simp_all [onWire, withoutChecksum, ContractId.delegate, evmAddress]
  | delegateContractId id => simp_all [onWire, withoutChecksum, ContractId.delegate, evmAddress]

theorem fromProtobufKey_toProtobufKey (decoders : PublicKey.Decoders) (key : SimpleKey) :
    Key.fromProtobufKey decoders key.toProtobufKey = .ok (.leaf (some key.onWire)) := by
  cases key with
  | publicKey key =>
      obtain ⟨type, raw, valid⟩ := key
      cases type with
      | ed25519 =>
          have length : raw.length = 32 := valid
          simp [toProtobufKey, PublicKey.toProtobufKey, PublicKey.toBytesRaw, Key.fromProtobufKey,
            Key.fromProtobufBytes, PublicKey.fromBytesEd25519, length, Except.map, onWire]
      | secp256k1 =>
          have length : raw.length = 33 := valid
          simp [toProtobufKey, PublicKey.toProtobufKey, PublicKey.toBytesRaw, Key.fromProtobufKey,
            Key.fromProtobufBytes, PublicKey.fromBytesEcdsa, length, Except.map, onWire]
  | contractId id => rfl
  | delegateContractId id => rfl

end SimpleKey

namespace Key

theorem toProtobufKeys_eq (keys : List Key) : toProtobufKeys keys = keys.map toProtobufKey := by
  induction keys with
  | nil => rfl
  | cons key rest inductionHypothesis => rw [toProtobufKeys, inductionHypothesis, List.map_cons]

/-- Every key is read back, in its place, and every threshold. -/
theorem fromProtobufKey_toProtobufKey (decoders : PublicKey.Decoders) (key : Key) :
    fromProtobufKey decoders key.toProtobufKey = .ok ((key.map SimpleKey.onWire).map some) := by
  rw [Rose.map_map]
  induction key using Rose.induct with
  | leaf key =>
      rw [toProtobufKey, Rose.map_leaf]
      exact SimpleKey.fromProtobufKey_toProtobufKey decoders key
  | node threshold keys inductionHypothesis =>
      have read : fromProtobufKeys decoders (toProtobufKeys keys) =
          .ok (keys.map (Rose.map (some ∘ SimpleKey.onWire))) := by
        induction keys with
        | nil => rfl
        | cons key rest listHypothesis =>
            have first := inductionHypothesis key List.mem_cons_self
            have later := listHypothesis fun key member =>
              inductionHypothesis key (List.mem_cons_of_mem _ member)
            rw [toProtobufKeys, fromProtobufKeys, first, later]
            rfl
      rw [Rose.map_node]
      cases threshold with
      | none => rw [toProtobufKey, fromProtobufKey, read, Except.map]
      | some threshold => rw [toProtobufKey, fromProtobufKey, read, Except.map]

theorem toProtobufKey_map_iff {key : Key} :
    toProtobufKey (key.map SimpleKey.onWire) = toProtobufKey key ↔
      ∀ leaf ∈ key.leaves, leaf.evmAddress = none := by
  induction key using Rose.induct with
  | leaf key => simp [toProtobufKey, SimpleKey.toProtobufKey_onWire]
  | node threshold keys inductionHypothesis =>
      have each : (keys.map (Rose.map SimpleKey.onWire)).map toProtobufKey = keys.map toProtobufKey ↔
          ∀ key ∈ keys, toProtobufKey (key.map SimpleKey.onWire) = toProtobufKey key := by
        rw [List.map_map]
        exact List.map_inj_left
      have all : (∀ key ∈ keys, toProtobufKey (key.map SimpleKey.onWire) = toProtobufKey key) ↔
          ∀ leaf ∈ (Rose.node threshold keys).leaves, leaf.evmAddress = none := by
        rw [Rose.leaves_node]
        simp only [List.mem_flatMap]
        constructor
        · rintro same leaf ⟨key, member, inKey⟩
          exact (inductionHypothesis key member).mp (same key member) leaf inKey
        · intro numbers key member
          exact (inductionHypothesis key member).mpr fun leaf inKey => numbers leaf ⟨key, member, inKey⟩
      rw [Rose.map_node, ← all, ← each]
      cases threshold <;> simp only [toProtobufKey, toProtobufKeys_eq, ProtoKey.keyList.injEq,
        ProtoKey.thresholdKey.injEq, true_and]

/-- A key that is read back has the same message and is the same tree, but for checksums. -/
def SurvivesProtobuf (decoders : PublicKey.Decoders) (key : Key) : Prop :=
  ∃ decoded : Key, fromProtobufKey decoders key.toProtobufKey = .ok (decoded.map some) ∧
    decoded.toProtobufKey = key.toProtobufKey ∧
    decoded.map SimpleKey.withoutChecksum = key.map SimpleKey.withoutChecksum

/-- A key survives exactly when no contract id in it has an EVM address. -/
theorem survivesProtobuf_iff (decoders : PublicKey.Decoders) (key : Key) :
    SurvivesProtobuf decoders key ↔ ∀ leaf ∈ key.leaves, leaf.evmAddress = none := by
  have read := fromProtobufKey_toProtobufKey decoders key
  constructor
  · rintro ⟨decoded, decodes, same, -⟩
    have isThis : decoded = key.map SimpleKey.onWire := by
      rw [read] at decodes
      exact (Rose.map_injective (fun _ _ => Option.some.inj) (Except.ok.inj decodes)).symm
    rw [isThis] at same
    exact toProtobufKey_map_iff.mp same
  · intro numbers
    refine ⟨key.map SimpleKey.onWire, read, toProtobufKey_map_iff.mpr numbers, ?_⟩
    rw [Rose.map_map]
    apply Rose.map_congr_iff.mpr
    intro leaf member
    exact SimpleKey.withoutChecksum_onWire (numbers leaf member)

/-- The EVM address of a contract in a list with a threshold is lost. -/
theorem evmAddress_lost : ¬ ∀ decoders key, SurvivesProtobuf decoders key := by
  intro all
  have refuses {α : Type} (_ : Bytes) : Except String α := .error "not a key"
  obtain ⟨decoded, decodes, same, -⟩ := all ⟨refuses, refuses⟩ (.node (some 1)
    [.leaf (.contractId { shard := 0, realm := 0, num := 0, evmAddress := some (.replicate 20 17) })])
  cases decoded with
  | leaf key => cases decodes
  | node threshold keys =>
      have read := Except.ok.inj decodes
      rw [Rose.map_node, Rose.node.injEq] at read
      match keys, read.2 with
      | [.leaf key], images =>
          rw [List.map_singleton, List.singleton_inj, Rose.map_leaf, Rose.leaf.injEq] at images
          cases Option.some.inj images
          obtain ⟨rfl, -⟩ := read
          cases same

end Key

end HederaSdk
