import HederaSdk.Transaction.PrefixProto
import HederaSdk.Transaction.WholeCopies
import HederaSdk.Update.Classes

/-!
# Copies of update transactions

A transaction that is not frozen is written as a body for each of its nodes, or as one body, and its
class reads the data of the first. The copy that is read writes the same data exactly when the class
reads the presence of each field as it was written.
-/

namespace HederaSdk

open Library
open Js (Value Properties SameMessage)

/-! ## The five classes -/

inductive Update where
  | account (update : AccountUpdate)
  | contract (update : ContractUpdate)
  | token (update : TokenUpdate)
  | topic (update : TopicUpdate)
  | file (update : FileUpdate)

namespace Update

def dataCase : Update → DataCase
  | .account _ => .cryptoUpdateAccount
  | .contract _ => .contractUpdateInstance
  | .token _ => .tokenUpdate
  | .topic _ => .consensusUpdateTopic
  | .file _ => .fileUpdate

def makeTransactionData (keys : KeyCodec) : Update → Value
  | .account update => update.makeTransactionData keys
  | .contract update => update.makeTransactionData keys
  | .token update => update.makeTransactionData keys
  | .topic update => update.makeTransactionData keys
  | .file update => update.makeTransactionData

/-- `_fromProtobuf` of the class that reads the data, if it is one of the five. -/
def fromProtobuf (keys : KeyCodec) (decoders : PublicKey.Decoders) (update : Value) :
    DataCase → Option (Except String Update)
  | .cryptoUpdateAccount => some ((AccountUpdate.fromProtobuf keys decoders update).map account)
  | .contractUpdateInstance => some ((ContractUpdate.fromProtobuf keys decoders update).map contract)
  | .tokenUpdate => some ((TokenUpdate.fromProtobuf keys decoders update).map token)
  | .consensusUpdateTopic => some ((TopicUpdate.fromProtobuf keys decoders update).map topic)
  | .fileUpdate => some ((FileUpdate.fromProtobuf decoders update).map file)
  | _ => none

/-- The registry with the five classes. -/
def readers (proto : Proto) (others : Transaction.TypeReaders) : Transaction.TypeReaders where
  readData dataCase body :=
    match fromProtobuf proto.keys proto.decoders (body.get dataCase.name) dataCase with
    | some (.ok update) => .ok (update.makeTransactionData proto.keys)
    | some (.error message) => .error (.error message)
    | none => others.readData dataCase body
  defaultMaxTransactionFee := others.defaultMaxTransactionFee

def onWire : Update → Update
  | .account update => .account update.onWire
  | .contract update => .contract update.onWire
  | .token update => .token update.onWire
  | .topic update => .topic update.onWire
  | .file update => .file update.onWire

/-- The defaults of the fields that are scalars. -/
def prototype : Update → String → Value
  | .token _ => TokenUpdate.prototype
  | .file _ => FileUpdate.prototype
  | _ => noDefaults

def expirationTime : Update → Option Timestamp
  | .account update => update.expirationTime
  | .contract update => update.expirationTime
  | .token update => update.expirationTime
  | .topic update => update.expirationTime
  | .file update => update.expirationTime

/-- Every key of the update. -/
def keys : Update → List Key
  | .account update => update.key.toList
  | .contract update => update.adminKey.toList
  | .token update => update.keyFields.flatMap Option.toList
  | .topic update => update.adminKey.toList ++ update.submitKey.toList
  | .file update => update.keys.getD []

/-- What a class reads as it is written, beyond keys and times. -/
def HasKeptFields : Update → Prop
  | .contract update =>
      (∀ id ∈ update.contractId, id.evmAddress = none) ∧ update.declineStakingReward = some true
  | .file update => update.fileMemo ≠ some ""
  | _ => True

/-- Contract ids go by number, the seconds of the time are not below the 32 bits, an empty memo of a
file is not set and a contract declines rewards. -/
structure IsKept (update : Update) : Prop where
  keys : ∀ key ∈ update.keys, key.HasNumbers
  time : ∀ time ∈ update.expirationTime, -2147483648 ≤ time.seconds
  fields : update.HasKeptFields

variable {proto : Proto}

theorem fromProtobuf_makeTransactionData {keys : KeyCodec} (faithful : keys.Faithful)
    (decoders : PublicKey.Decoders) (update : Update) :
    fromProtobuf keys decoders (update.makeTransactionData keys) update.dataCase =
      some (.ok update.onWire) := by
  cases update with
  | account update =>
      simp only [fromProtobuf, makeTransactionData, dataCase,
        AccountUpdate.fromProtobuf_makeTransactionData faithful, Except.map, onWire]
  | contract update =>
      simp only [fromProtobuf, makeTransactionData, dataCase,
        ContractUpdate.fromProtobuf_makeTransactionData faithful, Except.map, onWire]
  | token update =>
      simp only [fromProtobuf, makeTransactionData, dataCase,
        TokenUpdate.fromProtobuf_makeTransactionData faithful, Except.map, onWire]
  | topic update =>
      simp only [fromProtobuf, makeTransactionData, dataCase,
        TopicUpdate.fromProtobuf_makeTransactionData faithful, Except.map, onWire]
  | file update =>
      simp only [fromProtobuf, makeTransactionData, dataCase,
        FileUpdate.fromProtobuf_makeTransactionData, Except.map, onWire]

theorem plain_makeTransactionData (keys : KeyCodec) (update : Update) :
    (update.makeTransactionData keys).Plain := by
  cases update with
  | account update => exact update.plain_makeTransactionData keys
  | contract update => exact update.plain_makeTransactionData keys
  | token update => exact update.plain_makeTransactionData keys
  | topic update => exact update.plain_makeTransactionData keys
  | file update => exact update.plain_makeTransactionData

theorem toInt_eq_iff {n : Int} (small : n < 2147483648) :
    Timestamp.toInt n = n ↔ -2147483648 ≤ n := by
  rw [Timestamp.toInt, Int.bmod]
  split <;> omega

/-- The data of what is read is the data that was written exactly when the update is kept. -/
theorem sameMessage_iff (keys : KeyCodec) {update : Update}
    (soon : ∀ time ∈ update.expirationTime, time.seconds < 2147483648) :
    SameMessage update.prototype (update.onWire.makeTransactionData keys) (update.makeTransactionData keys) ↔
      update.IsKept := by
  have times : (∀ time ∈ update.expirationTime, Timestamp.toInt time.seconds = time.seconds) ↔
      ∀ time ∈ update.expirationTime, -2147483648 ≤ time.seconds :=
    forall₂_congr fun time set => toInt_eq_iff (soon time set)
  have kept : update.IsKept ↔ (∀ key ∈ update.keys, key.HasNumbers) ∧
      (∀ time ∈ update.expirationTime, Timestamp.toInt time.seconds = time.seconds) ∧
        update.HasKeptFields := by
    rw [times]
    exact ⟨fun kept => ⟨kept.keys, kept.time, kept.fields⟩, fun ⟨keys, time, fields⟩ => ⟨keys, time, fields⟩⟩
  rw [kept]
  cases update with
  | account update =>
      refine (AccountUpdate.sameMessage_iff keys update).trans ?_
      simp only [Update.keys, expirationTime, HasKeptFields, Option.mem_toList, and_true]
      exact Iff.rfl
  | contract update =>
      refine (ContractUpdate.sameMessage_iff keys update).trans ?_
      simp only [Update.keys, expirationTime, HasKeptFields, Option.mem_toList]
      tauto
  | token update =>
      refine (TokenUpdate.sameMessage_iff keys update).trans ?_
      simp only [Update.keys, expirationTime, HasKeptFields, List.mem_flatMap, Option.mem_toList, and_true]
      exact and_congr_left fun _ => ⟨fun all key ⟨field, listed, set⟩ => all field listed key set,
        fun all field listed key set => all key ⟨field, listed, set⟩⟩
  | topic update =>
      refine (TopicUpdate.sameMessage_iff keys update).trans ?_
      simp only [Update.keys, expirationTime, HasKeptFields, List.mem_append, Option.mem_toList, or_imp,
        forall_and, and_true, and_assoc]
      exact Iff.rfl
  | file update =>
      refine (FileUpdate.sameMessage_iff update).trans ?_
      refine and_congr_left fun _ => ?_
      rw [Update.keys]
      cases update.keys <;> simp

variable {tx : Transaction} {others : Transaction.TypeReaders} {update : Update} {bytes : Bytes}

/-- The copy that is read of the bytes makes the same data. -/
def KeepsMessage (proto : Proto) (others : Transaction.TypeReaders) (bytes : Bytes) (update : Update) : Prop :=
  ∃ copy data, Transaction.fromBytes proto (readers proto others) bytes = .ok copy ∧
    copy.data = .plain update.dataCase data ∧
    SameMessage update.prototype data (update.makeTransactionData proto.keys)

theorem keepsMessage_iff_sameMessage (faithful : proto.Faithful) {tx tx' : Transaction} {now : Timestamp}
    (unfrozen : tx.isFrozenOrOnDemand = false)
    (type : tx.data = .plain update.dataCase (update.makeTransactionData proto.keys))
    (written : (Transaction.toBytes proto now).run tx = (.ok bytes, tx')) :
    KeepsMessage proto others bytes update ↔
      SameMessage update.prototype (update.onWire.makeTransactionData proto.keys)
        (update.makeTransactionData proto.keys) := by
  have whole : update.dataCase ≠ .fileAppend ∧ update.dataCase ≠ .consensusSubmitMessage := by
    cases update <;> simp [dataCase]
  have carried := Transaction.carried_of_unfrozen unfrozen (by rw [type]; simp) written
  obtain ⟨body, loaded, shown, keeps, read⟩ := carried.fromBytes faithful (readers proto others) type whole
    (update.plain_makeTransactionData proto.keys)
  have reads : (readers proto others).readData update.dataCase body =
      .ok (update.onWire.makeTransactionData proto.keys) := by
    simp only [readers, shown, fromProtobuf_makeTransactionData faithful.keys]
  rw [reads, Except.map] at read
  constructor
  · rintro ⟨copy, data, copied, copyData, same⟩
    obtain rfl := Except.ok.inj (read.symm.trans copied)
    have plain := (keeps _).symm.trans copyData
    cases plain
    exact same
  · intro same
    exact ⟨_, _, read, keeps _, same⟩

/-- A copy makes the data of an update exactly when the class reads what it writes. -/
theorem keepsMessage_iff (faithful : proto.Faithful) {tx tx' : Transaction} {now : Timestamp}
    (unfrozen : tx.isFrozenOrOnDemand = false)
    (type : tx.data = .plain update.dataCase (update.makeTransactionData proto.keys))
    (soon : ∀ time ∈ update.expirationTime, time.seconds < 2147483648)
    (written : (Transaction.toBytes proto now).run tx = (.ok bytes, tx')) :
    KeepsMessage proto others bytes update ↔ update.IsKept := by
  rw [keepsMessage_iff_sameMessage faithful unfrozen type written]
  exact sameMessage_iff proto.keys soon

section Samples

/-- An update for one node, before it is frozen. -/
def sample (update : Update) : Transaction where
  nodeAccountIds := { list := [.ofNum 3] }
  data := .plain update.dataCase (update.makeTransactionData prefixProto.keys)

theorem sample_written (update : Update) :
    ∃ bytes tx', (Transaction.toBytes prefixProto ⟨0, 0⟩).run (sample update) = (.ok bytes, tx') :=
  ⟨_, _, rfl⟩

theorem declining_contract_is_kept :
    ∃ bytes tx', (Transaction.toBytes prefixProto ⟨0, 0⟩).run (sample (.contract
        { contractMemo := some "", declineStakingReward := some true, expirationTime := some ⟨5, 0⟩ })) =
          (.ok bytes, tx') ∧
      KeepsMessage prefixProto Transaction.wholeMessage bytes (.contract
        { contractMemo := some "", declineStakingReward := some true, expirationTime := some ⟨5, 0⟩ }) := by
  obtain ⟨bytes, tx', written⟩ := sample_written (.contract
    { contractMemo := some "", declineStakingReward := some true, expirationTime := some ⟨5, 0⟩ })
  refine ⟨bytes, tx', written, ?_⟩
  apply (keepsMessage_iff prefixProto_faithful rfl rfl _ written).mpr
  · exact ⟨by simp [keys], by simp [expirationTime], by simp [HasKeptFields]⟩
  · simp [expirationTime]

/-- The copy of the sample does not make the data of the update. -/
def IsLost (update : Update) : Prop :=
  ∃ bytes tx', (Transaction.toBytes prefixProto ⟨0, 0⟩).run (sample update) = (.ok bytes, tx') ∧
    ¬ KeepsMessage prefixProto Transaction.wholeMessage bytes update

theorem isLost_of_reading {update : Update} (name : String)
    (different : (update.onWire.makeTransactionData prefixProto.keys).read update.prototype name ≠
      (update.makeTransactionData prefixProto.keys).read update.prototype name) : IsLost update := by
  obtain ⟨bytes, tx', written⟩ := sample_written update
  refine ⟨bytes, tx', written, fun keeps => different ?_⟩
  exact (keepsMessage_iff_sameMessage prefixProto_faithful rfl rfl written).mp keeps name

/-- An update of a contract that says nothing of rewards accepts them, one that accepts them declines
them, and a file keeps a memo that was to be emptied. -/
theorem presence_is_lost : IsLost (.contract {}) ∧ IsLost (.contract { declineStakingReward := some false }) ∧
    IsLost (.file { fileMemo := some "" }) := by
  refine ⟨isLost_of_reading "declineReward" ?_, isLost_of_reading "declineReward" ?_,
    isLost_of_reading "memo" ?_⟩
  all_goals decide

end Samples

end Update

end HederaSdk
