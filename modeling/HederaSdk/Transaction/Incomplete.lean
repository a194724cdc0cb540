import HederaSdk.IdText
import HederaSdk.Transaction.Execute
import HederaSdk.Transaction.Freezing
import HederaSdk.Transaction.Reading

/-!
# Unfrozen transactions in bytes

A transaction that is not frozen is written as one body for each of its nodes, or as
one body without a node. The copy that is read from the bytes has the settings of
the body. Its transaction id is not locked, so freezing replaces it, and a fee of 0
is read as a fee that is not set.
-/

namespace HederaSdk.Transaction

open Library
open Js (Value)

variable {proto : Proto}

/-! ## Writing -/

/-- The bodies that an unfrozen transaction is written as. -/
def incompleteBodies (proto : Proto) (tx : Transaction) : BodyGrid where
  ids := tx.transactionIds.current.toList
  nodes := tx.nodeAccountIds.list
  body _ id nodeId := { tx.makeTransactionBody proto nodeId with transactionID := id }

theorem cells_incompleteBodies (tx : Transaction) :
    (incompleteBodies proto tx).cells = tx.incompleteNodes.map (tx.makeTransactionBody proto) := by
  have nodes : tx.incompleteNodes = orNone tx.nodeAccountIds.list := by
    unfold incompleteNodes orNone
    cases tx.nodeAccountIds.list <;> rfl
  have ids : orNone tx.transactionIds.current.toList = [tx.transactionIds.current] := by
    cases tx.transactionIds.current <;> rfl
  rw [BodyGrid.cells, nodes]
  change grid _ (orNone tx.transactionIds.current.toList).zipIdx (orNone tx.nodeAccountIds.list) = _
  rw [ids]
  simp [grid, incompleteBodies, makeTransactionBody]

theorem sound_incompleteBodies {tx : Transaction} (plain : (tx.makeTransactionData proto).Plain)
    (nodes : (tx.nodeAccountIds.list.map AccountId.toString).Nodup) :
    (incompleteBodies proto tx).Sound where
  id _ _ _ := rfl
  node _ _ _ := rfl
  same _ _ _ _ := rfl
  plain _ _ _ := plain
  nodes := nodes

/-- There is one id at most. -/
theorem readIds_incompleteBodies (tx : Transaction) :
    (incompleteBodies proto tx).readIds = tx.transactionIds.current.toList.map TransactionId.onWire := by
  refine BodyGrid.readIds_of_nodup ?_
  change (tx.transactionIds.current.toList.map _).Nodup
  cases tx.transactionIds.current <;> simp

theorem encodeTransactions_some (proto : Proto) (list : List ProtoTransaction) :
    encodeTransactions proto (list.map some) = .ok (proto.encodeList list) := by
  have read : (list.map some).mapM id = some list := by
    induction list with
    | nil => rfl
    | cons first rest inductionHypothesis =>
        rw [List.map_cons, List.mapM_cons, inductionHypothesis]
        rfl
  rw [encodeTransactions, read]

/-- The bytes of an unfrozen transaction are those of the list that its class builds. -/
theorem toBytes_unfrozen_eq_ok {tx tx' : Transaction} {now : Timestamp} {bytes : Bytes}
    (unfrozen : tx.isFrozenOrOnDemand = false)
    (written : (toBytes proto now).run tx = (.ok bytes, tx')) :
    (buildIncompleteTransactions proto now).run tx = (.ok (), tx') ∧
      encodeTransactions proto tx'.transactions.list = .ok bytes := by
  obtain ⟨_, same, checking, ran⟩ := Method.run_bind_eq_ok.mp written
  have unchanged : same = tx := by
    rw [requireNotSignOnDemand, Method.run_this_bind] at checking
    split at checking
    · cases checking
    · cases checking
      rfl
  subst unchanged
  obtain ⟨_, built, building, ran⟩ := Method.run_bind_eq_ok.mp ran
  rw [buildForBytes, Method.run_this_bind, if_neg (by simp [unfrozen])] at building
  rw [Method.run_this_bind] at ran
  cases encoded : encodeTransactions proto built.transactions.list with
  | error e =>
      rw [encoded] at ran
      cases ran
  | ok bytes' =>
      rw [encoded] at ran
      cases ran
      exact ⟨building, encoded⟩

/-- The bytes of an unfrozen transaction of a type that is not written in chunks. -/
theorem toBytes_incomplete_eq_ok {tx tx' : Transaction} {now : Timestamp} {bytes : Bytes}
    (unfrozen : tx.isFrozenOrOnDemand = false) (whole : ∀ append, tx.data ≠ .fileAppend append)
    (written : (toBytes proto now).run tx = (.ok bytes, tx')) :
    bytes = proto.encodeList ((incompleteBodies proto tx).cells.map (bare proto)) ∧
      ∃ transactions, tx' = { tx with transactions } := by
  obtain ⟨built, encoded⟩ := toBytes_unfrozen_eq_ok unfrozen written
  rw [buildIncompleteTransactions, Method.run_this_bind] at built
  have base : (buildIncompleteBase proto).run tx = (.ok (), tx') := by
    cases data : tx.data with
    | plain dataCase data' => simpa only [data] using built
    | fileAppend append => exact absurd data (whole append)
    | topicMessageSubmit submit => simpa only [data] using built
  rw [buildIncompleteBase, Method.run_this_bind] at base
  obtain ⟨list, _, listing, updating⟩ := Method.run_bind_eq_ok.mp base
  cases set : tx.transactions.setList (tx.incompleteNodes.map fun nodeId =>
      some (incomplete (tx.makeSignedTransaction proto nodeId))) with
  | error e =>
      rw [set] at listing
      cases listing
  | ok list' =>
      rw [set] at listing
      cases listing
      cases updating
      obtain ⟨_, rfl⟩ := SdkList.setList_eq_ok set
      have entries : (tx.incompleteNodes.map fun nodeId =>
          some (incomplete (tx.makeSignedTransaction proto nodeId))) =
            ((incompleteBodies proto tx).cells.map (bare proto)).map some := by
        rw [cells_incompleteBodies, List.map_map, List.map_map]
        rfl
      rw [entries, encodeTransactions_some] at encoded
      exact ⟨(Except.ok.inj encoded).symm, _, rfl⟩

/-! ## Reading the copy -/

theorem readTransaction_whole {dataCase : DataCase}
    (whole : dataCase ≠ .fileAppend ∧ dataCase ≠ .consensusSubmitMessage) (types : TypeReaders)
    (list : List ProtoTransaction) (parsed : Parsed) :
    readTransaction proto types dataCase list parsed = (do
      let data ← types.readData dataCase (bodyAt parsed.bodies 0)
      fromProtobufTransactions proto
        { data := .plain dataCase data
          defaultMaxTransactionFee := types.defaultMaxTransactionFee dataCase } list parsed) := by
  obtain ⟨noFile, noTopic⟩ := whole
  cases dataCase <;> first | rfl | exact absurd rfl noFile | exact absurd rfl noTopic

/-- The settings of the body that is read first. -/
theorem readSettings (keys : KeyCodec) (body : TransactionBody) :
    readValidDuration (body.toObject keys) = Timestamp.toInt body.transactionValidDuration ∧
      readTransactionFee (body.toObject keys) = body.transactionFee.filter (· ≠ 0) ∧
      ((body.toObject keys).get "memo").toString?.getD "" = body.memo := by
  have fields := body.get_common keys
  simp only [TransactionBody.common, List.forall_mem_cons] at fields
  obtain ⟨_, _, fee, duration, memo, _⟩ := fields
  refine ⟨?_, ?_, ?_⟩
  · rw [readValidDuration, duration]
    simp
  · rw [readTransactionFee, fee]
    cases body.transactionFee <;> simp
  · rw [memo]
    rfl

/-- An unfrozen transaction of a type that is not written in chunks, whose id was set. -/
structure Unfinished (proto : Proto) (types : TypeReaders) (dataCase : DataCase) (data : Value)
    (id : TransactionId) (tx : Transaction) : Prop where
  type : tx.data = .plain dataCase data
  whole : dataCase ≠ .fileAppend ∧ dataCase ≠ .consensusSubmitMessage
  plain : data.Plain
  /-- The class reads its own messages. -/
  reads : ∀ body : TransactionBody, body.dataCase = dataCase → body.data = data →
    ∃ copy, types.readData dataCase (body.toObject proto.keys) = .ok copy
  defaultFee : tx.defaultMaxTransactionFee = types.defaultMaxTransactionFee dataCase
  immediate : tx.signOnDemand = false
  unsigned : tx.signedTransactions.list = [] ∧ tx.signedTransactions.locked = false
  ids : tx.transactionIds = { list := [id], locked := true }
  duration : 0 ≤ tx.transactionValidDuration ∧ tx.transactionValidDuration < 2147483648
  long : ∀ nodeId ∈ tx.nodeAccountIds.list, nodeId.name.IsLong
  different : (tx.nodeAccountIds.list.map AccountId.identity).Nodup
  nonzero : ∀ nodeId ∈ tx.nodeAccountIds.list, nodeId.equals (.ofNum 0) = false

section Copies

variable {types : TypeReaders} {dataCase : DataCase} {data : Value} {id : TransactionId}
  {tx : Transaction}

theorem Unfinished.sound (unfinished : Unfinished proto types dataCase data id tx) :
    (incompleteBodies proto tx).Sound :=
  sound_incompleteBodies (by rw [makeTransactionData, unfinished.type]; exact unfinished.plain)
    (AccountId.nodup_toString unfinished.long unfinished.different)

theorem Unfinished.readNodes (unfinished : Unfinished proto types dataCase data id tx) :
    (incompleteBodies proto tx).readNodes = tx.nodeAccountIds.list.map AccountId.onWire := by
  refine List.filter_eq_self.mpr fun nodeId member => ?_
  obtain ⟨original, inNodes, rfl⟩ := List.mem_map.mp member
  simp [AccountId.equals_onWire, unfinished.nonzero original inNodes]

/-- The copy that is read from the bytes. -/
def copyOf (types : TypeReaders) (dataCase : DataCase) (data : Value) (id : TransactionId)
    (list : List ProtoTransaction) (tx : Transaction) : Transaction where
  data := .plain dataCase data
  defaultMaxTransactionFee := types.defaultMaxTransactionFee dataCase
  transactions := { list := list.map some }
  transactionIds := { list := [id.onWire] }
  nodeAccountIds := { list := tx.nodeAccountIds.list.map AccountId.onWire }
  transactionValidDuration := tx.transactionValidDuration
  maxTransactionFee := tx.maxTransactionFee.filter (· ≠ 0)
  transactionMemo := tx.transactionMemo

theorem Unfinished.fromBytes_eq (faithful : proto.Faithful)
    (unfinished : Unfinished proto types dataCase data id tx) :
    ∃ copy, fromBytes proto types
        (proto.encodeList ((incompleteBodies proto tx).cells.map (bare proto))) =
      .ok (copyOf types dataCase copy id ((incompleteBodies proto tx).cells.map (bare proto)) tx) := by
  have sound := unfinished.sound
  have carries := carriesAll_bare proto (incompleteBodies proto tx).cells
  have type : ∀ row id node, ((incompleteBodies proto tx).body row id node).dataCase = dataCase := by
    intro row id node
    change tx.dataCase = dataCase
    rw [Transaction.dataCase, unfinished.type]
  obtain ⟨first, rest, cells⟩ := List.exists_cons_of_ne_nil (incompleteBodies proto tx).cells_ne_nil
  have member : first ∈ (incompleteBodies proto tx).cells := cells ▸ List.mem_cons_self
  obtain ⟨row, _, node, _, same⟩ := Grid.mem_grid.mp member
  have firstData : first.data = data := by
    rw [← same]
    change tx.makeTransactionData proto = data
    rw [makeTransactionData, unfinished.type]
  obtain ⟨copy, read⟩ := unfinished.reads first (by rw [← same]; exact type _ _ _) firstData
  have settings := readSettings proto.keys first
  have bodyIs : bodyAt ((incompleteBodies proto tx).parsed proto.keys []).bodies 0 =
      first.toObject proto.keys := by
    simp [BodyGrid.parsed, bodyAt, cells]
  refine ⟨copy, ?_⟩
  rw [BodyGrid.fromBytes_cells faithful sound carries type, readTransaction_whole unfinished.whole,
    bodyIs, read]
  have loaded := @BodyGrid.fromProtobufTransactions_bare proto _ sound
    { data := .plain dataCase copy
      defaultMaxTransactionFee := types.defaultMaxTransactionFee dataCase }
  have current : tx.transactionIds.current = some id := by
    rw [unfinished.ids]
    rfl
  have fields : first.transactionValidDuration = tx.transactionValidDuration ∧
      first.transactionFee = tx.maxTransactionFee ∧ first.memo = tx.transactionMemo := by
    rw [← same]
    exact ⟨rfl, rfl, rfl⟩
  have ids : (incompleteBodies proto tx).readIds = [id.onWire] := by
    rw [readIds_incompleteBodies, current]
    rfl
  have duration : Timestamp.toInt tx.transactionValidDuration = tx.transactionValidDuration :=
    Int.bmod_eq_of_le (by have := unfinished.duration; omega) (by have := unfinished.duration; omega)
  refine loaded.trans ?_
  rw [BodyGrid.loaded, bodyIs, settings.1, settings.2.1, settings.2.2, ids, unfinished.readNodes,
    fields.1, fields.2.1, fields.2.2, duration]
  rfl

end Copies

/-! ## Freezing the copy -/

/-- The fields that every type of transaction has. -/
def commonFields : List String :=
  ["transactionID", "nodeAccountID", "transactionFee", "transactionValidDuration", "memo"]

/-- Two bodies show the same in the fields that every type has. -/
def ShowSame (proto : Proto) (signed other : SignedTransaction) : Prop :=
  ∃ value value', proto.decodeBody signed.bodyBytes = .ok value ∧
    proto.decodeBody other.bodyBytes = .ok value' ∧
    ∀ field ∈ commonFields, value.get field = value'.get field

theorem showSame_iff (faithful : proto.Faithful) {body other : TransactionBody}
    {signed signedOther : SignedTransaction} (made : signed.bodyBytes = proto.encodeBody body)
    (madeOther : signedOther.bodyBytes = proto.encodeBody other) :
    ShowSame proto signed signedOther ↔ body.common proto.keys = other.common proto.keys := by
  have shown := body.get_common proto.keys
  have shownOther := other.get_common proto.keys
  simp only [TransactionBody.common, List.forall_mem_cons] at shown shownOther
  obtain ⟨id, node, fee, duration, memo, _⟩ := shown
  obtain ⟨id', node', fee', duration', memo', _⟩ := shownOther
  have fields : (∀ field ∈ commonFields, (body.toObject proto.keys).get field =
      (other.toObject proto.keys).get field) ↔ body.common proto.keys = other.common proto.keys := by
    simp only [commonFields, List.forall_mem_cons, id, id', node, node', fee, fee', duration,
      duration', memo, memo', TransactionBody.common, List.cons.injEq, Prod.mk.injEq, true_and,
      List.not_mem_nil, false_implies, implies_true, and_true]
  rw [← fields]
  constructor
  · rintro ⟨value, value', decoded, decoded', same⟩
    rw [made, faithful.body] at decoded
    rw [madeOther, faithful.body] at decoded'
    cases decoded
    cases decoded'
    exact same
  · intro same
    exact ⟨_, _, by rw [made, faithful.body], by rw [madeOther, faithful.body], same⟩

theorem forall₂_iff_of_const {α β : Type} {R S : α → β → Prop} {c : Prop} {first : List α}
    {second : List β} (related : List.Forall₂ R first second) (each : ∀ a b, R a b → (S a b ↔ c)) :
    List.Forall₂ S first second ↔ first = [] ∨ c := by
  induction related with
  | nil => simp
  | cons head _ inductionHypothesis =>
      rw [List.forall₂_cons, each _ _ head, inductionHypothesis]
      simp only [reduceCtorEq, false_or]
      exact ⟨And.left, fun h => ⟨h, .inr h⟩⟩

section Freezing

variable {types : TypeReaders} {dataCase : DataCase} {data : Value} {id : TransactionId}
  {tx : Transaction} {client : Client} {operator : Operator}

/-- The fee of a frozen transaction. -/
def frozenFee (client : Client) (fee : Option Int) (default : Int) : Int :=
  fee.getD (client.defaultMaxTransactionFee.getD default)

/-- The bodies of a transaction whose id is locked. -/
theorem makeTransactionBody_settled_locked (generated : Timestamp) (nodes : SdkList AccountId)
    (locked : tx.transactionIds.locked = true) (nodeId : AccountId) :
    (settled (some client) generated nodes tx).makeTransactionBody proto (some nodeId) =
      { tx.makeTransactionBody proto (some nodeId) with
        transactionFee := some (frozenFee client tx.maxTransactionFee tx.defaultMaxTransactionFee) } := by
  have ids : settled (some client) generated nodes tx =
      { takeSettings (some client) tx with nodeAccountIds := nodes } := by
    unfold settled buildNewTransactionIdList
    split
    · rename_i unlocked _
      exact absurd (locked.symm.trans unlocked) (by decide)
    · rfl
  rw [ids]
  rfl

/-- The id of a copy is not locked, so freezing replaces it. -/
theorem makeTransactionBody_settled_copy (paid : client.operator = some operator)
    (generated : Timestamp) (nodes : SdkList AccountId) (list : List ProtoTransaction)
    (nodeId : AccountId) :
    (settled (some client) generated nodes (copyOf types dataCase data id list tx)).makeTransactionBody
        proto (some nodeId) =
      { transactionID := some (.withValidStart operator.accountId generated)
        nodeAccountID := some nodeId
        transactionFee := some (frozenFee client (tx.maxTransactionFee.filter (· ≠ 0))
          (types.defaultMaxTransactionFee dataCase))
        transactionValidDuration := tx.transactionValidDuration
        memo := tx.transactionMemo
        dataCase
        data } := by
  have payer : client.operatorAccountId = some operator.accountId := by
    rw [Client.operatorAccountId, paid]
    rfl
  have ids : settled (some client) generated nodes (copyOf types dataCase data id list tx) =
      { takeSettings (some client) (copyOf types dataCase data id list tx) with
        nodeAccountIds := nodes
        transactionIds := { list := [.withValidStart operator.accountId generated] } } := by
    simp [settled, buildNewTransactionIdList, takeSettings, copyOf, payer, SdkList.set, SdkList.length]
  rw [ids]
  simp [makeTransactionBody, takeSettings, copyOf, SdkList.current, SdkList.get, frozenFee,
    Transaction.dataCase, makeTransactionData]

theorem frozenFee_filter_iff (fee : Option Int) (default : Int) :
    frozenFee client fee default = frozenFee client (fee.filter (· ≠ 0)) default ↔
      fee ≠ some 0 ∨ client.defaultMaxTransactionFee.getD default = 0 := by
  cases fee with
  | none => simp [frozenFee]
  | some fee =>
      rw [Option.filter_some]
      by_cases zero : fee = 0
      · simp [frozenFee, zero, eq_comm]
      · simp [frozenFee, zero]

/-- Two ids are written the same. -/
def SameAccount (keys : KeyCodec) (nodeId otherId : AccountId) : Prop :=
  nodeId.toProtobuf keys = otherId.toProtobuf keys

/-- The nodes of the copy are those of the transaction. -/
theorem NodesFrom.ofCopy {picked : Except JsError (List AccountId)} {nodes : SdkList AccountId}
    (list : List ProtoTransaction) (from_ : NodesFrom picked tx.nodeAccountIds nodes) :
    ∃ copied, NodesFrom picked (copyOf types dataCase data id list tx).nodeAccountIds copied ∧
      List.Forall₂ (SameAccount proto.keys) nodes.list copied.list ∧
      (nodes.list = [] ↔ tx.nodeAccountIds.list = [] ∧ picked = .ok []) := by
  rcases from_ with ⟨present, rfl⟩ | ⟨empty, unlocked, picks, rfl, rfl⟩
  · refine ⟨_, .inl ⟨?_, rfl⟩, ?_, by simp [present]⟩
    · simpa [copyOf] using present
    · refine List.forall₂_map_right_iff.mpr (List.forall₂_same.mpr fun nodeId _ => ?_)
      exact (nodeId.toProtobuf_onWire proto.keys).symm
  · refine ⟨_, .inr ⟨?_, rfl, picks, rfl, rfl⟩, List.forall₂_same.mpr fun _ _ => rfl,
      by simp [empty]⟩
    simp [copyOf, empty]

theorem validateChecksum_onWire {accountId : AccountId} {ledgerId : Option Bytes}
    (valid : accountId.validateChecksum ledgerId = .ok ()) :
    accountId.onWire.validateChecksum ledgerId = .ok () := by
  obtain ⟨shard, realm, num, aliasKey, evmAddress, checksum⟩ := accountId
  cases aliasKey with
  | some key => simp [AccountId.validateChecksum] at valid
  | none => cases ledgerId <;> simp [AccountId.validateChecksum, AccountId.onWire]

theorem validateTransactionIds_copy (ids : tx.transactionIds = { list := [id], locked := true })
    (list : List ProtoTransaction) (valid : tx.validateTransactionIds (some client) = .ok ()) :
    (copyOf types dataCase data id list tx).validateTransactionIds (some client) = .ok () := by
  rw [validateTransactionIds, except_forM_eq_ok] at valid ⊢
  intro copied member
  obtain rfl : copied = id.onWire := by simpa [copyOf] using member
  exact validateChecksum_onWire (valid id (by rw [ids]; exact List.mem_singleton_self id))

theorem long_inj {value other : Int} {unsigned : Bool}
    (same : Value.long value unsigned = Value.long other unsigned) : value = other := by
  have read := congrArg Value.toLong? same
  simpa using read

/-- The copy is frozen with the same bodies, but for the transaction id, which freezing
replaces, and a fee of 0, which is read as a fee that is not set. -/
theorem copy_freezes_same_iff (faithful : proto.Faithful)
    (unfinished : Unfinished proto types dataCase data id tx)
    {now : Timestamp} {bytes : Bytes} {tx' : Transaction}
    (written : (toBytes proto now).run tx = (.ok bytes, tx'))
    (paid : client.operator = some operator) (immediate : client.signOnDemand = false)
    {picked : Except JsError (List AccountId)} {generated : Timestamp} {frozen : Transaction}
    (ran : (freezeWith proto (some client) picked generated).run tx' = (.ok (), frozen))
    (generated' : Timestamp) :
    ∃ copy frozen', fromBytes proto types bytes = .ok copy ∧
      (freezeWith proto (some client) picked generated').run copy = (.ok (), frozen') ∧
      (List.Forall₂ (ShowSame proto) frozen.signedTransactions.list frozen'.signedTransactions.list ↔
        (tx.nodeAccountIds.list = [] ∧ picked = .ok []) ∨
          id.toProtobuf proto.keys =
              (TransactionId.withValidStart operator.accountId generated').toProtobuf proto.keys ∧
            (tx.maxTransactionFee ≠ some 0 ∨
              client.defaultMaxTransactionFee.getD tx.defaultMaxTransactionFee = 0)) := by
  have whole : ∀ append, tx.data ≠ .fileAppend append := by
    rw [unfinished.type]
    simp
  have unfrozen : tx.isFrozenOrOnDemand = false := by
    simp [isFrozenOrOnDemand, isFrozen, SdkList.length, unfinished.immediate, unfinished.unsigned.1]
  obtain ⟨rfl, transactions, rfl⟩ := toBytes_incomplete_eq_ok unfrozen whole written
  obtain ⟨copyData, read⟩ := unfinished.fromBytes_eq faithful
  generalize listIs : (incompleteBodies proto tx).cells.map (bare proto) = list at read
  have none : ({ tx with transactions } : Transaction).data.contents = Option.none := by
    rw [unfinished.type]
    rfl
  rw [freezeWith_of_none none] at ran
  obtain ⟨nodes, from_, _, valid, rfl⟩ := freezeBase_eq_ok ran
  obtain ⟨copied, fromCopy, same, none⟩ := @NodesFrom.ofCopy proto types dataCase copyData id _ _ _
    list from_
  have frozenCopy := @run_freezeBase proto _ _ generated' _ _ fromCopy
    (by simp [copyOf, Client.operatorAccountId, paid])
    (validateTransactionIds_copy unfinished.ids list valid) immediate rfl
  refine ⟨_, _, read, (freezeWith_of_none rfl _ _ _).trans frozenCopy, ?_⟩
  have unlocked : ((settled (some client) generated nodes { tx with transactions }).signOnDemand ||
      (settled (some client) generated nodes { tx with transactions }).signedTransactions.locked) =
        false := by
    simp [immediate, unfinished.unsigned.2]
  rw [if_neg (by rw [unlocked]; exact Bool.false_ne_true)]
  simp only [nodeAccountIds_settled, List.forall₂_map_left_iff, List.forall₂_map_right_iff]
  have current : tx.transactionIds.current = some id := by
    rw [unfinished.ids]
    rfl
  have locked : ({ tx with transactions } : Transaction).transactionIds.locked = true := by
    rw [unfinished.ids]
  rw [← none]
  refine forall₂_iff_of_const same fun nodeId otherId sameAccount => ?_
  refine (showSame_iff faithful rfl rfl).trans ?_
  rw [makeTransactionBody_settled_locked generated nodes locked,
    makeTransactionBody_settled_copy paid]
  have account : nodeId.toProtobuf proto.keys = otherId.toProtobuf proto.keys := sameAccount
  have fee : Value.long (frozenFee client tx.maxTransactionFee tx.defaultMaxTransactionFee) true =
      Value.long (frozenFee client (tx.maxTransactionFee.filter (· ≠ 0))
        (types.defaultMaxTransactionFee dataCase)) true ↔
      tx.maxTransactionFee ≠ some 0 ∨
        client.defaultMaxTransactionFee.getD tx.defaultMaxTransactionFee = 0 := by
    rw [← frozenFee_filter_iff, ← unfinished.defaultFee]
    exact ⟨long_inj, fun h => by rw [h]⟩
  rw [← fee]
  simp only [TransactionBody.common, makeTransactionBody, current, Option.map_some, Option.getD_some,
    List.cons.injEq, Prod.mk.injEq, true_and, and_true, account]

end Freezing

section Samples

/-- A client whose operator pays. -/
def payingClient : Client :=
  { sampleClient [3] with operator := some ⟨.ofNum 2, sampleKey, fun _ message => .ok (message.take 64)⟩ }

def savedTransfer : Bytes :=
  prefixProto.encodeList ((incompleteBodies prefixProto (sampleTransfer [3])).cells.map (bare prefixProto))

theorem toBytes_sampleTransfer : ((toBytes prefixProto ⟨0, 0⟩).run (sampleTransfer [3])).1 =
    .ok savedTransfer := by decide +kernel

theorem freezeWith_sampleTransfer : ((freezeWith prefixProto (some payingClient) (.ok []) ⟨7, 0⟩).run
    ((toBytes prefixProto ⟨0, 0⟩).run (sampleTransfer [3])).2).1 = .ok () := by decide +kernel

theorem unfinished_sampleTransfer : Unfinished prefixProto wholeMessage .cryptoTransfer (.object .nil)
    (.withValidStart (.ofNum 2) ⟨5, 0⟩) (sampleTransfer [3]) where
  type := rfl
  whole := by decide
  plain := trivial
  reads _ _ _ := ⟨_, rfl⟩
  defaultFee := rfl
  immediate := rfl
  unsigned := ⟨rfl, rfl⟩
  ids := rfl
  duration := by decide
  long := by decide
  different := by decide
  nonzero := by decide

/-- The id that freezing generates for the copy happens to be the one that was set. -/
theorem copy_with_the_same_moment :
    ∃ tx' frozen copy frozen',
      (toBytes prefixProto ⟨0, 0⟩).run (sampleTransfer [3]) = (.ok savedTransfer, tx') ∧
      (freezeWith prefixProto (some payingClient) (.ok []) ⟨7, 0⟩).run tx' = (.ok (), frozen) ∧
      fromBytes prefixProto wholeMessage savedTransfer = .ok copy ∧
      (freezeWith prefixProto (some payingClient) (.ok []) ⟨5, 0⟩).run copy = (.ok (), frozen') ∧
      List.Forall₂ (ShowSame prefixProto) frozen.signedTransactions.list
        frozen'.signedTransactions.list := by
  have written := Method.run_of_ok toBytes_sampleTransfer
  have ran := Method.run_of_ok freezeWith_sampleTransfer
  obtain ⟨copy, frozen', loaded, ranCopy, same⟩ := copy_freezes_same_iff prefixProto_faithful
    unfinished_sampleTransfer written rfl rfl ran ⟨5, 0⟩
  exact ⟨_, _, copy, frozen', written, ran, loaded, ranCopy, same.mpr (.inr ⟨rfl, by decide⟩)⟩

/-- The transaction id that a signed transaction shows. -/
def shownId (signed : SignedTransaction) : Value :=
  match prefixProto.decodeBody signed.bodyBytes with
  | .ok body => body.get "transactionID"
  | .error _ => .undefined

theorem shownId_eq {signed other : SignedTransaction} (same : ShowSame prefixProto signed other) :
    shownId signed = shownId other := by
  obtain ⟨value, value', decoded, decoded', fields⟩ := same
  simp only [shownId, decoded, decoded']
  exact fields _ (by decide)

/-- The id that was set is replaced when the copy is frozen. -/
theorem set_id_is_replaced :
    ∃ tx' frozen copy frozen',
      (toBytes prefixProto ⟨0, 0⟩).run (sampleTransfer [3]) = (.ok savedTransfer, tx') ∧
      (freezeWith prefixProto (some payingClient) (.ok []) ⟨7, 0⟩).run tx' = (.ok (), frozen) ∧
      fromBytes prefixProto wholeMessage savedTransfer = .ok copy ∧
      (freezeWith prefixProto (some payingClient) (.ok []) ⟨7, 0⟩).run copy = (.ok (), frozen') ∧
      ¬ List.Forall₂ (ShowSame prefixProto) frozen.signedTransactions.list
        frozen'.signedTransactions.list := by
  have written := Method.run_of_ok toBytes_sampleTransfer
  have ran := Method.run_of_ok freezeWith_sampleTransfer
  obtain ⟨copy, loaded, differs⟩ := exists_ok (fromBytes prefixProto wholeMessage savedTransfer)
    (fun copy => decide (((freezeWith prefixProto (some payingClient) (.ok []) ⟨7, 0⟩).run copy).1 =
        .ok () ∧
      ((freezeWith prefixProto (some payingClient) (.ok []) ⟨7, 0⟩).run
          ((toBytes prefixProto ⟨0, 0⟩).run (sampleTransfer [3])).2).2.signedTransactions.list.map
            shownId ≠
        ((freezeWith prefixProto (some payingClient) (.ok []) ⟨7, 0⟩).run
          copy).2.signedTransactions.list.map shownId)) (by decide +kernel)
  obtain ⟨returned, ids⟩ := of_decide_eq_true differs
  refine ⟨_, _, copy, _, written, ran, loaded, Method.run_of_ok returned, fun same => ids ?_⟩
  have shown := same.imp fun _ _ each => shownId_eq each
  rwa [← List.forall₂_eq_eq_eq, List.forall₂_map_left_iff, List.forall₂_map_right_iff]

end Samples

end HederaSdk.Transaction
