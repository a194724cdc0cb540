import HederaSdk.Transaction.FrozenCopies

/-!
# Copies of transactions with one message

A transaction that is not written in chunks is written as a body for each of its nodes, bare before it
is frozen and signed after. Its class reads the message of the first body, whatever was signed and
shown in between.
-/

namespace HederaSdk.Transaction

open Library
open Js (Value)

variable {proto : Proto} {tx : Transaction} {bytes : Bytes}

/-! ## Writing -/

/-- What `toBytes` returns, of a transaction that is not frozen or of one that was frozen to be signed
at once and then signed and shown in any way. A list of an earlier writing is not longer than the
nodes. -/
inductive Written (proto : Proto) (sha384 : Bytes → Bytes) (tx : Transaction) (bytes : Bytes) : Prop
  | unfrozen {now : Timestamp} {after : Transaction} (unfrozen : tx.isFrozenOrOnDemand = false)
      (written : (toBytes proto now).run tx = (.ok bytes, after)) : Written proto sha384 tx bytes
  | frozen {client : Option Client} {picked : Except JsError (List AccountId)}
      {generated now : Timestamp} {frozen after : Transaction} (calls : List FrozenCall)
      (unlocked : tx.signedTransactions.locked = false)
      (ran : (freezeWith proto client picked generated).run tx = (.ok (), frozen))
      (ready : frozen.isFrozen = true) (immediate : frozen.signOnDemand = false)
      (fits : frozen.transactions.list.length ≤ frozen.nodeAccountIds.list.length)
      (written : (toBytes proto now).run (runAll (frozenStep proto sha384) frozen calls) =
        (.ok bytes, after)) : Written proto sha384 tx bytes

/-- The bytes carry a body for each node, and the keys of the signatures can be read. -/
structure Carried (proto : Proto) (tx : Transaction) (bytes : Bytes) (list : List ProtoTransaction)
    (signed : List SignedTransaction) : Prop where
  bytes : bytes = proto.encodeList list
  carries : CarriesAll proto list (tx.incompleteNodes.map (tx.makeTransactionBody proto)) signed
  readable : ∃ pairs : Nat → List SignaturePair, ∀ i < tx.incompleteNodes.length,
    pairsAt list signed i = .ok (pairs i) ∧
      ∀ pair ∈ pairs i, ∃ key : PublicKey, pair.pubKeyPrefix = key.toBytesRaw

theorem carried_of_unfrozen {now : Timestamp} {after : Transaction}
    (unfrozen : tx.isFrozenOrOnDemand = false) (whole : ∀ append, tx.data ≠ .fileAppend append)
    (written : (toBytes proto now).run tx = (.ok bytes, after)) :
    Carried proto tx bytes ((tx.incompleteNodes.map (tx.makeTransactionBody proto)).map (bare proto)) [] where
  bytes := by
    rw [(toBytes_incomplete_eq_ok unfrozen whole written).1, cells_incompleteBodies]
  carries := carriesAll_bare proto _
  readable := by
    refine ⟨fun _ => [], fun i inside => ⟨?_, by simp⟩⟩
    simp [pairsAt, bare, incomplete, List.getElem?_eq_getElem inside]

section Frozen

variable {client : Option Client} {picked : Except JsError (List AccountId)} {generated now : Timestamp}
  {frozen after : Transaction} {sha384 : Bytes → Bytes}

/-- A frozen transaction has a node, so its bodies are those that it would have before. -/
theorem incompleteNodes_of_isFrozen
    (signed : frozen.signedTransactions.list = frozen.nodeAccountIds.list.map fun nodeId =>
      frozen.makeSignedTransaction proto (some nodeId)) (ready : frozen.isFrozen = true) :
    frozen.incompleteNodes = frozen.nodeAccountIds.list.map some := by
  rw [isFrozen, SdkList.length, signed, List.length_map, decide_eq_true_eq] at ready
  rw [incompleteNodes, if_neg (List.ne_nil_of_length_pos ready)]

theorem carried_of_frozen (single : tx.data.contents = none) (calls : List FrozenCall)
    (unlocked : tx.signedTransactions.locked = false)
    (ran : (freezeWith proto client picked generated).run tx = (.ok (), frozen))
    (ready : frozen.isFrozen = true) (immediate : frozen.signOnDemand = false)
    (fits : frozen.transactions.list.length ≤ frozen.nodeAccountIds.list.length)
    (written : (toBytes proto now).run (runAll (frozenStep proto sha384) frozen calls) =
      (.ok bytes, after)) :
    frozen.data = tx.data ∧ ∃ list signed, Carried proto frozen bytes list signed := by
  rw [freezeWith_of_none single] at ran
  have signed := signed_of_freezeBase unlocked ran immediate
  have nodes := incompleteNodes_of_isFrozen signed ready
  have bodies : frozen.signedTransactions.list.map SignedTransaction.bodyBytes =
      (frozen.incompleteNodes.map (frozen.makeTransactionBody proto)).map proto.encodeBody := by
    rw [signed, nodes]
    simp only [List.map_map]
    rfl
  have count := congrArg List.length bodies
  simp only [List.length_map] at count
  have start : Standing frozen.transactionIds.list frozen.nodeAccountIds.list
      (frozen.signedTransactions.list.map SignedTransaction.bodyBytes) frozen := by
    refine ⟨⟨immediate, rfl, rfl, rfl, ?_, ?_⟩, ?_⟩
    · rw [List.length_map, count, nodes, List.length_map]
      exact fits
    · rw [isFrozen, SdkList.length, decide_eq_true_eq] at ready
      intro none
      rw [List.map_eq_nil_iff] at none
      simp [none] at ready
    · intro one member
      rw [signed] at member
      obtain ⟨nodeId, _, rfl⟩ := List.mem_map.mp member
      intro pair inPairs
      cases inPairs
  have later := @Standing.run proto _ _ _ sha384 _ start calls
  have same := later.atOnce.sameBodies
  generalize (runAll (frozenStep proto sha384) frozen calls) = last at later same written
  refine ⟨(freezeBase_frame ran).2.1, _, _, later.atOnce.toBytes_eq_ok written,
    carriesAll_signed (same.trans bodies),
    fun i => ((last.signedTransactions.list[i]?).map SignedTransaction.sigPair).getD [], fun i inside => ?_⟩
  have sameCount := congrArg List.length (same.trans bodies)
  simp only [List.length_map] at sameCount
  have there := inside.trans_eq sameCount.symm
  simp only [pairsAt, List.getElem?_eq_getElem there, Option.map_some, Option.getD_some, true_and]
  exact later.keyed _ (List.getElem_mem there)

end Frozen

/-- However a transaction with one message is written, the bytes carry bodies with its data. -/
theorem Written.carried {sha384 : Bytes → Bytes} (written : Written proto sha384 tx bytes)
    (single : tx.data.contents = none) (whole : ∀ append, tx.data ≠ .fileAppend append) :
    ∃ frame : Transaction, frame.data = tx.data ∧ ∃ list signed, Carried proto frame bytes list signed := by
  cases written with
  | unfrozen unfrozen written => exact ⟨tx, rfl, _, _, carried_of_unfrozen unfrozen whole written⟩
  | frozen calls unlocked ran ready immediate fits written =>
      exact ⟨_, carried_of_frozen single calls unlocked ran ready immediate fits written⟩

/-! ## Reading the bodies -/

/-- Bodies for several nodes that are the same otherwise pass the check. -/
theorem validateBodies_incomplete (plain : (tx.makeTransactionData proto).Plain) {rows columns : Nat}
    (few : rows ≤ 1) (inside : columns ≤ tx.incompleteNodes.length) :
    validateBodies ((tx.incompleteNodes.map (tx.makeTransactionBody proto)).map
      (TransactionBody.toObject proto.keys)) rows columns = .ok () := by
  refine except_forM_eq_ok.mpr fun p compared => ?_
  obtain ⟨row, inRow, column, inColumn, rfl⟩ := mem_comparedPositions.mp compared
  obtain rfl : row = 0 := by omega
  rw [Nat.zero_mul, Nat.zero_add]
  have several : tx.nodeAccountIds.list ≠ [] := by
    intro none
    rw [incompleteNodes, if_pos none, List.length_singleton] at inside
    omega
  rw [incompleteNodes, if_neg several] at inside ⊢
  rw [List.length_map] at inside
  have node := List.getElem?_eq_getElem (show column < tx.nodeAccountIds.list.length by omega)
  have next := List.getElem?_eq_getElem (show column + 1 < tx.nodeAccountIds.list.length by omega)
  apply compareNeighbours_ok
  · intro value member
    obtain ⟨body, inBodies, rfl⟩ := List.mem_map.mp member
    obtain ⟨nodeId, _, rfl⟩ := List.mem_map.mp inBodies
    exact TransactionBody.plain_toObject proto.keys plain
  · simp only [List.length_map]
    omega
  · simp only [bodyAt, List.getElem?_map, node, next, Option.map_some, Option.getD_some]
    exact agree_of_withNode proto.keys rfl rfl rfl

section Parsed

variable (keys : KeyCodec) (tx : Transaction) (nodes : List (Option AccountId))

/-- What is read of one id is one id. -/
theorem length_readMore_ids_le :
    (Parsed.readMore keys (nodes.map (tx.makeTransactionBody proto)) [] {}).transactionIds.length ≤ 1 := by
  change (distinct TransactionId.toString (((nodes.map (tx.makeTransactionBody proto)).filterMap
    TransactionBody.transactionID).map TransactionId.onWire)).length ≤ 1
  have same : ∀ id ∈ ((nodes.map (tx.makeTransactionBody proto)).filterMap
      TransactionBody.transactionID).map TransactionId.onWire,
      tx.transactionIds.current.map TransactionId.onWire = some id := by
    intro id member
    obtain ⟨original, listed, rfl⟩ := List.mem_map.mp member
    obtain ⟨body, inBodies, named⟩ := List.mem_filterMap.mp listed
    obtain ⟨node, _, rfl⟩ := List.mem_map.mp inBodies
    have current : tx.transactionIds.current = some original := named
    rw [current, Option.map_some]
  generalize ((nodes.map (tx.makeTransactionBody proto)).filterMap
    TransactionBody.transactionID).map TransactionId.onWire = ids at same
  cases ids with
  | nil => exact Nat.zero_le 1
  | cons id rest =>
      rw [distinct_of_same]
      · rfl
      · intro other member
        have first := same id List.mem_cons_self
        rw [same other (List.mem_cons_of_mem _ member), Option.some.injEq] at first
        rw [first]

theorem length_readMore_nodes_le :
    (Parsed.readMore keys (nodes.map (tx.makeTransactionBody proto)) [] {}).nodeIds.length ≤ nodes.length := by
  change (distinct AccountId.toString (((nodes.map (tx.makeTransactionBody proto)).filterMap
    TransactionBody.nodeAccountID).map AccountId.onWire)).length ≤ nodes.length
  calc
    _ ≤ (((nodes.map (tx.makeTransactionBody proto)).filterMap TransactionBody.nodeAccountID).map
        AccountId.onWire).length := length_distinct_le _
    _ ≤ (nodes.map (tx.makeTransactionBody proto)).length := by
      rw [List.length_map]
      exact List.length_filterMap_le _ _
    _ = nodes.length := List.length_map _

end Parsed

theorem incompleteNodes_ne_nil (tx : Transaction) : tx.incompleteNodes ≠ [] := by
  rw [incompleteNodes]
  split
  · exact List.cons_ne_nil _ _
  · rename_i several
    simpa using several

variable {dataCase : DataCase} {data : Value} {list : List ProtoTransaction} {signed : List SignedTransaction}

/-- The bodies that are carried are loaded into any transaction, which keeps its data. -/
theorem Carried.fromProtobufTransactions (carried : Carried proto tx bytes list signed)
    (plain : (tx.makeTransactionData proto).Plain) (empty : Transaction) :
    ∃ loaded : Transaction, loaded.data = empty.data ∧
      fromProtobufTransactions proto empty list
        (Parsed.readMore proto.keys (tx.incompleteNodes.map (tx.makeTransactionBody proto)) signed {}) =
          .ok loaded := by
  have ids := @length_readMore_ids_le proto proto.keys tx tx.incompleteNodes
  have nodes := @length_readMore_nodes_le proto proto.keys tx tx.incompleteNodes
  have valid := validateBodies_incomplete plain ids nodes
  set bodies := tx.incompleteNodes.map (tx.makeTransactionBody proto)
  obtain ⟨nodeIds, filtered⟩ : ∃ nodeIds, (Parsed.readMore proto.keys bodies [] {}).nodeIds.filter
      (fun id => !AccountId.equals id (.ofNum 0)) = nodeIds := ⟨_, rfl⟩
  have inside : ∀ i ∈ List.range nodeIds.length, i < tx.incompleteNodes.length := by
    intro i member
    have few := List.length_filter_le (fun id => !AccountId.equals id (.ofNum 0))
      (Parsed.readMore proto.keys bodies [] {}).nodeIds
    rw [filtered] at few
    exact (List.mem_range.mp member).trans_le (few.trans nodes)
  obtain ⟨pairs, readable⟩ := carried.readable
  have read := except_mapM_ok fun i member => (readable i (inside i member)).1
  have keyed : ∀ pair ∈ ((List.range nodeIds.length).map pairs).flatten,
      ∃ key : PublicKey, pair.pubKeyPrefix = key.toBytesRaw := by
    intro pair member
    obtain ⟨row, inRows, inRow⟩ := List.mem_flatten.mp member
    obtain ⟨i, inRange, rfl⟩ := List.mem_map.mp inRows
    exact (readable i (inside i inRange)).2 pair inRow
  have noting := fun tx => @noteSigners_of_keyed proto _ keyed tx
  have returns : ∃ noted : Transaction, noted.data = empty.data ∧
      Transaction.fromProtobufTransactions proto empty list (Parsed.readMore proto.keys bodies signed {}) =
        noteSigners proto ((List.range nodeIds.length).map pairs).flatten noted := by
    rw [Transaction.fromProtobufTransactions]
    have sameIds : (Parsed.readMore proto.keys bodies signed {}).transactionIds =
        (Parsed.readMore proto.keys bodies [] {}).transactionIds := rfl
    have sameNodes : (Parsed.readMore proto.keys bodies signed {}).nodeIds =
        (Parsed.readMore proto.keys bodies [] {}).nodeIds := rfl
    have sameSigned : (Parsed.readMore proto.keys bodies signed {}).signedTransactions = signed := rfl
    have sameBodies : (Parsed.readMore proto.keys bodies signed {}).bodies =
        bodies.map (TransactionBody.toObject proto.keys) := rfl
    simp only [bind, Except.bind, sameIds, sameNodes, sameSigned, sameBodies, valid, filtered, read]
    exact ⟨_, by rfl, rfl⟩
  obtain ⟨noted, kept, ran⟩ := returns
  obtain ⟨loaded, loading, same⟩ := noting noted
  exact ⟨loaded, same.trans kept, ran.trans loading⟩

/-- A transaction with one message is read by its class, which sees the message. -/
theorem Carried.fromBytes (faithful : proto.Faithful) (carried : Carried proto tx bytes list signed)
    (types : TypeReaders) (type : tx.data = .plain dataCase data)
    (whole : dataCase ≠ .fileAppend ∧ dataCase ≠ .consensusSubmitMessage) (plain : data.Plain) :
    ∃ (body : Value) (loaded : Value → Transaction), body.get dataCase.name = data ∧
      (∀ value, (loaded value).data = .plain dataCase value) ∧
      fromBytes proto types bytes = (types.readData dataCase body).map loaded := by
  have data_eq : tx.makeTransactionData proto = data := by rw [makeTransactionData, type]
  have case_eq : tx.dataCase = dataCase := by rw [Transaction.dataCase, type]
  have loads := fun value => carried.fromProtobufTransactions (data_eq ▸ plain)
    { data := .plain dataCase value
      defaultMaxTransactionFee := types.defaultMaxTransactionFee dataCase }
  choose loaded keeps loads using loads
  obtain ⟨first, rest, nodes⟩ := List.exists_cons_of_ne_nil (incompleteNodes_ne_nil tx)
  have noted := noteAll_carries faithful carried.carries {}
  have bodyIs : bodyAt (Parsed.readMore proto.keys
      (tx.incompleteNodes.map (tx.makeTransactionBody proto)) signed {}).bodies 0 =
        (tx.makeTransactionBody proto first).toObject proto.keys := by
    simp [Parsed.readMore, bodyAt, nodes]
  have filled : list ≠ [] := by
    have carries := carried.carries
    rw [nodes, List.map_cons] at carries
    cases carries
    exact List.cons_ne_nil _ _
  have read : readList proto bytes = .ok list := by
    rw [readList, carried.bytes, faithful.list]
    simp [bind, Except.bind, filled]
  refine ⟨(tx.makeTransactionBody proto first).toObject proto.keys, loaded, ?_, keeps, ?_⟩
  · rw [← case_eq, ← data_eq]
    exact TransactionBody.get_data proto.keys (tx.makeTransactionBody proto first)
  · rw [Transaction.fromBytes, read]
    simp only [bind, Except.bind, noted, bodyIs, faithful.dataCase]
    have case : (tx.makeTransactionBody proto first).dataCase = dataCase := case_eq
    simp only [case, DataCase.ofName?_name]
    rw [readTransaction_whole whole, bodyIs]
    simp only [bind, Except.bind, loads]
    cases types.readData dataCase ((tx.makeTransactionBody proto first).toObject proto.keys) <;> rfl

/-- What is written of a transaction with one message is read by its class, which sees the message. -/
theorem Written.fromBytes (faithful : proto.Faithful) {sha384 : Bytes → Bytes}
    (written : Written proto sha384 tx bytes) (types : TypeReaders) (type : tx.data = .plain dataCase data)
    (whole : dataCase ≠ .fileAppend ∧ dataCase ≠ .consensusSubmitMessage) (plain : data.Plain) :
    ∃ (body : Value) (loaded : Value → Transaction), body.get dataCase.name = data ∧
      (∀ value, (loaded value).data = .plain dataCase value) ∧
      fromBytes proto types bytes = (types.readData dataCase body).map loaded := by
  obtain ⟨frame, same, list, signed, carried⟩ := written.carried (by rw [type]; rfl) (by simp [type])
  exact carried.fromBytes faithful types (same.trans type) whole plain

end HederaSdk.Transaction
