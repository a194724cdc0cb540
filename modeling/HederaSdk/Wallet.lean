import HederaSdk.Js.Shuffle
import HederaSdk.Node.NodeUpdateTransaction
import HederaSdk.Transaction.FreshCopies

/-!
# Wallets

A wallet freezes a transaction that has no nodes for a third of its network, drawn from the
account ids of all addresses. An account with several addresses can be drawn twice; the
transaction then has a signed transaction for it twice, while its copy has it once. The check of a
wallet compares account ids as texts, with those of the network as they were given.
-/

namespace HederaSdk

open Library

namespace Transaction

/-! ## What a wallet calls -/

/-- `_freezeWithAccountId` -/
def freezeWithAccountId (accountId : AccountId) (tx : Transaction) : Transaction :=
  { tx with operatorAccountId := tx.operatorAccountId.or (some accountId) }

/-- The getter `transactionId`. -/
def transactionId : TransactionMethod (Option TransactionId) := do
  Method.update lockTransactionIds
  let tx ← Method.this
  pure tx.transactionIds.current

def setTransactionId (transactionId : TransactionId) : TransactionMethod Unit := do
  requireNotFrozen
  let tx ← Method.this
  let transactionIds ← Method.ofExcept (tx.transactionIds.setList [transactionId])
  Method.update fun tx => { tx with transactionIds := transactionIds.setLocked }

/-- The getter `nodeAccountIds`. -/
def getNodeAccountIds : TransactionMethod (Option (List AccountId)) := do
  let tx ← Method.this
  if tx.nodeAccountIds.isEmpty then pure none
  else do
    Method.update fun tx => { tx with nodeAccountIds := tx.nodeAccountIds.setLocked }
    pure (some tx.nodeAccountIds.list)

def setNodeAccountIds (nodeIds : List AccountId) : TransactionMethod Unit := do
  requireNotFrozen
  let tx ← Method.this
  let nodeAccountIds ← Method.ofExcept (tx.nodeAccountIds.setList nodeIds)
  Method.update fun tx => { tx with nodeAccountIds := nodeAccountIds.setLocked }

end Transaction

/-- A wallet with the network of its provider, address by address. -/
structure Wallet where
  accountId : AccountId
  network : Option (List (String × AccountIdArgument))

namespace Wallet

open Transaction

variable (proto : Proto) (accountIdFromString : String → Except JsError AccountId)

/-- The account id at an address of the network. -/
def accountIdAt (entry : String × AccountIdArgument) : Except JsError AccountId :=
  match entry.2 with
  | .id accountId => .ok accountId
  | .text text => accountIdFromString text

/-- The id is set and locked, unless there is one, which is locked. -/
def nameTransaction (wallet : Wallet) (generated : Timestamp) : TransactionMethod Unit := do
  let transactionId ← transactionId
  if transactionId.isNone then setTransactionId (.withValidStart wallet.accountId generated) else pure ()

/-- The transaction is frozen for its nodes, or else for nodes drawn from the network. No id is
generated, for the ids are locked. -/
def freezeForNodes (wallet : Wallet) (ω : Nat → Nat) (generated : Timestamp) : TransactionMethod Unit := do
  let nodeAccountIds ← getNodeAccountIds
  if nodeAccountIds.isSome then freeze proto generated
  else
    match wallet.network with
    | none => pure ()
    | some network => do
        let nodeAccountIds ← Method.ofExcept (network.mapM (accountIdAt accountIdFromString))
        let nodeAccountIds := Js.shuffle ω nodeAccountIds
        setNodeAccountIds (nodeAccountIds.take ((nodeAccountIds.length + 3 - 1) / 3))
        freeze proto generated

def populateTransaction (wallet : Wallet) (ω : Nat → Nat) (generated : Timestamp) :
    TransactionMethod Unit := do
  Method.update (freezeWithAccountId wallet.accountId)
  nameTransaction wallet generated
  freezeForNodes proto accountIdFromString wallet ω generated

/-! ## What is expected of it -/

/-- The transaction is frozen for different nodes of the network, with one signed transaction for
each of its ids and nodes, and the copy of its bytes has its nodes. -/
structure Populated (types : TypeReaders) (network : List AccountId)
    (outcome : Except JsError Unit × Transaction) : Prop where
  returned : outcome.1 = .ok ()
  frozen : outcome.2.isFrozen = true
  nonempty : outcome.2.nodeAccountIds.list ≠ []
  different : (outcome.2.nodeAccountIds.list.map AccountId.toString).Nodup
  listed : ∀ nodeId ∈ outcome.2.nodeAccountIds.list, nodeId ∈ network
  single : ∀ id ∈ outcome.2.transactionIds.list, ∀ nodeId ∈ outcome.2.nodeAccountIds.list,
    NamedOnce proto outcome.2 id nodeId
  copied : ∀ now, ∃ bytes, ((toBytes proto now).run outcome.2).1 = .ok bytes ∧
    ∃ copy, fromBytes proto types bytes = .ok copy ∧
      copy.nodeAccountIds.list.map AccountId.toString =
        outcome.2.nodeAccountIds.list.map AccountId.toString

/-- An unbuilt transaction that was given no nodes. At most one unsigned entry is left of an earlier
writing. -/
structure Nodeless (tx : Transaction) : Prop where
  unbuilt : Unbuilt tx
  unset : tx.nodeAccountIds.list = []
  few : tx.data.contents = none → tx.transactions.list.length ≤ 1

section Populating

variable {proto} {accountIdFromString} {types : TypeReaders} {wallet : Wallet} {ω : Nat → Nat}
  {generated : Timestamp} {tx : Transaction}

/-- Nodes cannot be set, for the transaction is frozen or its list of nodes is locked. -/
def Closed (tx : Transaction) : Prop :=
  tx.nodeAccountIds.list = [] ∧ (tx.isFrozenOrOnDemand = true ∨ tx.nodeAccountIds.locked = true)

theorem closed_setNodeAccountIds (nodeIds : List AccountId) :
    Method.Triple Closed (Transaction.setNodeAccountIds nodeIds) (fun _ _ => False) fun _ _ => True := by
  intro tx closed
  rw [Transaction.setNodeAccountIds, requireNotFrozen]
  cases frozen : tx.isFrozenOrOnDemand with
  | true =>
      simp only [Method.run_bind, Method.run_this, frozen, if_true]
      trivial
  | false =>
      have locked : tx.nodeAccountIds.locked = true := closed.2.resolve_left (by simp [frozen])
      simp only [Method.run_bind, Method.run_this, frozen, Bool.false_eq_true, if_false, Method.run_pure,
        SdkList.setList, locked, if_true, Method.run_ofExcept_error]

theorem closed_nameTransaction : Method.Keeps Closed (nameTransaction wallet generated) := by
  have naming (id : TransactionId) : Method.Keeps Closed (setTransactionId id) :=
    .bind (.bind .this fun _ => .ite (.throwing _) (.pure _)) fun _ => .bind .this fun _ =>
      .bind (.ofExcept _) fun _ => .update fun _ h => h
  refine .bind (.bind (.update fun tx h => ?_) fun _ => .bind .this fun _ => .pure _) fun _ =>
    .ite (naming _) (.pure _)
  rw [lockTransactionIds]
  split <;> exact h

theorem run_getNodeAccountIds (none : tx.nodeAccountIds.list = []) :
    getNodeAccountIds.run tx = (.ok Option.none, tx) := by
  rw [getNodeAccountIds, Method.run_this_bind, if_pos (by simp [SdkList.isEmpty, none])]
  rfl

variable {network : List (String × AccountIdArgument)} {ids : List AccountId}

theorem closed_freezeForNodes (provided : wallet.network = some network) :
    Method.Triple Closed (freezeForNodes proto accountIdFromString wallet ω generated)
      (fun _ _ => False) fun _ _ => True := by
  have drawing : Method.Triple Closed (Method.ofExcept (network.mapM (accountIdAt accountIdFromString)))
      (fun _ => Closed) fun _ _ => True :=
    .ofExcept _ (fun _ _ _ h => h) fun _ _ _ _ => trivial
  intro tx closed
  rw [freezeForNodes, Method.run_bind_ok (run_getNodeAccountIds closed.1), if_neg (by simp), provided]
  exact Method.Triple.bind drawing (fun ids => .bind (closed_setNodeAccountIds _) fun _ _ never =>
    never.elim) tx closed

/-- A wallet gives no nodes to a closed transaction. -/
theorem populateTransaction_of_closed (provided : wallet.network = some network) (closed : Closed tx) :
    ((populateTransaction proto accountIdFromString wallet ω generated).run tx).1 ≠ .ok () := by
  have named : Method.Triple Closed (nameTransaction wallet generated) (fun _ => Closed) fun _ _ => True :=
    closed_nameTransaction.triple.weaken (fun _ h => h) (fun _ _ h => h) fun _ _ _ => trivial
  have triple : Method.Triple Closed (populateTransaction proto accountIdFromString wallet ω generated)
      (fun _ _ => False) fun _ _ => True :=
    .bind (M := fun _ => Closed) (.update _ fun _ h => h) fun _ => .bind named fun _ =>
      closed_freezeForNodes provided
  intro returned
  exact triple.of_ok closed (Method.run_of_ok returned)

theorem run_setTransactionId (unfrozen : tx.isFrozenOrOnDemand = false)
    (unlocked : tx.transactionIds.locked = false) (id : TransactionId) : (setTransactionId id).run tx =
      (.ok (), { tx with transactionIds := { list := [id], locked := true } }) := by
  rw [setTransactionId, requireNotFrozen]
  simp only [Method.run_bind, Method.run_this, unfrozen, Bool.false_eq_true, if_false, Method.run_pure,
    SdkList.setList_of_unlocked unlocked, Method.run_ofExcept_ok, Method.run_update]
  rfl

theorem run_setNodeAccountIds (unfrozen : tx.isFrozenOrOnDemand = false)
    (unlocked : tx.nodeAccountIds.locked = false) (nodes : List AccountId) :
    (Transaction.setNodeAccountIds nodes).run tx =
      (.ok (), { tx with nodeAccountIds := { list := nodes, locked := true } }) := by
  rw [Transaction.setNodeAccountIds, requireNotFrozen]
  simp only [Method.run_bind, Method.run_this, unfrozen, Bool.false_eq_true, if_false, Method.run_pure,
    SdkList.setList_of_unlocked unlocked, Method.run_ofExcept_ok, Method.run_update]
  rfl

/-- The ids of a transaction with an id of its own or that of the wallet. -/
def namedIds (id : TransactionId) (ids : SdkList TransactionId) : SdkList TransactionId :=
  if ids.list = [] then { list := [id], locked := true } else ids.setLocked

theorem run_nameTransaction (unbuilt : Unbuilt tx) (unfrozen : tx.isFrozenOrOnDemand = false) :
    (nameTransaction wallet generated).run tx = (.ok (), { tx with
      transactionIds := namedIds (.withValidStart wallet.accountId generated) tx.transactionIds }) := by
  have reading : Transaction.transactionId.run tx =
      (.ok tx.transactionIds.current, lockTransactionIds tx) := by
    rw [Transaction.transactionId, Method.run_update_bind, Method.run_this_bind, lockTransactionIds]
    split <;> rfl
  rw [nameTransaction, Method.run_bind_ok reading, lockTransactionIds, namedIds]
  cases list : tx.transactionIds.list with
  | nil =>
      have current : tx.transactionIds.current = none := by rw [SdkList.current, SdkList.get, list]; rfl
      have bare : tx.transactionIds.isEmpty = true := by rw [SdkList.isEmpty, list]; rfl
      simp only [current, bare, Option.isNone_none, if_true]
      exact run_setTransactionId unfrozen (unbuilt.named list) _
  | cons first rest =>
      have current : tx.transactionIds.current = some first := by
        rw [SdkList.current, SdkList.get, unbuilt.first, list]
        rfl
      have bare : tx.transactionIds.isEmpty = false := by rw [SdkList.isEmpty, list]; rfl
      simp only [current, bare, Option.isNone_some, Bool.false_eq_true, if_false, reduceCtorEq]
      rfl

/-- The transaction with its id and nodes, before it is frozen. -/
def prepared (wallet : Wallet) (generated : Timestamp) (nodes : List AccountId) (tx : Transaction) :
    Transaction :=
  { freezeWithAccountId wallet.accountId tx with
    transactionIds := namedIds (.withValidStart wallet.accountId generated) tx.transactionIds
    nodeAccountIds := { list := nodes, locked := true } }

/-- A wallet freezes any other transaction for the nodes that are drawn. -/
theorem run_populateTransaction (nodeless : Nodeless tx) (unfrozen : tx.isFrozenOrOnDemand = false)
    (unlocked : tx.nodeAccountIds.locked = false) (provided : wallet.network = some network)
    (read : network.mapM (accountIdAt accountIdFromString) = .ok ids) :
    (populateTransaction proto accountIdFromString wallet ω generated).run tx =
      (freeze proto generated).run
        (prepared wallet generated ((Js.shuffle ω ids).take ((ids.length + 2) / 3)) tx) := by
  have unbuilt : Unbuilt (freezeWithAccountId wallet.accountId tx) :=
    ⟨nodeless.unbuilt.ids, nodeless.unbuilt.first, nodeless.unbuilt.named, nodeless.unbuilt.signed,
      nodeless.unbuilt.transactions⟩
  rw [populateTransaction, Method.run_update_bind, Method.run_bind_ok (run_nameTransaction unbuilt unfrozen),
    freezeForNodes]
  have count := (Js.shuffle_perm ω ids).length_eq
  let named : Transaction := { freezeWithAccountId wallet.accountId tx with
    transactionIds := namedIds (.withValidStart wallet.accountId generated) tx.transactionIds }
  have listed : getNodeAccountIds.run named = (.ok none, named) := run_getNodeAccountIds nodeless.unset
  refine (Method.run_bind_ok listed).trans ?_
  rw [if_neg (by simp), provided]
  simp only [read]
  rw [Method.run_bind_ok (Method.run_ofExcept_ok _ _), count]
  exact Method.run_bind_ok (@run_setNodeAccountIds named unfrozen unlocked _)

theorem prepared_nodesSet (nodeless : Nodeless tx) {nodes : List AccountId} (some : nodes ≠ []) :
    NodesSet (tx.transactionIds.current.getD (.withValidStart wallet.accountId generated))
      (prepared wallet generated nodes tx) := by
  have unbuilt := nodeless.unbuilt
  cases list : tx.transactionIds.list with
  | nil =>
      have current : tx.transactionIds.current = none := by rw [SdkList.current, SdkList.get, list]; rfl
      have ids : (prepared wallet generated nodes tx).transactionIds =
          { list := [.withValidStart wallet.accountId generated], locked := true } := by
        rw [prepared, namedIds, if_pos list]
      exact {
        unbuilt := ⟨fun _ => by simp [ids], by rw [ids], fun none => by simp [ids] at none, unbuilt.signed,
          unbuilt.transactions⟩
        nodes := some
        locked := by rw [ids]
        id := by rw [ids, current]; rfl
        few := nodeless.few }
  | cons first rest =>
      have current : tx.transactionIds.current = Option.some first := by
        rw [SdkList.current, SdkList.get, unbuilt.first, list]
        rfl
      have ids : (prepared wallet generated nodes tx).transactionIds = tx.transactionIds.setLocked := by
        rw [prepared, namedIds, if_neg (by simp [list])]
      exact {
        unbuilt := ⟨fun whole => by rw [ids]; exact unbuilt.ids whole, by rw [ids]; exact unbuilt.first,
          fun none => by simp [ids, list] at none, unbuilt.signed, unbuilt.transactions⟩
        nodes := some
        locked := by rw [ids]; rfl
        id := by rw [ids, SdkList.current_setLocked, current]; rfl
        few := nodeless.few }

/-! ## When it is met -/

/-- What the data of a transaction asks for, once it has an id and nodes. -/
structure Splittable (id : TransactionId) (tx : Transaction) : Prop where
  within : tx.data.excess = none
  writable : tx.checkChunks = .ok ()
  nonempty : tx.data.contents ≠ some []
  spread : ∀ contents, tx.data.contents = some contents → Spread tx.data.chunkInterval
    (if id = .withValidStart id.accountId id.validStart then tx.data.chunks contents
      else tx.data.chunks contents - 1)

/-- Frozen for different nodes of the network, a transaction meets what is expected exactly when it can
be split. -/
theorem populated_freeze_iff (faithful : proto.Faithful) {id : TransactionId} (set : NodesSet id tx)
    (readable : Readable proto types tx)
    (different : (tx.nodeAccountIds.list.map AccountId.toString).Nodup)
    (listed : ∀ nodeId ∈ tx.nodeAccountIds.list, nodeId ∈ ids)
    (nonzero : ∀ nodeId ∈ ids, nodeId.equals (.ofNum 0) = false) :
    Populated proto types ids ((freeze proto generated).run tx) ↔ Splittable id tx := by
  have returns := @freeze_returns_iff proto generated tx set.unbuilt set.nodes set.named
  rcases ran : (freeze proto generated).run tx with ⟨e | _, frozen⟩
  · rw [ran] at returns
    constructor
    · intro populated
      cases populated.returned
    · intro splittable
      cases returns.mpr splittable.within
  · rw [ran] at returns
    have within := returns.mp rfl
    obtain ⟨nodes, mode, checks⟩ := set.frame ran
    have ready := set.isFrozen_iff faithful ran
    have grid := bodiesOf_freezeWith faithful set.unbuilt ran mode
    have single := namedOnce_iff faithful grid (nodes ▸ set.nodes) (nodes ▸ different)
    have ids := set.nodup_ids_iff ran
    have unlocked := (locks_of_freezeWith set.unbuilt ran).1
    constructor
    · intro populated
      obtain ⟨bytes, written, _⟩ := populated.copied ⟨0, 0⟩
      have atOnce := set.atOnce ran populated.frozen
      have same := atOnce.toBytes_eq_ok (Method.run_of_ok written)
      rw [same] at written
      exact {
        within
        writable := checks ▸ (atOnce.toBytes_returns_iff unlocked _).mp written
        nonempty := ready.mp populated.frozen
        spread := ids.mp (single.mp populated.single) }
    · intro splittable
      have frozenNow := ready.mpr splittable.nonempty
      have atOnce := set.atOnce ran frozenNow
      obtain ⟨bodies, holds⟩ := exists_holds readable set.unbuilt ran frozenNow (nodes ▸ different)
      refine ⟨rfl, frozenNow, nodes ▸ set.nodes, nodes ▸ different, nodes ▸ listed,
        single.mpr (ids.mpr splittable.spread), fun now => ?_⟩
      obtain ⟨copy, read, readNodes⟩ := holds.fromBytes faithful (readable.of_freeze ran)
      refine ⟨_, (atOnce.toBytes_returns_iff unlocked now).mpr (checks.trans splittable.writable), copy, read,
        ?_⟩
      have all : bodies.readNodes = frozen.nodeAccountIds.list.map AccountId.onWire := by
        rw [BodyGrid.readNodes, holds.nodes, nodes]
        refine List.filter_eq_self.mpr fun nodeId member => ?_
        obtain ⟨original, inNodes, rfl⟩ := List.mem_map.mp member
        simp [AccountId.equals_onWire, nonzero original (listed original inNodes)]
      rw [readNodes, all, List.map_map]
      exact List.map_congr_left fun nodeId _ => nodeId.toString_onWire

/-- No draw has an account twice exactly when one node is drawn at most or the accounts are different. -/
theorem nodup_draws_iff (ids : List AccountId) :
    (∀ ω, (((Js.shuffle ω ids).take ((ids.length + 2) / 3)).map AccountId.toString).Nodup) ↔
      ids.length ≤ 3 ∨ (ids.map AccountId.toString).Nodup := by
  constructor
  · intro draws
    by_contra neither
    rw [not_or, not_le] at neither
    obtain ⟨first, second, rest, same, perm⟩ := Js.exists_order_of_not_nodup neither.2
    obtain ⟨ω, drawn⟩ := Js.exists_shuffle perm
    obtain ⟨more, count⟩ : ∃ more, (ids.length + 2) / 3 = more + 2 := ⟨(ids.length + 2) / 3 - 2, by omega⟩
    have twice := draws ω
    rw [drawn, count] at twice
    simp [same] at twice
  · rintro (few | different) ω
    · obtain small | small : (ids.length + 2) / 3 = 0 ∨ (ids.length + 2) / 3 = 1 := by omega
      · rw [small]
        exact List.nodup_nil
      · rw [small]
        cases Js.shuffle ω ids <;> simp
    · rw [List.map_take]
      have perm := (Js.shuffle_perm ω ids).map AccountId.toString
      exact (perm.nodup_iff.mpr different).sublist (List.take_sublist _ _)

/-- A wallet freezes a transaction without nodes as expected, whatever is drawn, exactly when the
network has no more than three entries or no account twice, and the transaction can be given nodes
and be split. -/
theorem populated_iff (faithful : proto.Faithful) (nodeless : Nodeless tx) (readable : Readable proto types tx)
    (provided : wallet.network = some network)
    (read : network.mapM (accountIdAt accountIdFromString) = .ok ids) (some : ids ≠ [])
    (nonzero : ∀ nodeId ∈ ids, nodeId.equals (.ofNum 0) = false) (generated : Timestamp) :
    (∀ ω, Populated proto types ids
        ((populateTransaction proto accountIdFromString wallet ω generated).run tx)) ↔
      (ids.length ≤ 3 ∨ (ids.map AccountId.toString).Nodup) ∧
        tx.isFrozenOrOnDemand = false ∧ tx.nodeAccountIds.locked = false ∧
        Splittable (tx.transactionIds.current.getD (.withValidStart wallet.accountId generated)) tx := by
  by_cases closed : Closed tx
  · refine iff_of_false (fun populated => ?_) ?_
    · exact populateTransaction_of_closed provided closed (populated id).returned
    · rintro ⟨_, unfrozen, unlocked, _⟩
      have either := closed.2
      simp [unfrozen, unlocked] at either
  · rw [Closed, not_and, not_or] at closed
    obtain ⟨unfrozen, unlocked⟩ := closed nodeless.unset
    rw [Bool.not_eq_true] at unfrozen unlocked
    have drawn (ω : Nat → Nat) : (Js.shuffle ω ids).take ((ids.length + 2) / 3) ≠ [] := by
      have count := (Js.shuffle_perm ω ids).length_eq
      have positive := List.length_pos_iff.mpr some
      apply List.ne_nil_of_length_pos
      rw [List.length_take]
      omega
    have inNetwork (ω : Nat → Nat) : ∀ nodeId ∈ (Js.shuffle ω ids).take ((ids.length + 2) / 3),
        nodeId ∈ ids := fun nodeId member => (Js.shuffle_perm ω ids).mem_iff.mp (List.mem_of_mem_take member)
    have ready (ω : Nat → Nat) := @prepared_nodesSet wallet generated tx nodeless _ (drawn ω)
    have meets (ω : Nat → Nat)
        (different : (((Js.shuffle ω ids).take ((ids.length + 2) / 3)).map AccountId.toString).Nodup) :=
      @populated_freeze_iff proto types generated _ ids faithful _ (ready ω)
        ⟨readable.subject, readable.own⟩ different (inNetwork ω) nonzero
    simp only [run_populateTransaction nodeless unfrozen unlocked provided read]
    constructor
    · intro populated
      have different (ω : Nat → Nat) :
          (((Js.shuffle ω ids).take ((ids.length + 2) / 3)).map AccountId.toString).Nodup := by
        have met := populated ω
        rcases ran : (freeze proto generated).run
          (prepared wallet generated ((Js.shuffle ω ids).take ((ids.length + 2) / 3)) tx) with ⟨e | _, frozen⟩
        · rw [ran] at met
          cases met.returned
        · have nodup := met.different
          rw [ran, ((ready ω).frame ran).1] at nodup
          exact nodup
      have splittable := (meets id (different id)).mp (populated id)
      exact ⟨(nodup_draws_iff ids).mp different, unfrozen, unlocked, splittable.within, splittable.writable,
        splittable.nonempty, splittable.spread⟩
    · rintro ⟨few, _, _, splittable⟩ ω
      exact (meets ω ((nodup_draws_iff ids).mpr few ω)).mpr
        ⟨splittable.within, splittable.writable, splittable.nonempty, splittable.spread⟩

end Populating

/-! ## Checking -/

section Checking

variable {proto} {accountIdFromString} {wallet : Wallet} {ω : Nat → Nat} {generated : Timestamp}
  {tx frozen : Transaction} {id : TransactionId} {network : List (String × AccountIdArgument)} {ids : List AccountId}

/-- The text of the value at an address. -/
def textAt (entry : String × AccountIdArgument) : String :=
  match entry.2 with
  | .id accountId => accountId.toString
  | .text text => text

/-- The nodes, where some are set, are in the network. -/
def checkNodes (network : List (String × AccountIdArgument)) : TransactionMethod Unit := do
  let nodeAccountIds ← getNodeAccountIds
  if (nodeAccountIds.getD []).all fun id => network.map textAt |>.contains id.toString then pure ()
  else
    Method.throwing (.error "Transaction already set node account IDs to values not within the current network")

def checkTransaction (wallet : Wallet) : TransactionMethod Unit := do
  let transactionId ← transactionId
  if transactionId.any fun id => id.accountId.compare wallet.accountId ≠ 0 then
    Method.throwing (.error "transaction's ID constructed with a different account ID")
  else
    match wallet.network with
    | none => pure ()
    | some network => checkNodes network

/-- A transaction that is frozen with its id keeps it, unless it has contents and these are empty. -/
theorem current_of_freeze (set : NodesSet id tx) (ran : (freeze proto generated).run tx = (.ok (), frozen)) :
    frozen.transactionIds.current = if tx.data.contents = some [] then none else some id := by
  cases contents : tx.data.contents with
  | none =>
      rw [freeze, freezeWith_of_none contents] at ran
      obtain ⟨nodes, _, _, _, built⟩ := freezeBase_eq_ok ran
      have kept : (settled none generated nodes tx).transactionIds = tx.transactionIds := by
        rw [settled, buildNewTransactionIdList]
        simp only [takeSettings, set.locked]
      have same : frozen.transactionIds = tx.transactionIds := by
        rw [built]
        split <;> exact kept
      rw [same, set.id, if_neg (by simp)]
  | some bytes =>
      obtain ⟨based, basing, splits⟩ := freezeWith_eq_ok contents ran
      obtain ⟨_, first, locked, _, split, _⟩ := splits.rows
      have ids := set.ids ran contents
      rw [(freezeBase_frame basing).2.1] at split
      rw [split] at ids ⊢
      have none : tx.data.chunks bytes = 0 ↔ some bytes = some [] := by
        rw [TransactionData.chunks]
        constructor
        · intro none
          rw [Option.some.injEq, ← List.length_eq_zero_iff]
          by_contra positive
          have some := requiredChunks_pos (Nat.pos_of_ne_zero positive) tx.data.chunkSize
          omega
        · intro empty
          cases empty
          exact requiredChunks_zero _
      by_cases empty : tx.data.chunks bytes = 0
      · rw [if_pos (none.mp empty), SdkList.current, SdkList.get, splitIds, empty]
        rfl
      · rw [if_neg (fun same => empty (none.mpr same)), SdkList.current, SdkList.get, splitIds, if_neg empty]
        obtain ⟨more, count⟩ := Nat.exists_eq_succ_of_ne_zero empty
        have list : chunkIds tx.data.chunkInterval (tx.data.chunks bytes) first =
          chunkIds tx.data.chunkInterval (tx.data.chunks bytes) id := ids
        rw [list, count]
        rfl

/-! ## Checking what is populated -/

theorem run_transactionId (tx : Transaction) :
    Transaction.transactionId.run tx = (.ok tx.transactionIds.current, lockTransactionIds tx) := by
  rw [Transaction.transactionId, Method.run_update_bind, Method.run_this_bind, lockTransactionIds]
  split <;> rfl

/-- The ids and nodes that are checked are in order. -/
def InOrder (wallet : Wallet) (network : List (String × AccountIdArgument)) (tx : Transaction) : Prop :=
  (∀ id ∈ tx.transactionIds.current, id.accountId.compare wallet.accountId = 0) ∧
    ∀ nodeId ∈ tx.nodeAccountIds.list, nodeId.toString ∈ network.map textAt

theorem checkNodes_returns_iff (network : List (String × AccountIdArgument)) (tx : Transaction) :
    ((checkNodes network).run tx).1 = .ok () ↔
      ∀ nodeId ∈ tx.nodeAccountIds.list, nodeId.toString ∈ network.map textAt := by
  have reading : ∃ locked, getNodeAccountIds.run tx =
      (.ok (if tx.nodeAccountIds.isEmpty then none else some tx.nodeAccountIds.list), locked) := by
    rw [getNodeAccountIds, Method.run_this_bind]
    split
    · exact ⟨_, rfl⟩
    · exact ⟨_, rfl⟩
  obtain ⟨locked, reading⟩ := reading
  rw [checkNodes, Method.run_bind_ok reading]
  have listed : (if tx.nodeAccountIds.isEmpty then none else some tx.nodeAccountIds.list).getD [] =
      tx.nodeAccountIds.list := by
    cases list : tx.nodeAccountIds.list <;> simp [SdkList.isEmpty, list]
  rw [listed]
  split
  · rename_i all
    simpa using all
  · rename_i all
    simpa [Method.throwing] using all

theorem checkTransaction_returns_iff (provided : wallet.network = some network) (tx : Transaction) :
    ((checkTransaction wallet).run tx).1 = .ok () ↔ InOrder wallet network tx := by
  rw [checkTransaction, Method.run_bind_ok (run_transactionId tx), InOrder]
  have same : (lockTransactionIds tx).nodeAccountIds = tx.nodeAccountIds := by
    rw [lockTransactionIds]
    split <;> rfl
  cases current : tx.transactionIds.current with
  | none =>
      rw [Option.any_none, if_neg (by simp), provided]
      simp only [Option.mem_def, reduceCtorEq, false_imp_iff, implies_true, true_and]
      rw [checkNodes_returns_iff, same]
  | some id =>
      rw [Option.any_some]
      by_cases own : id.accountId.compare wallet.accountId = 0
      · rw [if_neg (by simp [own]), provided]
        simp only [Option.mem_def, Option.some.injEq, forall_eq', own, true_and]
        rw [checkNodes_returns_iff, same]
      · rw [if_pos (by simp [own])]
        refine iff_of_false (fun returned => ?_) fun inOrder => own (inOrder.1 id rfl)
        cases returned

/-- A wallet accepts what it populated, whatever is drawn, exactly when the transaction can be given
nodes and frozen, its id is of the wallet's account unless the contents that are split are empty,
and every text of the network is written as the account id it is read as. -/
theorem checked_iff (nodeless : Nodeless tx) (provided : wallet.network = some network)
    (read : network.mapM (accountIdAt accountIdFromString) = .ok ids) (some : ids ≠ [])
    (generated : Timestamp) :
    (∀ ω, ((do
        populateTransaction proto accountIdFromString wallet ω generated
        checkTransaction wallet).run tx).1 = .ok ()) ↔
      tx.isFrozenOrOnDemand = false ∧ tx.nodeAccountIds.locked = false ∧ tx.data.excess = none ∧
        (tx.data.contents = Option.some [] ∨
          ∀ id ∈ tx.transactionIds.current, id.accountId.compare wallet.accountId = 0) ∧
        ∀ nodeId ∈ ids, nodeId.toString ∈ network.map textAt := by
  by_cases closed : Closed tx
  · refine iff_of_false (fun accepted => ?_) ?_
    · obtain ⟨_, _, populated, _⟩ := Method.run_bind_eq_ok.mp (Method.run_of_ok (accepted id))
      exact populateTransaction_of_closed provided closed (congrArg Prod.fst populated)
    · rintro ⟨unfrozen, unlocked, _⟩
      have either := closed.2
      simp [unfrozen, unlocked] at either
  rw [Closed, not_and, not_or] at closed
  obtain ⟨unfrozen, unlocked⟩ := closed nodeless.unset
  rw [Bool.not_eq_true] at unfrozen unlocked
  set own := tx.transactionIds.current.getD (.withValidStart wallet.accountId generated) with named
  have mine : own.accountId.compare wallet.accountId = 0 ↔
      ∀ id ∈ tx.transactionIds.current, id.accountId.compare wallet.accountId = 0 := by
    cases current : tx.transactionIds.current with
    | none => simp [named, current, TransactionId.withValidStart, AccountId.compare_self]
    | some id => simp [named, current]
  have one (ω : Nat → Nat) : ((do
      populateTransaction proto accountIdFromString wallet ω generated
      checkTransaction wallet).run tx).1 = .ok () ↔
        tx.data.excess = none ∧ (tx.data.contents = Option.some [] ∨
          own.accountId.compare wallet.accountId = 0) ∧
        ∀ nodeId ∈ (Js.shuffle ω ids).take ((ids.length + 2) / 3), nodeId.toString ∈ network.map textAt := by
    have drawn : (Js.shuffle ω ids).take ((ids.length + 2) / 3) ≠ [] := by
      have count := (Js.shuffle_perm ω ids).length_eq
      have positive := List.length_pos_iff.mpr some
      apply List.ne_nil_of_length_pos
      rw [List.length_take]
      omega
    have ready := @prepared_nodesSet wallet generated tx nodeless _ drawn
    have returns := @freeze_returns_iff proto generated _ ready.unbuilt ready.nodes ready.named
    have populating := @run_populateTransaction proto accountIdFromString wallet ω generated tx network ids
      nodeless unfrozen unlocked provided read
    rcases ran : (freeze proto generated).run
      (prepared wallet generated ((Js.shuffle ω ids).take ((ids.length + 2) / 3)) tx) with ⟨e | _, frozen⟩
    · rw [ran] at returns populating
      rw [Method.run_bind_error populating]
      refine iff_of_false (fun never => ?_) fun inside => ?_
      · cases never
      · cases returns.mpr inside.1
    · rw [ran] at returns populating
      rw [Method.run_bind_ok populating, checkTransaction_returns_iff provided, InOrder,
        current_of_freeze ready ran, (ready.frame ran).1]
      have within : tx.data.excess = none := returns.mp rfl
      rw [and_iff_right within]
      refine and_congr ?_ Iff.rfl
      split
      · rename_i empty
        refine iff_of_true (fun id never => ?_) (.inl empty)
        cases never
      · rename_i filled
        have rest : tx.data.contents ≠ Option.some [] := filled
        simp [rest, named]
  simp only [one, mine]
  constructor
  · intro accepted
    refine ⟨unfrozen, unlocked, (accepted id).1, (accepted id).2.1, fun nodeId member => ?_⟩
    -- Any account can be drawn first.
    obtain ⟨ω, order⟩ := Js.exists_shuffle (List.perm_cons_erase member).symm
    refine (accepted ω).2.2 nodeId ?_
    have positive := List.length_pos_of_mem member
    obtain ⟨more, count⟩ := Nat.exists_eq_succ_of_ne_zero (show (ids.length + 2) / 3 ≠ 0 by omega)
    rw [order, count]
    exact List.mem_cons_self
  · rintro ⟨_, _, within, whose, listed⟩ ω
    exact ⟨within, whose, fun nodeId member =>
      listed nodeId ((Js.shuffle_perm ω ids).mem_iff.mp (List.mem_of_mem_take member))⟩

end Checking

section Samples

/-- The wallet of an account with a network, address by address. -/
def sampleWallet (network : List (String × Int)) : Wallet where
  accountId := .ofNum 2
  network := some (network.map fun entry => (entry.1, .id (.ofNum entry.2)))

/-- No account id of the samples is a text. -/
def noText (_ : String) : Except JsError AccountId := .error (.error "invalid argument")

/-- A transfer as it is created. -/
def newTransfer : Transaction := { data := .plain .cryptoTransfer (.object .nil) }

theorem nodeless_newTransfer : Nodeless newTransfer where
  unbuilt := ⟨fun _ => Nat.zero_le 1, rfl, fun _ => rfl, rfl, rfl⟩
  unset := rfl
  few _ := Nat.zero_le 1

theorem readable_newTransfer : Readable prefixProto wholeMessage newTransfer where
  subject _ is := by cases is
  own _ _ is := by
    cases is
    exact ⟨trivial, by decide, fun _ _ _ => ⟨_, rfl⟩⟩

/-- Four accounts: two are drawn. -/
def fourAccounts : List (String × Int) := [("a:1", 3), ("b:1", 4), ("c:1", 5), ("d:1", 6)]

theorem four_accounts_populated :
    Nodeless newTransfer ∧ ∀ ω, Populated prefixProto wholeMessage [.ofNum 3, .ofNum 4, .ofNum 5, .ofNum 6]
      ((populateTransaction prefixProto noText (sampleWallet fourAccounts) ω ⟨5, 0⟩).run newTransfer) := by
  have splittable : Splittable (newTransfer.transactionIds.current.getD
      (.withValidStart (sampleWallet fourAccounts).accountId ⟨5, 0⟩)) newTransfer :=
    ⟨rfl, rfl, by decide, fun contents none => by cases none⟩
  exact ⟨nodeless_newTransfer, (populated_iff prefixProto_faithful nodeless_newTransfer readable_newTransfer rfl
    rfl (by decide) (by decide) ⟨5, 0⟩).mpr ⟨.inr (by decide +kernel), rfl, rfl, splittable⟩⟩

/-- The address book of a provider that writes the account ids with their checksums. -/
def withChecksums : Wallet where
  accountId := .ofNum 2
  network := some [("a:1", .id (.ofNum 3)), ("b:1", .text "0.0.123-vfmkw")]

/-- The one text of it is read. -/
def readChecksum (text : String) : Except JsError AccountId :=
  if text = "0.0.123-vfmkw" then .ok { (AccountId.ofNum 123) with checksum := some "vfmkw" }
  else .error (.error "failed to parse entity id")

/-- A wallet accepts what it froze for accounts, and not what it froze for a text with a checksum. -/
theorem checksum_is_not_accepted :
    Nodeless newTransfer ∧
      (∀ ω, ((do
        populateTransaction prefixProto noText (sampleWallet fourAccounts) ω ⟨5, 0⟩
        checkTransaction (sampleWallet fourAccounts)).run newTransfer).1 = .ok ()) ∧
      ¬ ∀ ω, ((do
        populateTransaction prefixProto readChecksum withChecksums ω ⟨5, 0⟩
        checkTransaction withChecksums).run newTransfer).1 = .ok () := by
  refine ⟨nodeless_newTransfer, ?_, ?_⟩
  · exact (@checked_iff prefixProto noText (sampleWallet fourAccounts) newTransfer _
      [.ofNum 3, .ofNum 4, .ofNum 5, .ofNum 6] nodeless_newTransfer rfl rfl (by decide) ⟨5, 0⟩).mpr
      ⟨rfl, rfl, rfl, .inr (by decide), by decide +kernel⟩
  · intro accepted
    have texts := ((@checked_iff prefixProto readChecksum withChecksums newTransfer _
      [.ofNum 3, { (AccountId.ofNum 123) with checksum := some "vfmkw" }] nodeless_newTransfer rfl rfl
      (by decide) ⟨5, 0⟩).mp accepted).2.2.2.2
    exact absurd texts (by decide +kernel)

/-- Two accounts with two addresses each. -/
def twoAccounts : List (String × Int) := [("a:1", 3), ("b:1", 3), ("c:1", 4), ("d:1", 4)]

/-- Where nothing is swapped, the first account is drawn twice. -/
theorem first_account_drawn_twice :
    Nodeless newTransfer ∧ Readable prefixProto wholeMessage newTransfer ∧
      newTransfer.isFrozenOrOnDemand = false ∧
      (sampleWallet twoAccounts).network = some [("a:1", .id (.ofNum 3)), ("b:1", .id (.ofNum 3)),
        ("c:1", .id (.ofNum 4)), ("d:1", .id (.ofNum 4))] ∧
      (∀ nodeId ∈ [AccountId.ofNum 3, .ofNum 4], nodeId.equals (.ofNum 0) = false) ∧
      ¬ Populated prefixProto wholeMessage [.ofNum 3, .ofNum 3, .ofNum 4, .ofNum 4]
        ((populateTransaction prefixProto noText (sampleWallet twoAccounts) id ⟨5, 0⟩).run newTransfer) := by
  refine ⟨nodeless_newTransfer, readable_newTransfer, rfl, rfl, by decide, fun populated => ?_⟩
  exact absurd populated.different (by decide +kernel)

end Samples

end Wallet

end HederaSdk
