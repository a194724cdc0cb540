import HederaSdk.Transaction.Transaction

/-!
# What freezing leaves alone

Freezing takes settings of the client, fixes ids and builds signed transactions. It
reads but never writes what the user has set about attempts, and neither the keys nor
the signers. `settled` is the transaction once its settings and ids are fixed.
-/

namespace HederaSdk

/-- The contents that are split. -/
def TransactionData.contents : TransactionData → Option Bytes
  | .plain _ _ => none
  | .fileAppend append => append.contents
  | .topicMessageSubmit submit => submit.message

namespace Transaction

open Library

variable {proto : Proto}

/-- What is recorded about signers. -/
def signerRecords (tx : Transaction) : Finset String × List PublicKey × List (Option Signer) :=
  (tx.signerPublicKeys, tx.publicKeys, tx.transactionSigners)

theorem signerRecords_eq_iff {tx other : Transaction} : tx.signerRecords = other.signerRecords ↔
    tx.signerPublicKeys = other.signerPublicKeys ∧ tx.publicKeys = other.publicKeys ∧
      tx.transactionSigners = other.transactionSigners := by
  simp [signerRecords]

/-- What freezing does not write. -/
def untouched (tx : Transaction) :
    (Nat × Option ℚ × Option ℚ × ℚ) × List String ×
      Finset String × List PublicKey × List (Option Signer) :=
  ((tx.maxAttempts, tx.requestTimeout, tx.minBackoff, tx.maxBackoff), tx.transactionNodeIds,
    tx.signerRecords)

/-- The assertion survives every write of `freezeWith`. -/
structure SurvivesFreezing (proto : Proto) (I : Transaction → Prop) : Prop where
  settings : ∀ client tx, I tx → I (takeSettings client tx)
  nodes : ∀ nodeAccountIds tx, I tx → I { tx with nodeAccountIds }
  ids : ∀ transactionIds tx, I tx → I { tx with transactionIds }
  built : ∀ tx : Transaction, I tx → I { tx with signedTransactions := { tx.signedTransactions with
    list := tx.nodeAccountIds.list.map fun nodeId => tx.makeSignedTransaction proto (some nodeId)
    index := 0 } }
  cleared : ∀ tx, I tx → I (clearForChunks tx)
  pushed : ∀ nodeId (tx : Transaction), I tx → I { tx with signedTransactions := { tx.signedTransactions with
    list := tx.signedTransactions.list ++ [tx.makeSignedTransaction proto (some nodeId)] } }
  chunk : ∀ start submit chunkInfo tx, I start → start.data = .topicMessageSubmit submit → I tx →
    I (setChunkInfo submit chunkInfo tx)

/-- The assertion survives every write of `freezeWith` behind the settings. -/
structure SurvivesBuilding (proto : Proto) (I : Transaction → Prop) : Prop where
  nodes : ∀ nodeAccountIds tx, I tx → I { tx with nodeAccountIds }
  ids : ∀ transactionIds tx, I tx → I { tx with transactionIds }
  built : ∀ tx : Transaction, I tx → I { tx with signedTransactions := { tx.signedTransactions with
    list := tx.nodeAccountIds.list.map fun nodeId => tx.makeSignedTransaction proto (some nodeId)
    index := 0 } }
  cleared : ∀ tx, I tx → I (clearForChunks tx)
  pushed : ∀ nodeId (tx : Transaction), I tx → I { tx with signedTransactions := { tx.signedTransactions with
    list := tx.signedTransactions.list ++ [tx.makeSignedTransaction proto (some nodeId)] } }
  chunk : ∀ start submit chunkInfo tx, I start → start.data = .topicMessageSubmit submit → I tx →
    I (setChunkInfo submit chunkInfo tx)

namespace SurvivesBuilding

variable {I : Transaction → Prop} (survives : SurvivesBuilding proto I)

include survives

theorem getTransactionId : Method.Keeps I getTransactionId := by
  refine .bind .this fun tx => .ite (.throwing _) (.bind (.update fun tx => survives.ids _ tx) fun _ => ?_)
  cases tx.transactionIds.current with
  | some id => exact .pure _
  | none => exact .throwing _

theorem setNodeAccountIdsFrom (client : Option Client) (picked : Except JsError (List AccountId)) :
    Method.Keeps I (setNodeAccountIdsFrom client picked) :=
  .bind .this fun _ => .ite (.pure _) (.ite (.throwing _) (.bind (.ofExcept _) fun _ =>
    .bind (.ofExcept _) fun _ => .update fun tx => survives.nodes _ tx))

theorem buildSignedTransactions : Method.Keeps I (buildSignedTransactions proto) := by
  intro tx h
  rw [Transaction.buildSignedTransactions, Method.run_this_bind]
  cases locked : tx.signedTransactions.locked with
  | true => exact h
  | false =>
      rw [if_neg (by simp), SdkList.setList_of_unlocked locked]
      exact survives.built tx h

theorem buildNewTransactionIdList (generated : Timestamp) (tx : Transaction) (h : I tx) :
    I (buildNewTransactionIdList generated tx) := by
  unfold Transaction.buildNewTransactionIdList
  split
  · exact survives.ids _ _ h
  · exact h

/-- What holds once the settings are taken holds when the base of freezing ends. -/
theorem freezeBase {client : Option Client} {tx : Transaction} (start : I (takeSettings client tx))
    (picked : Except JsError (List AccountId)) (generated : Timestamp) :
    I ((freezeBase proto client picked generated).run tx).2 := by
  rw [Transaction.freezeBase, Method.run_update_bind]
  exact Method.Keeps.bind (survives.setNodeAccountIdsFrom client picked) (fun _ =>
    .bind (.bind .this fun _ => .ite (.throwing _) (.pure _)) fun _ => .bind .this fun _ =>
    .bind (.ofExcept _) fun _ => .bind (.update (survives.buildNewTransactionIdList generated)) fun _ =>
    .bind .this fun _ => .ite (.pure _) survives.buildSignedTransactions) _ start

theorem pushSignedTransaction (nodeId : AccountId) :
    Method.Keeps I (pushSignedTransaction proto nodeId) := by
  intro tx h
  rw [Transaction.pushSignedTransaction, Method.run_this_bind]
  cases locked : tx.signedTransactions.locked with
  | true =>
      simp only [SdkList.push, locked, if_true]
      exact h
  | false =>
      rw [SdkList.push_of_unlocked locked]
      exact survives.pushed nodeId tx h

theorem buildChunks {prepare : Nat → Transaction → Transaction}
    (prepares : ∀ chunk tx, I tx → I (prepare chunk tx)) (interval : Int) (remaining chunk : Nat)
    (id : TransactionId) :
    Method.Keeps I (buildChunks proto prepare interval remaining chunk id) := by
  induction remaining generalizing chunk id with
  | zero => exact .pure _
  | succ remaining inductionHypothesis =>
      exact .bind (.update (prepares chunk)) fun _ =>
        .bind (.bind .this fun _ => .bind (.ofExcept _) fun _ => .update fun tx => survives.ids _ tx) fun _ =>
        .bind .this fun _ => .bind (.forEach survives.pushSignedTransaction _) fun _ => inductionHypothesis _ _

theorem freezeWith {client : Option Client} {tx : Transaction} (start : I (takeSettings client tx))
    (picked : Except JsError (List AccountId)) (generated : Timestamp) :
    I ((freezeWith proto client picked generated).run tx).2 := by
  have base := survives.freezeBase start picked generated
  rw [Transaction.freezeWith]
  rcases ran : (Transaction.freezeBase proto client picked generated).run tx with ⟨e | _, based⟩ <;>
    rw [ran] at base
  · rw [Method.run_bind_error ran]
    exact base
  · rw [Method.run_bind_ok ran, Method.run_this_bind]
    cases data : based.data with
    | plain dataCase value => exact base
    | fileAppend append =>
        simp only [freezeFileAppend]
        cases append.contents with
        | none => exact base
        | some contents =>
            refine Method.Keeps.bind survives.getTransactionId (fun _ => ?_) based base
            exact .bind (.update survives.cleared) fun _ =>
              .bind (survives.buildChunks (fun _ _ h => h) _ _ _ _) fun _ => .update fun tx => survives.ids _ tx
    | topicMessageSubmit submit =>
        simp only [freezeTopicMessage]
        cases submit.message with
        | none => exact base
        | some message =>
            refine Method.Keeps.ite (.throwing _) (.bind survives.getTransactionId fun _ => ?_) based base
            exact .bind (.update survives.cleared) fun _ =>
              .bind (survives.buildChunks (fun _ tx => survives.chunk based submit _ tx base data) _ _ _ _)
                fun _ => .update fun tx own => survives.chunk based submit _ _ base data (survives.ids _ tx own)

end SurvivesBuilding

namespace SurvivesFreezing

variable {I : Transaction → Prop}

/-- What only depends on what freezing does not write survives it. -/
theorem of_untouched (blind : ∀ tx tx', untouched tx' = untouched tx → I tx → I tx') :
    SurvivesFreezing proto I where
  settings _ tx := blind tx _ rfl
  nodes _ tx := blind tx _ rfl
  ids _ tx := blind tx _ rfl
  built tx := blind tx _ rfl
  cleared tx := blind tx _ rfl
  pushed _ tx := blind tx _ rfl
  chunk _ _ _ tx _ _ := blind tx _ rfl

theorem building (survives : SurvivesFreezing proto I) : SurvivesBuilding proto I where
  nodes := survives.nodes
  ids := survives.ids
  built := survives.built
  cleared := survives.cleared
  pushed := survives.pushed
  chunk := survives.chunk

theorem freezeWith (survives : SurvivesFreezing proto I) (client : Option Client)
    (picked : Except JsError (List AccountId)) (generated : Timestamp) :
    Method.Keeps I (freezeWith proto client picked generated) := fun tx h =>
  survives.building.freezeWith (survives.settings client tx h) picked generated

end SurvivesFreezing

/-- The client decides when requests are signed, also when freezing throws later on. -/
theorem signOnDemand_freezeWith (client : Option Client) (picked : Except JsError (List AccountId))
    (generated : Timestamp) (tx : Transaction) :
    ((freezeWith proto client picked generated).run tx).2.signOnDemand =
      (client.map Client.signOnDemand).getD false := by
  let Mode (after : Transaction) : Prop := after.signOnDemand = (client.map Client.signOnDemand).getD false
  have survives : SurvivesBuilding proto Mode := {
    nodes _ _ mode := mode
    ids _ _ mode := mode
    built _ mode := mode
    cleared _ mode := mode
    pushed _ _ mode := mode
    chunk _ _ _ _ _ _ mode := mode }
  exact survives.freezeWith rfl picked generated

/-! ## What freezing fixes -/

/-- Nodes are picked only for a transaction that has none. -/
def NodesFrom (picked : Except JsError (List AccountId)) (before nodes : SdkList AccountId) : Prop :=
  (before.list ≠ [] ∧ nodes = before) ∨
    (before.list = [] ∧ before.locked = false ∧
      ∃ ids, picked = .ok ids ∧ nodes = { before with list := ids, index := 0 })

/-- The settings, nodes and ids of a transaction as freezing fixes them. -/
def settled (client : Option Client) (generated : Timestamp) (nodes : SdkList AccountId)
    (tx : Transaction) : Transaction :=
  buildNewTransactionIdList generated { takeSettings client tx with nodeAccountIds := nodes }

theorem setNodeAccountIdsFrom_eq_ok {client : Option Client}
    {picked : Except JsError (List AccountId)} {tx tx' : Transaction}
    (ran : (setNodeAccountIdsFrom client picked).run tx = (.ok (), tx')) :
    ∃ nodes, NodesFrom picked tx.nodeAccountIds nodes ∧ tx' = { tx with nodeAccountIds := nodes } := by
  rw [setNodeAccountIdsFrom, Method.run_this_bind] at ran
  split at ran
  · rename_i present
    cases ran
    exact ⟨_, .inl ⟨by simpa [SdkList.isEmpty] using present, rfl⟩, rfl⟩
  · rename_i empty
    split at ran
    · cases ran
    · obtain ⟨ids, _, picking, ran⟩ := Method.run_bind_eq_ok.mp ran
      obtain ⟨list, _, listing, ran⟩ := Method.run_bind_eq_ok.mp ran
      cases picked with
      | error e => cases picking
      | ok nodeIds =>
          cases picking
          cases given : tx.nodeAccountIds.setList ids with
          | error e =>
              rw [given] at listing
              cases listing
          | ok list' =>
              rw [given] at listing
              cases listing
              cases ran
              obtain ⟨unlocked, rfl⟩ := SdkList.setList_eq_ok given
              exact ⟨_, .inr ⟨by simpa [SdkList.isEmpty] using empty, unlocked, _, rfl, rfl⟩, rfl⟩

theorem getTransactionId_eq_ok {tx tx' : Transaction} {id : TransactionId}
    (read : getTransactionId.run tx = (.ok id, tx')) :
    tx.transactionIds.current = some id ∧
      tx' = { tx with transactionIds := tx.transactionIds.setLocked } := by
  rw [getTransactionId, Method.run_this_bind] at read
  split at read
  · cases read
  · rw [Method.run_update_bind] at read
    cases current : tx.transactionIds.current with
    | none =>
        rw [current] at read
        cases read
    | some id' =>
        rw [current] at read
        cases read
        exact ⟨rfl, rfl⟩

theorem buildSignedTransactions_eq_ok {tx tx' : Transaction}
    (ran : (buildSignedTransactions proto).run tx = (.ok (), tx')) :
    tx' = if tx.signedTransactions.locked then tx
      else { tx with signedTransactions := { tx.signedTransactions with
        list := tx.nodeAccountIds.list.map fun nodeId => tx.makeSignedTransaction proto (some nodeId)
        index := 0 } } := by
  rw [buildSignedTransactions, Method.run_this_bind] at ran
  split at ran
  · rename_i locked
    cases ran
    rw [if_pos locked]
  · rename_i unlocked
    rw [SdkList.setList_of_unlocked (by simpa using unlocked)] at ran
    cases ran
    rw [if_neg unlocked]

/-- A transaction that was frozen is settled and, unless it is signed on demand or its
signed transactions are locked, has one signed transaction for each node. -/
theorem freezeBase_eq_ok {client : Option Client} {picked : Except JsError (List AccountId)}
    {generated : Timestamp} {tx tx' : Transaction}
    (ran : (freezeBase proto client picked generated).run tx = (.ok (), tx')) :
    ∃ nodes, NodesFrom picked tx.nodeAccountIds nodes ∧
      (tx.operatorAccountId.or (client.bind Client.operatorAccountId) ≠ none ∨
        tx.transactionIds.list ≠ []) ∧
      tx.validateTransactionIds client = .ok () ∧
      tx' = if (settled client generated nodes tx).signOnDemand ||
          (settled client generated nodes tx).signedTransactions.locked
        then settled client generated nodes tx
        else { settled client generated nodes tx with
          signedTransactions := { (settled client generated nodes tx).signedTransactions with
            list := (settled client generated nodes tx).nodeAccountIds.list.map fun nodeId =>
              (settled client generated nodes tx).makeSignedTransaction proto (some nodeId)
            index := 0 } } := by
  rw [freezeBase, Method.run_update_bind] at ran
  obtain ⟨_, noded, noding, ran⟩ := Method.run_bind_eq_ok.mp ran
  obtain ⟨nodes, from_, rfl⟩ := setNodeAccountIdsFrom_eq_ok noding
  obtain ⟨_, checked, checking, ran⟩ := Method.run_bind_eq_ok.mp ran
  rw [checkTransactionId, Method.run_this_bind] at checking
  split at checking
  · cases checking
  · rename_i known
    cases checking
    rw [Method.run_this_bind] at ran
    obtain ⟨_, _, validating, ran⟩ := Method.run_bind_eq_ok.mp ran
    cases valid : validateTransactionIds client
      { takeSettings client tx with nodeAccountIds := nodes } with
    | error e =>
        rw [valid] at validating
        cases validating
    | ok _ =>
        rw [valid] at validating
        cases validating
        rw [Method.run_update_bind, Method.run_this_bind] at ran
        refine ⟨nodes, from_, ?_, valid, ?_⟩
        · simp only [Bool.and_eq_true, not_and_or, takeSettings, SdkList.isEmpty,
            List.isEmpty_iff, Option.isNone_iff_eq_none] at known
          exact known
        · change (if (settled client generated nodes tx).signOnDemand = true then _ else _ :
            TransactionMethod Unit).run (settled client generated nodes tx) = _ at ran
          by_cases onDemand : (settled client generated nodes tx).signOnDemand = true
          · rw [if_pos onDemand] at ran
            cases ran
            simp [onDemand]
          · rw [if_neg onDemand] at ran
            rw [buildSignedTransactions_eq_ok ran]
            simp [onDemand]

section Settled

variable (client : Option Client) (generated : Timestamp) (nodes : SdkList AccountId) (tx : Transaction)

@[simp] theorem nodeAccountIds_settled : (settled client generated nodes tx).nodeAccountIds = nodes := by
  unfold settled buildNewTransactionIdList
  split <;> rfl

@[simp] theorem data_settled : (settled client generated nodes tx).data = tx.data := by
  unfold settled buildNewTransactionIdList
  split <;> rfl

@[simp] theorem signedTransactions_settled :
    (settled client generated nodes tx).signedTransactions = tx.signedTransactions := by
  unfold settled buildNewTransactionIdList
  split <;> rfl

@[simp] theorem signOnDemand_settled : (settled client generated nodes tx).signOnDemand =
    (client.map Client.signOnDemand).getD false := by
  unfold settled buildNewTransactionIdList
  split <;> rfl

end Settled

theorem run_setNodeAccountIdsFrom {client : Client} {picked : Except JsError (List AccountId)}
    {tx : Transaction} {nodes : SdkList AccountId} (from_ : NodesFrom picked tx.nodeAccountIds nodes) :
    (setNodeAccountIdsFrom (some client) picked).run tx =
      (.ok (), { tx with nodeAccountIds := nodes }) := by
  rw [setNodeAccountIdsFrom, Method.run_this_bind]
  rcases from_ with ⟨present, rfl⟩ | ⟨empty, unlocked, ids, rfl, rfl⟩
  · rw [if_pos (by simpa [SdkList.isEmpty] using present)]
    rfl
  · rw [if_neg (by simp [SdkList.isEmpty, empty]), if_neg (by simp),
      Method.run_bind_ok (Method.run_ofExcept_ok _ _), SdkList.setList_of_unlocked unlocked]
    rfl

/-- With a client, a transaction whose payers pass their checks is frozen. -/
theorem run_freezeBase {client : Client} {picked : Except JsError (List AccountId)}
    (generated : Timestamp) {tx : Transaction} {nodes : SdkList AccountId}
    (from_ : NodesFrom picked tx.nodeAccountIds nodes)
    (known : tx.operatorAccountId.or client.operatorAccountId ≠ none)
    (valid : tx.validateTransactionIds (some client) = .ok ())
    (immediate : client.signOnDemand = false) (unlocked : tx.signedTransactions.locked = false) :
    (freezeBase proto (some client) picked generated).run tx =
      (.ok (), { settled (some client) generated nodes tx with
        signedTransactions := { tx.signedTransactions with
          list := nodes.list.map fun nodeId =>
            (settled (some client) generated nodes tx).makeSignedTransaction proto (some nodeId)
          index := 0 } }) := by
  have checked : checkTransactionId.run { takeSettings (some client) tx with nodeAccountIds := nodes } =
      (.ok (), { takeSettings (some client) tx with nodeAccountIds := nodes }) := by
    rw [checkTransactionId, Method.run_this_bind]
    have operator : (takeSettings (some client) tx).operatorAccountId.isNone = false := by
      simpa [takeSettings, Option.isNone_eq_false_iff, Option.isSome_iff_ne_none] using known
    simp [operator]
  have validated : validateTransactionIds (some client)
      { takeSettings (some client) tx with nodeAccountIds := nodes } = .ok () := valid
  rw [freezeBase, Method.run_update_bind,
    Method.run_bind_ok (@run_setNodeAccountIdsFrom _ _ (takeSettings (some client) tx) _ from_),
    Method.run_bind_ok checked, Method.run_this_bind, validated,
    Method.run_bind_ok (Method.run_ofExcept_ok _ _), Method.run_update_bind, Method.run_this_bind]
  change (if (settled (some client) generated nodes tx).signOnDemand = true then _ else _ :
    TransactionMethod Unit).run (settled (some client) generated nodes tx) = _
  have off : (settled (some client) generated nodes tx).signOnDemand = false := by
    simpa using immediate
  rw [if_neg (by rw [off]; exact Bool.false_ne_true), buildSignedTransactions, Method.run_this_bind,
    signedTransactions_settled, nodeAccountIds_settled, if_neg (by simp [unlocked]),
    SdkList.setList_of_unlocked unlocked]
  rfl

/-- The nodes, the data and the mode of a transaction whose freezing began. -/
theorem freezeBase_frame {client : Option Client} {picked : Except JsError (List AccountId)}
    {generated : Timestamp} {tx tx' : Transaction}
    (ran : (freezeBase proto client picked generated).run tx = (.ok (), tx')) :
    NodesFrom picked tx.nodeAccountIds tx'.nodeAccountIds ∧ tx'.data = tx.data ∧
      tx'.signOnDemand = (client.map Client.signOnDemand).getD false := by
  obtain ⟨nodes, from_, _, _, rfl⟩ := freezeBase_eq_ok ran
  split <;> simpa using from_

/-- Freezing a transaction without contents to split goes no further than the base. -/
theorem freezeWith_of_none {tx : Transaction} (none : tx.data.contents = none) (client : Option Client)
    (picked : Except JsError (List AccountId)) (generated : Timestamp) :
    (freezeWith proto client picked generated).run tx =
      (freezeBase proto client picked generated).run tx := by
  rw [freezeWith]
  rcases ran : (freezeBase proto client picked generated).run tx with ⟨e | _, after⟩
  · exact Method.run_bind_error ran
  · have same := (freezeBase_frame ran).2.1
    rw [Method.run_bind_ok ran, Method.run_this_bind, same]
    cases data : tx.data with
    | plain dataCase value => rfl
    | fileAppend append =>
        rw [data] at none
        simp only [freezeFileAppend, show append.contents = Option.none from none]
        rfl
    | topicMessageSubmit submit =>
        rw [data] at none
        simp only [freezeTopicMessage, show submit.message = Option.none from none]
        rfl

/-! ## Transactions that were not built -/

/-- A transaction as it is set up or loaded, before it is frozen: the cursor is at the first id. -/
structure Unbuilt (tx : Transaction) : Prop where
  ids : tx.data.contents = none → tx.transactionIds.list.length ≤ 1
  first : tx.transactionIds.index = 0
  named : tx.transactionIds.list = [] → tx.transactionIds.locked = false
  signed : tx.signedTransactions.locked = false
  transactions : tx.transactions.locked = false

section Unbuilt

variable {client : Option Client} {picked : Except JsError (List AccountId)} {generated : Timestamp}
  {tx based : Transaction}

/-- The base of freezing gives a transaction an id. -/
theorem Unbuilt.current_of_freezeBase (unbuilt : Unbuilt tx)
    (ran : (freezeBase proto client picked generated).run tx = (.ok (), based)) :
    based.transactionIds.current ≠ none ∧ based.transactionIds.index = 0 ∧
      (tx.transactionIds.list.length ≤ 1 → based.transactionIds.list.length = 1) ∧
      based.signedTransactions.locked = false ∧ based.transactions = tx.transactions := by
  obtain ⟨nodes, _, known, _, rfl⟩ := freezeBase_eq_ok ran
  have ids : (settled client generated nodes tx).transactionIds.current ≠ none ∧
      (settled client generated nodes tx).transactionIds.index = 0 ∧
      (tx.transactionIds.list.length ≤ 1 →
        (settled client generated nodes tx).transactionIds.list.length = 1) := by
    unfold settled buildNewTransactionIdList
    split
    · have inside : tx.transactionIds.index ≤ tx.transactionIds.list.length := by
        rw [unbuilt.first]
        exact Nat.zero_le _
      refine ⟨?_, ?_, fun few => ?_⟩
      · simp [takeSettings, SdkList.current_set inside]
      · simp [takeSettings, unbuilt.first]
      · change (tx.transactionIds.set tx.transactionIds.index _).list.length = 1
        rw [SdkList.length_set inside, unbuilt.first]
        omega
    · rename_i other
      have some : tx.transactionIds.list ≠ [] := by
        intro empty
        have operator : tx.operatorAccountId.or (client.bind Client.operatorAccountId) = none := by
          by_contra present
          obtain ⟨account, present⟩ := Option.ne_none_iff_exists'.mp present
          exact other account (unbuilt.named empty) present
        exact known.elim (fun present => present operator) fun present => present empty
      have positive := List.length_pos_iff.mpr some
      refine ⟨?_, unbuilt.first, fun few => ?_⟩
      · simpa [SdkList.current, SdkList.get, takeSettings, unbuilt.first] using some
      · simp only [takeSettings]
        omega
  have transactions : (settled client generated nodes tx).transactions = tx.transactions := by
    unfold settled buildNewTransactionIdList
    split <;> rfl
  split
  · exact ⟨ids.1, ids.2.1, ids.2.2, by rw [signedTransactions_settled]; exact unbuilt.signed,
      transactions⟩
  · exact ⟨ids.1, ids.2.1, ids.2.2, by rw [signedTransactions_settled]; exact unbuilt.signed,
      transactions⟩

end Unbuilt

end Transaction

end HederaSdk
