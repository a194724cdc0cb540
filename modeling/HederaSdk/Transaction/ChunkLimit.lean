import HederaSdk.Execution.Sending
import HederaSdk.Transaction.OnDemand

/-!
# The maximum of chunks

`TopicMessageSubmitTransaction.freezeWith` compares the message with the maximum of chunks
behind the base method, which has by then taken the settings of the client, the nodes and an
id, and has built signed transactions. An error about too many chunks leaves all of that, and
an execution does not freeze, nor compare, what is frozen already.
-/

namespace HederaSdk

/-- The error of a message that needs more chunks than the maximum. -/
def TransactionData.excess : TransactionData → Option JsError
  | .topicMessageSubmit submit =>
      match submit.message with
      | none => none
      | some message =>
          if submit.maxChunks < requiredChunks message.length submit.chunkSize then
            some (.error s!"Message with size {message.length} too long for {submit.maxChunks} chunks")
          else none
  | _ => none

namespace Transaction

open Library

variable (proto : Proto) (sha384 : Bytes → Bytes)

/-- `setMaxChunks` of a topic message. -/
def setMaxChunks (maxChunks : ℚ) : TransactionMethod Unit := do
  requireNotFrozen
  Method.update fun tx =>
    match tx.data with
    | .topicMessageSubmit submit => { tx with data := .topicMessageSubmit { submit with maxChunks } }
    | _ => tx

/-- The calls on one transaction, each with a client of its own. -/
inductive LimitCall where
  | setMaxChunks (maxChunks : ℚ)
  | freezeWith (client : Option Client) (picked : Except JsError (List AccountId)) (generated : Timestamp)
  | execute (client : Client) (requestTimeout : Option ℚ) (schedule : ChunksSchedule)

namespace LimitCall

/-- The nodes that the network of a client picks for an execution. -/
def pick (client : Client) (input : Preparation) (tx : Transaction) : Except JsError (List AccountId) :=
  if tx.asksForNodes then
    ((Network.getNodeAccountIdsForExecute input.draws input.now).run client.network).1
  else .ok []

/-- The outcome of a call, what it has sent, and the transaction behind it. -/
def run (tx : Transaction) : LimitCall → Except JsError Unit × List (List (Event ProtoTransaction)) × Transaction
  | .setMaxChunks maxChunks =>
      let (outcome, tx) := (Transaction.setMaxChunks maxChunks).run tx
      (outcome, [], tx)
  | .freezeWith client picked generated =>
      let (outcome, tx) := (Transaction.freezeWith proto client picked generated).run tx
      (outcome, [], tx)
  | .execute client requestTimeout schedule =>
      let (outcome, session) :=
        (Session.executeAll proto sha384 client requestTimeout schedule).run ⟨tx, client.network, []⟩
      (outcome.map fun _ => (), session.log, session.tx)

/-- The transaction behind a call. -/
def step (tx : Transaction) (call : LimitCall) : Transaction := (run proto sha384 tx call).2.2

/-- What a call freezes with. -/
def freezing (tx : Transaction) :
    LimitCall → Option (Option Client × Except JsError (List AccountId) × Timestamp)
  | .setMaxChunks _ => none
  | .freezeWith client picked generated => some (client, picked, generated)
  | .execute client _ schedule =>
      some (some client, pick client schedule.freezing tx, schedule.freezing.generated)

end LimitCall

/-- The lists are those before. -/
structure Restored (tx after : Transaction) : Prop where
  ids : after.transactionIds.list = tx.transactionIds.list
  nodes : after.nodeAccountIds.list = tx.nodeAccountIds.list
  signed : after.signedTransactions.list = tx.signedTransactions.list

/-- The base of freezing returns. -/
def BaseReturns (client : Option Client) (picked : Except JsError (List AccountId)) (generated : Timestamp)
    (tx : Transaction) : Prop :=
  ∃ based, (freezeBase proto client picked generated).run tx = (.ok (), based)

/-- A call on a message that is too long throws, sends nothing and leaves the transaction
unfrozen. Once the base of freezing returns, the error is about the chunks and leaves the lists. -/
structure Rejects (client : Option Client) (picked : Except JsError (List AccountId)) (generated : Timestamp)
    (tx : Transaction) (outcome : Except JsError Unit) (log : List (List (Event ProtoTransaction)))
    (after : Transaction) : Prop where
  threw : ∃ e, outcome = .error e ∧ (BaseReturns proto client picked generated tx → tx.data.excess = some e)
  unsent : log = []
  unfrozen : after.isFrozenOrOnDemand = false
  restored : BaseReturns proto client picked generated tx → Restored tx after

/-- The limit holds at a call. -/
def Heeds (tx : Transaction) (call : LimitCall) : Prop :=
  tx.data.excess ≠ none → ∀ client picked generated, call.freezing tx = some (client, picked, generated) →
    Rejects proto client picked generated tx (call.run proto sha384 tx).1 (call.run proto sha384 tx).2.1
      (call.run proto sha384 tx).2.2

/-- Within the limit, an execution at once that returns has submitted all the chunks. -/
def SubmitsAll (tx : Transaction) (call : LimitCall) : Prop :=
  ∀ client requestTimeout schedule submit message, call = .execute client requestTimeout schedule →
    tx.data = .topicMessageSubmit submit → submit.message = some message → message ≠ [] →
    tx.data.excess = none → tx.isFrozenOrOnDemand = false → client.signOnDemand = false →
    tx.nodeAccountIds.list ≠ [] ∨ LimitCall.pick client schedule.freezing tx ≠ .ok [] →
    (call.run proto sha384 tx).1 = .ok () →
    ∃ initial, SubmitsChunks proto submit message initial (call.run proto sha384 tx).2.1

/-- The client does not sign on demand. When the base of freezing returns, there is nothing for it to
build, and it leaves the ids. -/
structure Leaves (client : Option Client) (picked : Except JsError (List AccountId)) (generated : Timestamp)
    (tx : Transaction) : Prop where
  immediate : (client.map Client.signOnDemand).getD false = false
  nodes : BaseReturns proto client picked generated tx →
    if tx.nodeAccountIds.list = [] then picked = .ok [] else tx.signedTransactions.locked = true
  ids : BaseReturns proto client picked generated tx → tx.transactionIds.locked = false →
    ∀ operator, tx.operatorAccountId.or (client.bind Client.operatorAccountId) = some operator →
      (tx.transactionIds.set tx.transactionIds.index (.withValidStart operator generated)).list =
        tx.transactionIds.list

/-- A call that freezes a message that is too long leaves what is there. -/
def IsLossless (tx : Transaction) (call : LimitCall) : Prop :=
  tx.data.excess ≠ none → ∀ client picked generated, call.freezing tx = some (client, picked, generated) →
    Leaves proto client picked generated tx

/-! ## One call -/

section Freezing

variable {proto} {client : Option Client} {picked : Except JsError (List AccountId)} {generated : Timestamp}
  {tx : Transaction} {e : JsError}

theorem run_freezeTopicMessage_of_excess {submit : TopicMessage}
    (tooLong : (TransactionData.topicMessageSubmit submit).excess = some e) (tx : Transaction) :
    (freezeTopicMessage proto submit).run tx = (.error e, tx) := by
  rw [TransactionData.excess] at tooLong
  rw [freezeTopicMessage]
  cases message : submit.message with
  | none =>
      rw [message] at tooLong
      cases tooLong
  | some message =>
      rw [message] at tooLong
      simp only at tooLong ⊢
      split at tooLong
      · rename_i exceeds
        cases tooLong
        rw [if_pos exceeds]
        rfl
      · cases tooLong

/-- Freezing what is too long is the base with an error behind it. -/
theorem run_freezeWith_of_excess (tooLong : tx.data.excess = some e) :
    (freezeWith proto client picked generated).run tx =
      match (freezeBase proto client picked generated).run tx with
      | (.ok _, based) => (.error e, based)
      | (.error other, based) => (.error other, based) := by
  rcases basing : (freezeBase proto client picked generated).run tx with ⟨other | _, based⟩
  · rw [freezeWith, Method.run_bind_error basing]
  · rw [freezeWith, Method.run_bind_ok basing, Method.run_this_bind, (freezeBase_frame basing).2.1]
    cases data : tx.data with
    | plain dataCase value =>
        rw [data] at tooLong
        cases tooLong
    | fileAppend append =>
        rw [data] at tooLong
        cases tooLong
    | topicMessageSubmit submit => exact run_freezeTopicMessage_of_excess (data ▸ tooLong) based

/-- When the base throws, nothing is built yet, and the mode is that of the client. -/
theorem freezeBase_throws :
    Method.Triple (· = tx) (freezeBase proto client picked generated) (fun _ _ => True) fun _ after =>
      after.signedTransactions.list = tx.signedTransactions.list ∧
        after.signOnDemand = (client.map Client.signOnDemand).getD false := by
  let J (after : Transaction) : Prop := after.signedTransactions.list = tx.signedTransactions.list ∧
    after.signOnDemand = (client.map Client.signOnDemand).getD false
  have nodes : Method.Keeps J (setNodeAccountIdsFrom client picked) :=
    .bind .this fun _ => .ite (.pure _) (.ite (.throwing _) (.bind (.ofExcept _) fun _ =>
      .bind (.ofExcept _) fun _ => .update fun _ kept => kept))
  have checks : Method.Keeps J checkTransactionId := .bind .this fun _ => .ite (.throwing _) (.pure _)
  refine .bind (M := fun _ => J) (.update _ fun _ same => same ▸ ⟨rfl, rfl⟩) fun _ =>
    .bind (M := fun _ => J) nodes.triple fun _ => .bind (M := fun _ => J) checks.triple fun _ =>
    .this fun based kept => .bind (M := fun _ after => after = based) ?_ fun _ => ?_
  · exact .ofExcept _ (fun _ _ _ same => same) fun _ _ _ same => same ▸ kept
  · refine .bind (M := fun _ _ => True) (.update _ fun _ _ => trivial) fun _ => ?_
    apply Method.Triple.this
    intro ready _
    by_cases onDemand : ready.signOnDemand = true
    · rw [if_pos onDemand]
      exact fun _ _ => trivial
    · rw [if_neg onDemand, buildSignedTransactions]
      apply Method.Triple.this
      intro built _
      cases locked : built.signedTransactions.locked with
      | true => exact fun _ _ => trivial
      | false =>
          rw [SdkList.setList_of_unlocked locked]
          exact fun _ _ => trivial

theorem isFrozenOrOnDemand_eq_false {tx : Transaction} : tx.isFrozenOrOnDemand = false ↔
    tx.signOnDemand = false ∧ tx.signedTransactions.list = [] := by
  rw [isFrozenOrOnDemand, Bool.or_eq_false_iff, isFrozen, decide_eq_false_iff_not, Nat.not_lt, Nat.le_zero,
    SdkList.length, List.length_eq_zero_iff]

theorem ids_settled_iff (nodes : SdkList AccountId) :
    (settled client generated nodes tx).transactionIds.list = tx.transactionIds.list ↔
      (tx.transactionIds.locked = false →
        ∀ operator, tx.operatorAccountId.or (client.bind Client.operatorAccountId) = some operator →
          (tx.transactionIds.set tx.transactionIds.index (.withValidStart operator generated)).list =
            tx.transactionIds.list) := by
  rw [settled, buildNewTransactionIdList]
  simp only [takeSettings]
  cases locked : tx.transactionIds.locked with
  | true => simp
  | false =>
      cases known : tx.operatorAccountId.or (client.bind Client.operatorAccountId) with
      | none => simp
      | some operator => simp

/-- What is frozen is rejected without a trace exactly when there is nothing to leave one. -/
theorem rejects_iff (unfrozen : tx.isFrozenOrOnDemand = false) (tooLong : tx.data.excess = some e) :
    Rejects proto client picked generated tx ((freezeWith proto client picked generated).run tx).1 []
        ((freezeWith proto client picked generated).run tx).2 ↔
      Leaves proto client picked generated tx := by
  obtain ⟨off, empty⟩ := isFrozenOrOnDemand_eq_false.mp unfrozen
  have ran := @run_freezeWith_of_excess proto client picked generated tx e tooLong
  rcases basing : (freezeBase proto client picked generated).run tx with ⟨other | _, based⟩
  · have throws : ¬ BaseReturns proto client picked generated tx := by
      rintro ⟨_, returned⟩
      cases basing.symm.trans returned
    obtain ⟨signed, mode⟩ := freezeBase_throws.of_error rfl basing
    rw [basing] at ran
    rw [ran]
    constructor
    · intro rejects
      have off := (isFrozenOrOnDemand_eq_false.mp rejects.unfrozen).1
      exact ⟨mode.symm.trans off, fun returns => absurd returns throws, fun returns => absurd returns throws⟩
    · intro leaves
      exact ⟨⟨other, rfl, fun returns => absurd returns throws⟩, rfl,
        isFrozenOrOnDemand_eq_false.mpr ⟨mode.trans leaves.immediate, signed.trans empty⟩,
        fun returns => absurd returns throws⟩
  · have returns : BaseReturns proto client picked generated tx := ⟨based, basing⟩
    obtain ⟨nodes, from_, -, -, built⟩ := freezeBase_eq_ok basing
    have mode := (freezeBase_frame basing).2.2
    have ids : based.transactionIds = (settled client generated nodes tx).transactionIds := by
      rw [built]
      split <;> rfl
    have nodesIs : based.nodeAccountIds = nodes := by
      rw [built]
      split <;> simp
    have signedIs (immediate : (client.map Client.signOnDemand).getD false = false) :
        based.signedTransactions.list = [] ↔ tx.signedTransactions.locked = true ∨ nodes.list = [] := by
      rw [built]
      simp only [signOnDemand_settled, immediate, signedTransactions_settled, Bool.false_or]
      split
      · rename_i locked
        simp [empty, locked]
      · rename_i unlocked
        simp [unlocked]
    rw [basing] at ran
    rw [ran]
    constructor
    · intro rejects
      obtain ⟨off, none⟩ := isFrozenOrOnDemand_eq_false.mp rejects.unfrozen
      have immediate := mode.symm.trans off
      have restored := rejects.restored returns
      have same : nodes.list = tx.nodeAccountIds.list := nodesIs ▸ restored.nodes
      refine ⟨immediate, fun _ => ?_, fun _ => (ids_settled_iff nodes).mp (ids ▸ restored.ids)⟩
      split
      · rename_i noNodes
        rcases from_ with ⟨some, -⟩ | ⟨-, -, picks, rfl, rfl⟩
        · exact absurd noNodes some
        · exact congrArg Except.ok (same.trans noNodes)
      · rename_i some
        exact ((signedIs immediate).mp none).resolve_right fun noNodes => some (same.symm.trans noNodes)
    · intro leaves
      have kept := leaves.nodes returns
      have same : nodes.list = tx.nodeAccountIds.list ∧
          (tx.signedTransactions.locked = true ∨ nodes.list = []) := by
        rcases from_ with ⟨some, rfl⟩ | ⟨noNodes, -, picks, rfl, rfl⟩
        · rw [if_neg some] at kept
          exact ⟨rfl, .inl kept⟩
        · rw [if_pos noNodes] at kept
          cases kept
          exact ⟨noNodes.symm, .inr rfl⟩
      have none := (signedIs leaves.immediate).mpr same.2
      exact ⟨⟨e, rfl, fun _ => tooLong⟩, rfl,
        isFrozenOrOnDemand_eq_false.mpr ⟨mode.trans leaves.immediate, none⟩, fun _ =>
          ⟨ids ▸ (ids_settled_iff nodes).mpr (leaves.ids returns), nodesIs ▸ same.1, none.trans empty.symm⟩⟩

end Freezing

/-! ## What the limit depends on -/

/-- The error that the limit has for the message. -/
def HasExcess (excess : Option JsError) (tx : Transaction) : Prop := tx.data.excess = excess

section Keeping

variable {proto} {sha384} {excess : Option JsError}

/-- Freezing changes at most the chunk info of the data. -/
theorem excess_freezeWith (client : Option Client) (picked : Except JsError (List AccountId))
    (generated : Timestamp) :
    Method.Keeps (HasExcess excess) (freezeWith proto client picked generated) := by
  apply SurvivesFreezing.freezeWith
  exact {
    settings := fun _ _ h => h
    nodes := fun _ _ h => h
    ids := fun _ _ h => h
    built := fun _ h => h
    cleared := fun _ h => h
    pushed := fun _ _ h => h
    chunk := by
      intro start submit chunkInfo tx has data _
      rw [HasExcess, data] at has
      exact has }

theorem excess_freezeForExecution (client : Client) (picked : Except JsError (List AccountId))
    (generated : Timestamp) :
    Method.Keeps (HasExcess excess) (freezeForExecution proto client picked generated) :=
  .bind .this fun _ => .ite (.pure _) (excess_freezeWith _ _ _)

theorem excess_signWith (key : PublicKey) (signer : Signer) (moment : Nat) :
    Method.Keeps (HasExcess excess) (signWith key signer moment) :=
  .bind (.bind .this fun _ => .ite (.pure _) (.throwing _)) fun _ => .bind .this fun _ =>
    .ite (.pure _) (.bind (.update fun _ h => h) fun _ => .ite (.update fun _ h => h)
      (.bind (.update fun _ h => h) fun _ => .bind (.update fun _ h => h) fun _ => .ofExcept _))

theorem excess_getTransactionId : Method.Keeps (HasExcess excess) getTransactionId := by
  refine .bind .this fun tx => .ite (.throwing _) (.bind (.update fun _ h => h) fun _ => ?_)
  cases tx.transactionIds.current with
  | some id => exact .pure _
  | none => exact .throwing _

theorem excess_beforeExecute (client : Client) (picked : Except JsError (List AccountId))
    (checksums : TransactionData → Except JsError Unit) (generated : Timestamp) (moment : Nat) :
    Method.Keeps (HasExcess excess) (beforeExecute proto client picked checksums generated moment) := by
  refine .bind (.update fun _ h => h) fun _ => .bind (excess_freezeForExecution _ _ _) fun _ =>
    .bind (.bind .this fun _ => .ite (.ofExcept _) (.pure _)) fun _ =>
    .bind (.update fun _ h => h) fun _ => .bind .this fun tx => ?_
  cases tx.operator with
  | none => exact .pure _
  | some operator => exact excess_signWith _ _ _

theorem excess_makeRequestAsync (moment : Nat) :
    Method.Keeps (HasExcess excess) (makeRequestAsync proto moment) := by
  have encodes (index : Nat) : Method.Keeps (HasExcess excess) (encodeAt proto index) := by
    refine .bind .this fun tx => ?_
    cases tx.signedTransactions.get index with
    | none => exact .throwing _
    | some signed => exact .update fun _ h => h
  have pushes (i : Nat) : Method.Keeps (HasExcess excess) (pushAbsent i) :=
    .bind .this fun _ => .bind (.ofExcept _) fun _ => .update fun _ h => h
  have builds (index : Nat) : Method.Keeps (HasExcess excess) (buildTransaction proto index) :=
    .bind .this fun _ => .bind (.forEach pushes _) fun _ =>
      .bind (.bind .this fun _ => .ite (encodes _) (.pure _)) fun _ =>
        .bind .this fun _ => .ite (encodes _) (.pure _)
  have signs : Method.Keeps (HasExcess excess) (signTransaction proto moment) :=
    .bind .this fun _ => .bind (.update fun _ h => h) fun _ => .bind (.ofExcept _) fun _ => .pure _
  refine .bind .this fun _ => .ite (.bind signs fun _ => .pure _) (.bind (builds _) fun _ =>
    .bind .this fun tx => ?_)
  cases (tx.transactions.get _).join with
  | some request => exact .pure _
  | none => exact .throwing _

theorem excess_keeping : (executableClass proto sha384).Keeping (HasExcess excess) where
  setNodeIds _ _ h := h
  makeRequest moment _ := excess_makeRequestAsync moment
  shouldRetry _ response generated := by
    refine .bind (.ofExcept _) fun status => .bind .this fun tx => ?_
    refine .ite (.pure _) (.ite (.pure _) (.ite (.ite (.pure _) ?_) (.pure _)))
    refine .bind (.update fun tx h => ?_) fun _ => .pure _
    unfold buildNewTransactionIdList
    split <;> exact h
  mapStatusError _ _ _ := .bind (.ofExcept _) fun _ => .bind excess_getTransactionId fun _ => .pure _
  mapResponse _ _ _ := .bind excess_getTransactionId fun _ => .bind (.update fun _ h => h) fun _ => .pure _

namespace Session

/-- The same in a session. -/
def SessionHasExcess (excess : Option JsError) (session : Session) : Prop := HasExcess excess session.tx

theorem excess_freezeOn (client : Client) (input : Preparation) :
    Method.Keeps (SessionHasExcess excess) (freezeOn proto client input) :=
  fun session h => excess_freezeForExecution client _ input.generated session.tx h

theorem excess_signWithOperator (client : Client) (input : Preparation) :
    Method.Keeps (SessionHasExcess excess) (signWithOperator proto client input) := by
  rw [signWithOperator]
  cases client.operator with
  | none => exact .throwing _
  | some operator =>
      exact .bind (excess_freezeOn client input) fun _ session h => excess_signWith _ _ _ session.tx h

theorem excess_prepareAll (client : Client) (schedule : ChunksSchedule) :
    Method.Keeps (SessionHasExcess excess) (prepareAll proto client schedule) :=
  .bind .this fun _ => .bind (.ofExcept _) fun _ => .bind (excess_freezeOn client _) fun _ =>
    .bind (fun session h => excess_getTransactionId session.tx h) fun _ =>
      .ite (excess_signWithOperator client _) (.pure _)

theorem excess_executeOne (client : Client) (requestTimeout : Option ℚ)
    (schedule : Schedule Preparation (Option Int)) :
    Method.Keeps (SessionHasExcess excess) (executeOne proto sha384 client requestTimeout schedule) := by
  intro session h
  have keeps : Method.Keeps (fun run : Run Transaction ProtoTransaction => HasExcess excess run.request)
      ((executableClass proto sha384).execute { client with network := session.network } requestTimeout
        schedule) := by
    apply excess_keeping.execute (fun _ h => h) (fun _ h => h)
    exact fun part h => excess_beforeExecute _ _ _ _ _ part.1 h
  exact keeps (Run.start { client with network := session.network } session.tx) h

theorem excess_executeEach (client : Client) (schedule : ChunksSchedule) (remaining number : Nat)
    (remainingTimeout : Option ℚ) :
    Method.Keeps (SessionHasExcess excess)
      (executeEach proto sha384 client schedule remaining number remainingTimeout) := by
  induction remaining generalizing number remainingTimeout with
  | zero => exact .pure _
  | succ remaining inductionHypothesis =>
      refine .bind (excess_executeOne client _ _) fun _ => .bind ?_ fun _ =>
        .bind (inductionHypothesis _ _) fun _ => .pure _
      refine .bind .this fun session => ?_
      cases session.tx.data with
      | fileAppend append => exact .bind (.update fun _ h => h) fun _ => .ofExcept _
      | plain dataCase data => exact .pure _
      | topicMessageSubmit submit => exact .pure _

theorem excess_executeAll (client : Client) (requestTimeout : Option ℚ) (schedule : ChunksSchedule) :
    Method.Keeps (SessionHasExcess excess)
      (executeAll proto sha384 client requestTimeout schedule) :=
  .bind (excess_prepareAll client schedule) fun _ => .bind .this fun _ => excess_executeEach client _ _ _ _

end Session

end Keeping

/-! ## Runs of calls -/

namespace LimitCall

variable {proto} {sha384} {tx : Transaction} {e : JsError}

/-- Freezing what is too long throws. -/
theorem run_freezeWith_eq_error {client : Option Client} {picked : Except JsError (List AccountId)}
    {generated : Timestamp} (tooLong : tx.data.excess = some e) :
    ∃ thrown after, (Transaction.freezeWith proto client picked generated).run tx =
      (.error thrown, after) := by
  rw [run_freezeWith_of_excess tooLong]
  rcases (freezeBase proto client picked generated).run tx with ⟨other | _, based⟩
  · exact ⟨other, based, rfl⟩
  · exact ⟨e, based, rfl⟩

/-- Only a topic message has a limit, so nothing is checked before it is frozen. -/
theorem checkExecutable_of_excess (tooLong : tx.data.excess = some e) :
    Session.checkExecutable tx = .ok () := by
  rw [Session.checkExecutable]
  cases data : tx.data with
  | plain dataCase value => rfl
  | topicMessageSubmit submit => rfl
  | fileAppend append =>
      rw [data] at tooLong
      cases tooLong

/-- In a session with the network of the client, what is not frozen is frozen with the nodes it picks. -/
theorem run_freezeOn (unfrozen : tx.isFrozenOrOnDemand = false) (client : Client) (input : Preparation)
    (log : List (List (Event ProtoTransaction))) :
    ∃ network, (Session.freezeOn proto client input).run ⟨tx, client.network, log⟩ =
      (((Transaction.freezeWith proto (some client) (pick client input tx) input.generated).run tx).1,
        ⟨((Transaction.freezeWith proto (some client) (pick client input tx) input.generated).run tx).2,
          network, log⟩) := by
  have freezes (picked : Except JsError (List AccountId)) :
      (freezeForExecution proto client picked input.generated).run tx =
        (Transaction.freezeWith proto (some client) picked input.generated).run tx := by
    rw [freezeForExecution, Method.run_this_bind, if_neg (by simp [unfrozen])]
  by_cases asks : tx.asksForNodes = true
  · refine ⟨((Network.getNodeAccountIdsForExecute input.draws input.now).run client.network).2, ?_⟩
    rw [← freezes, pick, if_pos asks]
    simp only [Session.freezeOn, Method.run, asks, if_true]
  · refine ⟨client.network, ?_⟩
    rw [← freezes, pick, if_neg asks]
    simp only [Session.freezeOn, Method.run, asks]
    rfl

/-- Executing what is too long ends where it is frozen. -/
theorem run_execute_of_excess (unfrozen : tx.isFrozenOrOnDemand = false)
    (tooLong : tx.data.excess = some e) (client : Client) (requestTimeout : Option ℚ)
    (schedule : ChunksSchedule) :
    run proto sha384 tx (.execute client requestTimeout schedule) =
      run proto sha384 tx (.freezeWith (some client) (pick client schedule.freezing tx)
        schedule.freezing.generated) := by
  obtain ⟨thrown, after, freezing⟩ := @run_freezeWith_eq_error proto tx e (some client)
    (pick client schedule.freezing tx) schedule.freezing.generated tooLong
  obtain ⟨network, freezes⟩ := @run_freezeOn proto tx unfrozen client schedule.freezing []
  rw [freezing] at freezes
  have prepares : (Session.executeAll proto sha384 client requestTimeout schedule).run ⟨tx, client.network, []⟩ =
      (.error thrown, ⟨after, network, []⟩) := by
    rw [Session.executeAll]
    apply Method.run_bind_error
    rw [Session.prepareAll, Method.run_this_bind, checkExecutable_of_excess tooLong,
      Method.run_bind_ok (Method.run_ofExcept_ok _ _)]
    exact Method.run_bind_error freezes
  simp only [run, prepares, freezing]
  rfl

/-- At one call, the limit holds exactly when the call leaves what is there. -/
theorem heeds_iff (unfrozen : tx.data.excess ≠ none → tx.isFrozenOrOnDemand = false) (call : LimitCall) :
    Heeds proto sha384 tx call ↔ IsLossless proto tx call := by
  refine forall_congr' fun exceeds => forall_congr' fun client => forall_congr' fun picked =>
    forall_congr' fun generated => forall_congr' fun freezes => ?_
  obtain ⟨e, tooLong⟩ := Option.ne_none_iff_exists'.mp exceeds
  have one := @rejects_iff proto client picked generated tx e (unfrozen exceeds) tooLong
  cases call with
  | setMaxChunks maxChunks => cases freezes
  | freezeWith client picked generated =>
      cases freezes
      exact one
  | execute client requestTimeout schedule =>
      cases freezes
      rw [run_execute_of_excess (unfrozen exceeds) tooLong]
      exact one

theorem excess_step {excess : Option JsError} {call : LimitCall}
    (freezes : ∃ freezing, call.freezing tx = some freezing) (has : tx.data.excess = excess) :
    (step proto sha384 tx call).data.excess = excess := by
  obtain ⟨_, freezes⟩ := freezes
  cases call with
  | setMaxChunks maxChunks => cases freezes
  | freezeWith client picked generated => exact excess_freezeWith client picked generated tx has
  | execute client requestTimeout schedule =>
      exact Session.excess_executeAll client requestTimeout schedule ⟨tx, client.network, []⟩ has

/-- A message that is too long is not frozen. -/
def Guarding (tx : Transaction) : Prop := tx.data.excess ≠ none → tx.isFrozenOrOnDemand = false

theorem guarding_setMaxChunks (maxChunks : ℚ) (start : Guarding tx) :
    Guarding (step proto sha384 tx (.setMaxChunks maxChunks)) := by
  intro exceeds
  rw [step, run] at exceeds ⊢
  rw [Transaction.setMaxChunks, requireNotFrozen, Method.bind_assoc, Method.run_this_bind] at exceeds ⊢
  cases frozen : tx.isFrozenOrOnDemand with
  | true =>
      simp only [frozen, if_true, Method.run_throwing_bind] at exceeds
      exact absurd (start exceeds) (by simp [frozen])
  | false =>
      simp only [Bool.false_eq_true, if_false, Method.run_pure_bind, Method.run_update]
      split <;> exact frozen

/-- A call that leaves what is there does not freeze a message that is too long. -/
theorem guarding_step (start : Guarding tx) {call : LimitCall} (heeds : Heeds proto sha384 tx call) :
    Guarding (step proto sha384 tx call) := by
  cases freezes : call.freezing tx with
  | none =>
      cases call with
      | setMaxChunks maxChunks => exact guarding_setMaxChunks maxChunks start
      | freezeWith client picked generated => cases freezes
      | execute client requestTimeout schedule => cases freezes
  | some freezing =>
      intro exceeds
      obtain ⟨client, picked, generated⟩ := freezing
      have same := @excess_step proto sha384 tx tx.data.excess call ⟨_, freezes⟩ rfl
      exact (heeds (same ▸ exceeds) client picked generated freezes).unfrozen

/-! ### Within the limit -/

variable {client : Client} {requestTimeout : Option ℚ} {schedule : ChunksSchedule}

/-- An execution that returns is one of what it has frozen. -/
theorem executeAll_freezes {submit : TopicMessage} (is : tx.data = .topicMessageSubmit submit)
    (unfrozen : tx.isFrozenOrOnDemand = false) {responses : List TransactionResponse} {after : Session}
    (ran : (Session.executeAll proto sha384 client requestTimeout schedule).run ⟨tx, client.network, []⟩ =
      (.ok responses, after)) :
    ∃ tx' network,
      (Transaction.freezeWith proto (some client) (pick client schedule.freezing tx)
        schedule.freezing.generated).run tx = (.ok (), tx') ∧
      (tx'.isFrozenOrOnDemand = true →
        (Session.executeAll proto sha384 client requestTimeout schedule).run ⟨tx', network, []⟩ =
          (.ok responses, after)) := by
  have checks (tx : Transaction) (data : ∃ submit, tx.data = .topicMessageSubmit submit) :
      Session.checkExecutable tx = .ok () := by
    obtain ⟨submit, data⟩ := data
    rw [Session.checkExecutable, data]
  obtain ⟨network, freezes⟩ := @run_freezeOn proto tx unfrozen client schedule.freezing []
  obtain ⟨_, prepared, preparing, rest⟩ := Method.run_bind_eq_ok.mp ran
  rw [Session.prepareAll, Method.run_this_bind, checks tx ⟨_, is⟩,
    Method.run_bind_ok (Method.run_ofExcept_ok _ _)] at preparing
  obtain ⟨_, ready, freezing, locks⟩ := Method.run_bind_eq_ok.mp preparing
  rcases froze : (Transaction.freezeWith proto (some client) (pick client schedule.freezing tx)
    schedule.freezing.generated).run tx with ⟨outcome, tx'⟩
  rw [freezes, froze] at freezing
  obtain ⟨rfl, rfl⟩ := Prod.mk.inj freezing
  refine ⟨tx', network, rfl, fun frozen => ?_⟩
  have data : ∃ submit', tx'.data = .topicMessageSubmit submit' := by
    have keeps : Method.Keeps (fun tx => ∃ submit', tx.data = .topicMessageSubmit submit')
        (Transaction.freezeWith proto (some client) (pick client schedule.freezing tx)
          schedule.freezing.generated) := by
      apply SurvivesFreezing.freezeWith
      exact {
        settings := fun _ _ h => h
        nodes := fun _ _ h => h
        ids := fun _ _ h => h
        built := fun _ h => h
        cleared := fun _ h => h
        pushed := fun _ _ h => h
        chunk := fun _ submit chunkInfo _ _ _ _ => ⟨{ submit with chunkInfo }, rfl⟩ }
    have kept := keeps tx ⟨submit, is⟩
    rwa [froze] at kept
  have again : (Session.prepareAll proto client schedule).run ⟨tx', network, []⟩ = (.ok (), prepared) := by
    rw [Session.prepareAll, Method.run_this_bind, checks _ data,
      Method.run_bind_ok (Method.run_ofExcept_ok _ _),
      Method.run_bind_ok (Session.run_freezeOn_frozen schedule.freezing frozen)]
    exact locks
  rw [Session.executeAll, Method.run_bind_ok again]
  exact rest

theorem submitsAll (faithful : proto.Faithful) (tx : Transaction) (call : LimitCall) :
    SubmitsAll proto sha384 tx call := by
  rintro client requestTimeout schedule submit message rfl is set nonempty - unfrozen immediate nodes returned
  rcases executing : (Session.executeAll proto sha384 client requestTimeout schedule).run
    ⟨tx, client.network, []⟩ with ⟨outcome, after⟩
  simp only [run, executing] at returned ⊢
  cases outcome with
  | error e => cases returned
  | ok responses =>
      obtain ⟨tx', network, freezing, again⟩ := executeAll_freezes is unfrozen executing
      have contents : tx.data.contents = some message := by
        rw [is]
        exact set
      obtain ⟨based, basing, from_⟩ := freezeWith_eq_ok contents freezing
      obtain ⟨picks, -, mode⟩ := freezeBase_frame basing
      have some_ : tx'.nodeAccountIds.list ≠ [] := by
        rw [from_.nodes]
        rcases picks with ⟨some, same⟩ | ⟨none, -, ids, picked, same⟩
        · rw [same]
          exact some
        · rw [same]
          rintro rfl
          exact nodes.elim (absurd none) fun other => other picked
      have atOnce : tx'.signOnDemand = false := from_.mode.trans (mode.trans immediate)
      have splits := freezeWith_splits faithful contents freezing some_ atOnce nonempty
      apply immediate_submits_chunks faithful is set nonempty freezing some_ atOnce
      apply again
      rw [isFrozenOrOnDemand, splits.frozen, Bool.or_true]

end LimitCall

section Samples

/-- What is frozen behind a call on a message that is too long has passed the limit. -/
theorem not_heeds_of_frozen {tx : Transaction} {call : LimitCall} (exceeds : tx.data.excess ≠ none)
    (freezes : (call.freezing tx).isSome = true)
    (frozen : (call.step proto sha384 tx).isFrozenOrOnDemand = true) : ¬ Heeds proto sha384 tx call := by
  intro heeds
  obtain ⟨⟨client, picked, generated⟩, freezing⟩ := Option.isSome_iff_exists.mp freezes
  have unfrozen := (heeds exceeds client picked generated freezing).unfrozen
  cases frozen.symm.trans unfrozen

def sampleHash : Bytes → Bytes := fun _ => List.replicate 48 0

/-- Three bytes in chunks of two, of which one is allowed. -/
def longMessage : Transaction :=
  { sampleMessage [1, 2, 3] with data := .topicMessageSubmit { threeBytes with maxChunks := 1 } }

def longMessageOfNoNode : Transaction := { longMessage with nodeAccountIds := {} }

def freezingForNoNode : LimitCall := .freezeWith (some (sampleClient [])) (.ok []) ⟨5, 0⟩

end Samples

end Transaction

end HederaSdk
