import HederaSdk.Transaction.Chunks
import HederaSdk.Transaction.Response

/-!
# Executing all chunks

`executeAll` freezes and signs a transaction with chunks and then executes it once
for each of its transaction ids. An execution that returns moves the cursor of the
ids, so the next one is for the next id.

While an execution is under way the ids, the bodies and the settings stay as they
are; what it hands to the nodes is a function of these.
-/

namespace HederaSdk.Transaction

open Library Network ExecutableClass

variable (proto : Proto)

/-! ## The loop -/

/-- What the executions of the chunks meet. -/
structure ChunksSchedule where
  /-- The freezing of a transaction that is not frozen yet. -/
  freezing : Preparation
  /-- The signing with the operator of the client. -/
  signing : Preparation
  chunks : Nat → Schedule Preparation (Option Int)
  /-- The milliseconds that the execution of a chunk took. -/
  elapsed : Nat → ℚ := fun _ => 0
  /-- The receipt of a chunk of a file. -/
  receipt : Nat → Except JsError Unit := fun _ => .ok ()
  whileAwaiting : Nat → List NetworkCall := fun _ => []

/-- A transaction whose chunks are executed, the network of the client, and the
events of the executions so far. -/
structure Session where
  tx : Transaction
  network : Network
  log : List (List (Event ProtoTransaction)) := []

abbrev SessionMethod := Method JsError Session

namespace Session

def onTransaction {α : Type} (m : TransactionMethod α) : SessionMethod α :=
  Method.zoom Session.tx (fun tx session => { session with tx }) m

/-- `if (!this._isFrozen()) this.freezeWith(client)` -/
def freezeOn (client : Client) (input : Preparation) : SessionMethod Unit := fun session =>
  let (picked, network) :=
    if session.tx.asksForNodes then
      (Network.getNodeAccountIdsForExecute input.draws input.now).run session.network
    else (.ok [], session.network)
  let (outcome, tx) := (freezeForExecution proto client picked input.generated).run session.tx
  (outcome, { session with tx, network })

def signWithOperator (client : Client) (input : Preparation) : SessionMethod Unit :=
  match client.operator with
  | none => Method.throwing (.error "`client` must have an operator to sign with the operator")
  | some operator => do
      freezeOn proto client input
      onTransaction (signWith operator.publicKey operator.transactionSigner input.moment)

/-- `super.execute(client, requestTimeout)` -/
def executeOne (sha384 : Bytes → Bytes) (client : Client) (requestTimeout : Option ℚ)
    (schedule : Schedule Preparation (Option Int)) : SessionMethod TransactionResponse :=
  fun session =>
    let client := { client with network := session.network }
    let (outcome, run) := ((executableClass proto sha384).execute client requestTimeout schedule).run
      (Run.start client session.tx)
    (outcome, { tx := run.request, network := run.network, log := session.log ++ [run.events] })

/-- Behind each chunk of a file its receipt is awaited. -/
def awaitReceipt (schedule : ChunksSchedule) (number : Nat) : SessionMethod Unit := do
  let session ← Method.this
  match session.tx.data with
  | .fileAppend _ => do
      Method.update fun session => { session with
        network := runAll Network.step session.network (schedule.whileAwaiting number) }
      Method.ofExcept (schedule.receipt number)
  | _ => pure ()

/-- The executions that remain, from the one with the number on. The timeout left is
the time that the one before took. -/
def executeEach (sha384 : Bytes → Bytes) (client : Client) (schedule : ChunksSchedule) :
    Nat → Nat → Option ℚ → SessionMethod (List TransactionResponse)
  | 0, _, _ => pure []
  | remaining + 1, number, remainingTimeout => do
      let response ← executeOne proto sha384 client remainingTimeout (schedule.chunks number)
      awaitReceipt schedule number
      let responses ← executeEach sha384 client schedule remaining (number + 1)
        (remainingTimeout.map fun _ => schedule.elapsed number)
      pure (response :: responses)

/-- A file whose contents take more chunks than allowed is not executed. -/
def checkExecutable (tx : Transaction) : Except JsError Unit :=
  match tx.data with
  | .fileAppend append =>
      let required := match append.contents with
        | none => 1
        | some contents => requiredChunks contents.length append.chunkSize
      if append.maxChunks ≠ 0 ∧ append.maxChunks < required then
        .error (.error
          s!"cannot execute `FileAppendTransaction` with more than {append.maxChunks} chunks")
      else .ok ()
  | _ => .ok ()

/-- Only the default id of a transaction is that of the operator. -/
def isOwn (client : Client) (id : TransactionId) : Bool :=
  match client.operatorAccountId with
  | none => false
  | some operatorAccountId => operatorAccountId.equals id.accountId

/-- What is done before the first chunk is executed. Reading the id locks the ids,
so their number stays. -/
def prepareAll (client : Client) (schedule : ChunksSchedule) : SessionMethod Unit := do
  let session ← Method.this
  Method.ofExcept (checkExecutable session.tx)
  freezeOn proto client schedule.freezing
  let id ← onTransaction getTransactionId
  if isOwn client id then signWithOperator proto client schedule.signing else pure ()

/-- `executeAll` of the two classes with chunks. -/
def executeAll (sha384 : Bytes → Bytes) (client : Client) (requestTimeout : Option ℚ)
    (schedule : ChunksSchedule) : SessionMethod (List TransactionResponse) := do
  prepareAll proto client schedule
  let session ← Method.this
  executeEach proto sha384 client schedule session.tx.transactionIds.length 0 requestTimeout

end Session

/-! ## What an execution leaves alone -/

variable {proto}

/-- The mode, the ids, the nodes and all that a body is made of are the same. -/
structure SameRequests (tx tx' : Transaction) : Prop where
  mode : tx'.signOnDemand = tx.signOnDemand
  ids : tx'.transactionIds = tx.transactionIds
  nodes : tx'.nodeAccountIds.list = tx.nodeAccountIds.list
  bodies : tx'.signedTransactions.list.map SignedTransaction.bodyBytes =
    tx.signedTransactions.list.map SignedTransaction.bodyBytes
  fields : (tx'.data, tx'.maxTransactionFee, tx'.transactionValidDuration, tx'.transactionMemo) =
    (tx.data, tx.maxTransactionFee, tx.transactionValidDuration, tx.transactionMemo)

theorem SameRequests.refl (tx : Transaction) : SameRequests tx tx := ⟨rfl, rfl, rfl, rfl, rfl⟩

theorem SameRequests.trans {tx tx' tx'' : Transaction} (first : SameRequests tx tx')
    (second : SameRequests tx' tx'') : SameRequests tx tx'' where
  mode := second.mode.trans first.mode
  ids := second.ids.trans first.ids
  nodes := second.nodes.trans first.nodes
  bodies := second.bodies.trans first.bodies
  fields := second.fields.trans first.fields

theorem SameRequests.data {tx tx' : Transaction} (same : SameRequests tx tx') : tx'.data = tx.data :=
  congrArg Prod.fst same.fields

theorem SameRequests.body {tx tx' : Transaction} (same : SameRequests tx tx') :
    tx'.makeTransactionBody proto = tx.makeTransactionBody proto := by
  obtain ⟨_, ids, _, _, fields⟩ := same
  simp only [Prod.mk.injEq] at fields
  obtain ⟨data, fee, duration, memo⟩ := fields
  funext nodeId
  simp only [makeTransactionBody, makeTransactionData, dataCase, ids, data, fee, duration, memo]

/-- The bytes of the body for the node in a column, for the id under the cursor. -/
def bodyInColumn (proto : Proto) (tx : Transaction) (column : Nat) : Option Bytes :=
  if tx.signOnDemand then
    tx.nodeAccountIds.list[column]?.map fun nodeId =>
      proto.encodeBody (tx.makeTransactionBody proto (some nodeId))
  else
    (tx.signedTransactions.list.map SignedTransaction.bodyBytes)[tx.transactionIds.index *
      tx.nodeAccountIds.list.length + column]?

/-- The request carries a body for the id under the cursor. -/
def RequestOf (proto : Proto) (tx : Transaction) (request : ProtoTransaction) : Prop :=
  ∃ column signed, column < tx.nodeAccountIds.list.length ∧ request = proto.wrap signed ∧
    bodyInColumn proto tx column = some signed.bodyBytes

theorem RequestOf.of_same {tx tx' : Transaction} {request : ProtoTransaction}
    (same : SameRequests tx tx') (made : RequestOf proto tx' request) :
    RequestOf proto tx request := by
  obtain ⟨column, signed, inside, wrapped, body⟩ := made
  refine ⟨column, signed, same.nodes ▸ inside, wrapped, ?_⟩
  simpa only [bodyInColumn, same.mode, same.ids, same.nodes, same.bodies, same.body] using body

theorem sameRequests_made {tx tx' : Transaction} {moment : Nat} {request : ProtoTransaction}
    (made : (makeRequestAsync proto moment).run tx = (.ok request, tx')) :
    SameRequests tx tx' := by
  cases mode : tx.signOnDemand with
  | true =>
      obtain ⟨pairs, _, _, rfl⟩ := makeRequestAsync_onDemand mode made
      exact ⟨rfl, rfl, rfl, rfl, rfl⟩
  | false =>
      obtain ⟨signed, _, _, rfl⟩ := makeRequestAsync_immediate mode made
      exact ⟨rfl, rfl, rfl, rfl, rfl⟩

theorem requestOf_made {tx tx' : Transaction} {moment : Nat} {request : ProtoTransaction}
    {nodeId : AccountId} (current : tx.nodeAccountIds.current = some nodeId)
    (made : (makeRequestAsync proto moment).run tx = (.ok request, tx')) :
    RequestOf proto tx request := by
  have inside := (List.getElem?_eq_some_iff.mp current).1
  cases mode : tx.signOnDemand with
  | true =>
      obtain ⟨pairs, _, rfl, _⟩ := makeRequestAsync_onDemand mode made
      refine ⟨tx.nodeAccountIds.index, _, inside, rfl, ?_⟩
      rw [bodyInColumn, if_pos mode]
      rw [SdkList.current, SdkList.get] at current
      simp only [SdkList.current, SdkList.get, current, Option.map_some, makeSignedTransaction]
  | false =>
      obtain ⟨signed, found, rfl, _⟩ := makeRequestAsync_immediate mode made
      refine ⟨tx.nodeAccountIds.index, signed, inside, rfl, ?_⟩
      rw [bodyInColumn, if_neg (by simp [mode]), List.getElem?_map]
      exact congrArg (Option.map SignedTransaction.bodyBytes) found

theorem sameRequests_setNodeIds (sha384 : Bytes → Bytes) (tx : Transaction) {ids : SdkList AccountId}
    (same : ids.list = tx.nodeAccountIds.list) :
    SameRequests tx ((executableClass proto sha384).setNodeIds ids tx) :=
  ⟨rfl, rfl, same, rfl, rfl⟩

/-- Locked ids are never replaced. -/
theorem run_shouldRetry_locked {tx : Transaction} (locked : tx.transactionIds.locked = true)
    (precheckCode : Option Int) (generated : Timestamp) :
    ((shouldRetry precheckCode generated).run tx).2 = tx :=
  shouldRetry_of_not_renews (by simp [renews, locked])

theorem setLocked_of_locked {T : Type} {l : SdkList T} (locked : l.locked = true) :
    l.setLocked = l := by
  obtain ⟨list, isLocked, index⟩ := l
  cases locked
  rfl

theorem sameRequests_signWith {tx : Transaction} (locked : tx.transactionIds.locked = true)
    (key : PublicKey) (signer : Signer) (moment : Nat) :
    SameRequests tx ((signWith key signer moment).run tx).2 := by
  by_cases frozen : tx.isFrozenOrOnDemand = true
  · by_cases known : key.hex ∈ tx.signerPublicKeys
    · rw [run_signWith_known frozen known]
      exact .refl tx
    · cases onDemand : tx.signOnDemand with
      | true =>
          rw [run_signWith_onDemand onDemand known]
          exact ⟨rfl, rfl, rfl, rfl, rfl⟩
      | false =>
          rw [run_signWith_immediate frozen onDemand known, replaceSigned, Method.run_update_bind]
          have keeps : SameRequests tx (withSigned
              (signEach key signer moment tx.signedTransactions.list).2
              (lockIds (noteSigner key tx))) :=
            ⟨rfl, setLocked_of_locked locked, rfl, bodies_signEach .., rfl⟩
          exact Method.Keeps.ofExcept _ _ keeps
  · rw [signWith, Method.run_bind, requireFrozen, Method.run_this_bind, if_neg frozen]
    exact .refl tx

section Execute

variable {sha384 : Bytes → Bytes} {client : Client} {requestTimeout : Option ℚ}
  {schedule : Schedule Preparation (Option Int)} {tx : Transaction}

/-- What an execution starts from: there are nodes, and the ids are locked. -/
structure Settled (tx : Transaction) : Prop where
  frozen : tx.isFrozenOrOnDemand = true
  nodes : tx.nodeAccountIds.list ≠ []
  locked : tx.transactionIds.locked = true

theorem SameRequests.frozen {tx tx' : Transaction} (same : SameRequests tx tx')
    (frozen : tx.isFrozenOrOnDemand = true) : tx'.isFrozenOrOnDemand = true := by
  have count := congrArg List.length same.bodies
  simp only [List.length_map] at count
  rw [isFrozenOrOnDemand, isFrozen, SdkList.length, Bool.or_eq_true, decide_eq_true_iff] at frozen ⊢
  rwa [same.mode, count]

theorem SameRequests.settled {tx tx' : Transaction} (same : SameRequests tx tx')
    (settled : Settled tx) : Settled tx' where
  frozen := same.frozen settled.frozen
  nodes := same.nodes ▸ settled.nodes
  locked := same.ids ▸ settled.locked

theorem sameRequests_prepareOn (input : Preparation) (net : Network) (settled : Settled tx) :
    SameRequests tx ((prepareOn proto client input).run (tx, net)).2.1 := by
  change SameRequests tx ((beforeExecute proto client _ _ _ _).run tx).2
  rw [beforeExecute, Method.run_update_bind, freezeAndSign,
    Method.run_bind_ok (run_freezeForExecution client _ _ (by exact settled.frozen))]
  refine Method.Keeps.bind (keeps_validateOwnChecksums client _) (fun _ =>
    .bind (.update fun _ same => same.trans ⟨rfl, rfl, rfl, rfl, rfl⟩) fun _ =>
    .bind .this fun tx' => ?_) _ ⟨rfl, rfl, rfl, rfl, rfl⟩
  cases tx'.operator with
  | none => exact .pure _
  | some operator =>
      intro now same
      exact same.trans (sameRequests_signWith (same.settled settled).locked _ _ _)

theorem sameRequests_prepared (settled : Settled tx) {prepared : Run Transaction ProtoTransaction}
    (ready : ((executableClass proto sha384).prepare client requestTimeout schedule).run
      (Run.start client tx) = (.ok (), prepared)) : SameRequests tx prepared.request := by
  obtain ⟨before, ran, rfl⟩ := prepared_eq_ok ready
  let timed : Transaction :=
    { tx with toExecutable := tx.toExecutable.setTimeout client requestTimeout }
  have same := @sameRequests_prepareOn proto client timed schedule.preparation client.network
    ⟨settled.frozen, settled.nodes, settled.locked⟩
  rw [ran] at same
  exact ⟨same.mode, same.ids, same.nodes, same.bodies, same.fields⟩

section Attempt

variable {startTime : ℚ} {delay : Executable → ℚ} {input : Attempt (Option Int)}
  {run run' : Run Transaction ProtoTransaction}

theorem sameRequests_again (settled : Settled tx) (same : SameRequests tx run.request)
    (attempt : (executableClass proto sha384).Attempted startTime delay input run (.ok .again) run') :
    SameRequests tx run'.request := by
  refine attempt.request_again same ?_ (fun _ _ _ same made => same.trans (sameRequests_made made))
    (fun s same => same.trans (sameRequests_setNodeIds sha384 s rfl)) (fun _ same => same) ?_
  · exact fun s ids empty same => absurd (same.nodes.symm.trans empty) settled.nodes
  · intro s _ response _ same
    change SameRequests tx ((shouldRetry response input.regenerated).run s).2
    rw [run_shouldRetry_locked (same.settled settled).locked]
    exact same

/-- A request that is prepared carries a body for the id under the cursor. -/
theorem requestOf_prepared (settled : Settled tx) (same : SameRequests tx run.request)
    {id : AccountId} {r : NodeRef} {request : ProtoTransaction}
    {chosen made : Run Transaction ProtoTransaction}
    (prepared : (executableClass proto sha384).Prepared startTime input run id r request chosen made) :
    RequestOf proto tx request ∧ SameRequests tx made.request := by
  have known : SameRequests tx chosen.request :=
    request_chosen (J := SameRequests tx) prepared.choice same
      fun s ids empty same => absurd (same.nodes.symm.trans empty) settled.nodes
  have making := (made_of_ok prepared.making).2
  exact ⟨(requestOf_made (current_chosen prepared.choice) making).of_same known,
    known.trans (sameRequests_made making)⟩

/-- A request that was handed out carries a body for the id under the cursor. -/
def IsOwn (proto : Proto) (tx : Transaction) : Event ProtoTransaction → Prop
  | .sent _ _ request _ => RequestOf proto tx request
  | _ => True

theorem isOwn_of_isAnswer {e : Event ProtoTransaction} (answer : e.isAnswer = true) :
    IsOwn proto tx e := by
  cases e with
  | sent => simp [Event.isAnswer] at answer
  | _ => trivial

theorem own_attempt (settled : Settled tx) (same : SameRequests tx run.request)
    {outcome : Except JsError (Step TransactionResponse)}
    (attempt : (executableClass proto sha384).Attempted startTime delay input run outcome run')
    (own : ∀ e ∈ run.events, IsOwn proto tx e) : ∀ e ∈ run'.events, IsOwn proto tx e := by
  obtain ⟨more, events, tail, _⟩ := attempt.events
  rw [events]
  refine List.forall_mem_append.mpr ⟨own, ?_⟩
  cases tail with
  | nothing => simp
  | gaveUp => simp [IsOwn]
  | sent prepared healthy answered =>
      refine List.forall_mem_cons.mpr ⟨(requestOf_prepared settled same prepared).1, fun e member => ?_⟩
      exact isOwn_of_isAnswer (answered e member)

/-- An execution that returns ends with a request that was accepted, and moves the cursor. -/
structure Ends (proto : Proto) (tx : Transaction) (before : List (Event ProtoTransaction))
    (run' : Run Transaction ProtoTransaction) : Prop where
  events : ∃ node nodeId request time,
    run'.events = before ++ [.sent node nodeId request time, .classified .finished] ∧
      RequestOf proto tx request
  request : SameRequests { tx with transactionIds := tx.transactionIds.advance } run'.request

theorem ends_finished (settled : Settled tx) (same : SameRequests tx run.request)
    {response : TransactionResponse}
    (attempt : (executableClass proto sha384).Attempted startTime delay input run
      (.ok (.finished response)) run') : Ends proto tx run.events run' := by
  cases attempt with
  | @sent id r request chosen made _ _ prepared healthy judging =>
      obtain ⟨precheckCode, status, accepted, final, _, verdict, mapping, events, after⟩ :=
        finished_judged judging
      obtain rfl := shouldRetry_finished verdict
      obtain ⟨own, here⟩ := requestOf_prepared settled same prepared
      obtain ⟨transactionId, _, _, rfl⟩ := mapResponse_eq_ok mapping
      have ids := setLocked_of_locked (here.settled settled).locked
      refine ⟨⟨made.network.heap r, id, request, input.sentAt, ?_, own⟩, ?_⟩
      · rw [events, handed, prepared.events, List.append_assoc]
        rfl
      · rw [after]
        exact ⟨here.mode, (congrArg SdkList.advance ids).trans (congrArg SdkList.advance here.ids),
          here.nodes, here.bodies, here.fields⟩

end Attempt

/-- What an execution does, whether it returns or throws. -/
structure Executes (proto : Proto) (tx : Transaction) (outcome : Except JsError TransactionResponse)
    (run' : Run Transaction ProtoTransaction) : Prop where
  own : ∀ e ∈ run'.events, IsOwn proto tx e
  ends : ∀ response, outcome = .ok response →
    ∃ before, .classified .finished ∉ before ∧ Ends proto tx before run'

theorem execute_executes (settled : Settled tx) {outcome : Except JsError TransactionResponse}
    {run' : Run Transaction ProtoTransaction}
    (ran : ((executableClass proto sha384).execute client requestTimeout schedule).run
      (Run.start client tx) = (outcome, run')) : Executes proto tx outcome run' := by
  rcases preparing : ((executableClass proto sha384).prepare client requestTimeout schedule).run
    (Run.start client tx) with ⟨e | _, prepared⟩
  · obtain ⟨events, -⟩ := run_prepare preparing
    rw [ExecutableClass.execute, Method.run_bind_error preparing] at ran
    cases ran
    exact ⟨by simp [events, Run.start], fun _ same => by cases same⟩
  · have none : prepared.events = [] := (run_prepare preparing).1
    rw [run_execute preparing] at ran
    refine retryLoop_rule (I := fun _ _ run => SameRequests tx run.request ∧
        (∀ e ∈ run.events, IsOwn proto tx e) ∧ .classified .finished ∉ run.events)
      (Q := Executes proto tx) ?_ ?_
      ⟨sameRequests_prepared settled preparing, by simp [none], by simp [none]⟩
      (allAttempts_true _ _ _) ran
    · rintro remaining number run ⟨same, own, unfinished⟩ _ outcome run' attempt
      have after := own_attempt settled same attempt own
      rcases outcome with e | _ | response
      · exact ⟨after, fun _ same => by cases same⟩
      · obtain ⟨more, events, _, verdict⟩ := attempt.events
        refine ⟨sameRequests_again settled same attempt, after, ?_⟩
        rw [events, List.mem_append, not_or]
        exact ⟨unfinished, fun member => by simpa [Event.isFinal] using verdict rfl _ member⟩
      · exact ⟨after, fun _ _ => ⟨run.events, unfinished, ends_finished settled same attempt⟩⟩
    · exact fun _ run e h => ⟨h.2.1, fun _ same => by cases same⟩

end Execute

/-! ## All executions -/

/-- The requests that were accepted, in order. -/
def accepted {Req : Type} : List (Event Req) → List Req
  | [] => []
  | .sent _ _ request _ :: .classified .finished :: rest => request :: accepted rest
  | _ :: rest => accepted rest

theorem accepted_ends {Req : Type} {before : List (Event Req)}
    (unfinished : .classified .finished ∉ before) (node : Node) (nodeId : AccountId) (request : Req)
    (time : ℚ) :
    accepted (before ++ [.sent node nodeId request time, .classified .finished]) = [request] := by
  induction before with
  | nil => rfl
  | cons e rest inductionHypothesis =>
      rw [List.mem_cons, not_or] at unfinished
      have behind := inductionHypothesis unfinished.2
      rw [List.cons_append, accepted]
      · exact behind
      · rintro node' nodeId' request' time' rest' rfl same
        cases rest with
        | nil => simp at same
        | cons e' rest =>
            rw [List.cons_append, List.cons.injEq] at same
            exact unfinished.2 (same.1 ▸ List.mem_cons_self ..)

/-- The transaction with the cursor of its ids in the row. -/
def onRow (row : Nat) (tx : Transaction) : Transaction :=
  { tx with transactionIds := { tx.transactionIds with index := row } }

/-- One request of an execution was accepted, and all were for the row. -/
structure SubmitsRow (proto : Proto) (tx : Transaction) (row : Nat)
    (events : List (Event ProtoTransaction)) : Prop where
  accepted : ∃ request, accepted events = [request] ∧ RequestOf proto (onRow row tx) request
  own : ∀ e ∈ events, IsOwn proto (onRow row tx) e

/-- One execution for each id, in order. -/
def SubmitsRows (proto : Proto) (tx : Transaction) (log : List (List (Event ProtoTransaction))) : Prop :=
  List.Forall₂ (SubmitsRow proto tx) (List.range tx.transactionIds.list.length) log

namespace Session

section

variable {sha384 : Bytes → Bytes} {client : Client} {requestTimeout : Option ℚ} {tx : Transaction}

theorem executeOne_eq_ok (settled : Settled tx) {row : Nat} {session after : Session}
    {schedule : Schedule Preparation (Option Int)} {response : TransactionResponse}
    (same : SameRequests (onRow row tx) session.tx)
    (ran : (executeOne proto sha384 client requestTimeout schedule).run session =
      (.ok response, after)) :
    ∃ events, after.log = session.log ++ [events] ∧ SubmitsRow proto tx row events ∧
      SameRequests (onRow ((row + 1) % tx.transactionIds.list.length) tx) after.tx := by
  have here : Settled session.tx := same.settled ⟨settled.frozen, settled.nodes, settled.locked⟩
  rcases executing : ((executableClass proto sha384).execute { client with network := session.network }
    requestTimeout schedule).run (Run.start { client with network := session.network } session.tx)
    with ⟨outcome, run'⟩
  have done := execute_executes here executing
  simp only [executeOne, Method.run] at ran executing
  rw [executing] at ran
  cases ran
  obtain ⟨before, unfinished, ends⟩ := done.ends response rfl
  obtain ⟨node, nodeId, request, time, events, own⟩ := ends.events
  refine ⟨run'.events, rfl, ⟨⟨request, ?_, own.of_same same⟩, fun e member => ?_⟩, ?_⟩
  · rw [events, accepted_ends unfinished]
  · have made := done.own e member
    cases e with
    | sent => exact RequestOf.of_same same made
    | _ => trivial
  · refine SameRequests.trans ?_ ends.request
    have advanced := congrArg SdkList.advance same.ids
    exact ⟨same.mode, advanced, same.nodes, same.bodies, same.fields⟩

theorem awaitReceipt_eq_ok {schedule : ChunksSchedule} {number : Nat} {session after : Session}
    (ran : (awaitReceipt schedule number).run session = (.ok (), after)) :
    after.tx = session.tx ∧ after.log = session.log := by
  rw [awaitReceipt, Method.run_this_bind] at ran
  split at ran
  · rw [Method.run_update_bind] at ran
    cases receipt : schedule.receipt number with
    | error e =>
        rw [receipt] at ran
        cases ran
    | ok _ =>
        rw [receipt] at ran
        cases ran
        exact ⟨rfl, rfl⟩
  · cases ran
    exact ⟨rfl, rfl⟩

/-- The executions that remain are for the rows that remain. -/
theorem executeEach_eq_ok (settled : Settled tx) {schedule : ChunksSchedule} {remaining number : Nat}
    {session after : Session} {responses : List TransactionResponse}
    (rest : number + remaining = tx.transactionIds.list.length)
    (same : SameRequests (onRow number tx) session.tx)
    (ran : (executeEach proto sha384 client schedule remaining number requestTimeout).run session =
      (.ok responses, after)) :
    ∃ log, after.log = session.log ++ log ∧
      List.Forall₂ (SubmitsRow proto tx) (List.range' number remaining) log := by
  induction remaining generalizing number session requestTimeout responses with
  | zero =>
      cases ran
      exact ⟨[], by simp, .nil⟩
  | succ remaining inductionHypothesis =>
      obtain ⟨response, executed, first, ran⟩ := Method.run_bind_eq_ok.mp ran
      obtain ⟨_, awaited, awaiting, ran⟩ := Method.run_bind_eq_ok.mp ran
      obtain ⟨others, last, more, ran⟩ := Method.run_bind_eq_ok.mp ran
      cases ran
      obtain ⟨events, logged, submits, moved⟩ := executeOne_eq_ok settled same first
      obtain ⟨unchanged, kept⟩ := awaitReceipt_eq_ok awaiting
      rw [← unchanged] at moved
      have behind : SameRequests (onRow (number + 1) tx) awaited.tx ∨ remaining = 0 := by
        rcases Nat.eq_zero_or_pos remaining with none | some
        · exact .inr none
        · rw [Nat.mod_eq_of_lt (by omega)] at moved
          exact .inl moved
      rcases behind with next | rfl
      · obtain ⟨log, appended, rows⟩ := inductionHypothesis (by omega) next more
        refine ⟨events :: log, ?_, .cons submits rows⟩
        rw [appended, kept, logged, List.append_assoc]
        rfl
      · cases more
        exact ⟨[events], by rw [kept, logged], .cons submits .nil⟩

theorem freezeOn_eq_ok (frozen : tx.isFrozenOrOnDemand = true) {input : Preparation}
    {session after : Session} (same : SameRequests tx session.tx)
    (ran : (freezeOn proto client input).run session = (.ok (), after)) :
    after.tx = session.tx ∧ after.log = session.log := by
  have skipped (picked : Except JsError (List AccountId)) :=
    @run_freezeForExecution proto client picked input.generated _ (same.frozen frozen)
  simp only [freezeOn, Method.run] at ran skipped
  rw [skipped] at ran
  cases ran
  exact ⟨rfl, rfl⟩

/-- A method of the transaction leaves the log. -/
theorem onTransaction_eq_ok {α : Type} {m : TransactionMethod α} {session after : Session} {a : α}
    (ran : (onTransaction m).run session = (.ok a, after)) :
    m.run session.tx = (.ok a, after.tx) ∧ after.log = session.log := by
  rw [onTransaction, Method.run_zoom, Prod.mk.injEq] at ran
  obtain ⟨returned, rfl⟩ := ran
  exact ⟨Method.run_of_ok returned, rfl⟩

theorem prepareAll_eq_ok (frozen : tx.isFrozenOrOnDemand = true) {schedule : ChunksSchedule}
    {session prepared : Session} (here : session.tx = tx)
    (ran : (prepareAll proto client schedule).run session = (.ok (), prepared)) :
    SameRequests { tx with transactionIds := tx.transactionIds.setLocked } prepared.tx ∧
      prepared.log = session.log := by
  subst here
  rw [prepareAll, Method.run_this_bind] at ran
  obtain ⟨_, checked, checking, freezes⟩ := Method.run_bind_eq_ok.mp ran
  have passed : checked = session := by
    cases checks : checkExecutable session.tx <;> rw [checks] at checking <;> cases checking
    rfl
  rw [passed] at freezes
  obtain ⟨_, ready, freezing, reads⟩ := Method.run_bind_eq_ok.mp freezes
  obtain ⟨unchanged, kept⟩ := freezeOn_eq_ok frozen (.refl _) freezing
  obtain ⟨id, locked, locking, signs⟩ := Method.run_bind_eq_ok.mp reads
  obtain ⟨read, logged⟩ := onTransaction_eq_ok locking
  obtain ⟨_, same⟩ := getTransactionId_eq_ok read
  rw [unchanged] at same
  let fixed : Transaction := { session.tx with transactionIds := session.tx.transactionIds.setLocked }
  have started : SameRequests fixed locked.tx := same ▸ .refl _
  split at signs
  · cases known : client.operator with
    | none =>
      rw [signWithOperator, known] at signs
      cases signs
    | some operator =>
      rw [signWithOperator, known] at signs
      obtain ⟨_, again, refreezing, signing⟩ := Method.run_bind_eq_ok.mp signs
      obtain ⟨unchanged', kept'⟩ := freezeOn_eq_ok (show fixed.isFrozenOrOnDemand = true from frozen) started refreezing
      obtain ⟨signed, logged'⟩ := onTransaction_eq_ok signing
      rw [unchanged'] at signed
      have locks : locked.tx.transactionIds.locked = true := by rw [started.ids]; rfl
      have frames := sameRequests_signWith locks operator.publicKey
        operator.transactionSigner schedule.signing.moment
      rw [signed] at frames
      exact ⟨started.trans frames, by rw [logged', kept', logged, kept]⟩
  · cases signs
    exact ⟨started, by rw [logged, kept]⟩

/-- When all executions of a frozen transaction return, each was for its row. -/
theorem executeAll_eq_ok (frozen : tx.isFrozenOrOnDemand = true) (nodes : tx.nodeAccountIds.list ≠ [])
    (first : tx.transactionIds.index = 0) {schedule : ChunksSchedule} {session after : Session}
    (here : session.tx = tx) {responses : List TransactionResponse}
    (ran : (executeAll proto sha384 client requestTimeout schedule).run session =
      (.ok responses, after)) :
    ∃ log, after.log = session.log ++ log ∧ SubmitsRows proto tx log := by
  obtain ⟨_, prepared, preparing, ran⟩ := Method.run_bind_eq_ok.mp ran
  obtain ⟨same, kept⟩ := prepareAll_eq_ok frozen here preparing
  rw [Method.run_this_bind] at ran
  have count : prepared.tx.transactionIds.length = tx.transactionIds.list.length := by
    rw [same.ids]
    rfl
  rw [count] at ran
  have settled : Settled { tx with transactionIds := tx.transactionIds.setLocked } :=
    ⟨frozen, nodes, rfl⟩
  have start : onRow 0 { tx with transactionIds := tx.transactionIds.setLocked } =
      { tx with transactionIds := tx.transactionIds.setLocked } := by
    simp only [onRow, SdkList.setLocked, ← first]
  obtain ⟨log, logged, rows⟩ := executeEach_eq_ok settled (by rw [Nat.zero_add]; rfl)
    (start ▸ same) ran
  refine ⟨log, kept ▸ logged, ?_⟩
  rw [SubmitsRows, List.range_eq_range']
  exact rows.imp fun _ _ submits => ⟨submits.accepted, submits.own⟩

end

end Session

end HederaSdk.Transaction
