import HederaSdk.Execution.RoundRobin
import HederaSdk.Transaction.Building
import HederaSdk.Transaction.Operations

/-!
# The node in the body and the node that is called

The body of a request is picked by the two cursors, the node that is called is
looked up by the id under the cursor of the node ids. The two fit as long as the
network files a node under this id: a lookup that finds none hands out another
node.
-/

namespace HederaSdk.Transaction

open Library Network ExecutableClass
open Js (Value)

variable {proto : Proto}

/-! ## The node of a body -/

/-- The node id in the body of a request. -/
def nodeOf (proto : Proto) (request : ProtoTransaction) : Except JsError AccountId := do
  let signed ← proto.decodeSigned request.signedTransactionBytes
  let body ← proto.decodeBody signed.bodyBytes
  (AccountId.fromProtobuf proto.keys (body.get "nodeAccountID")).mapError JsError.error

/-- The request carries a body for the node. -/
def CarriesFor (proto : Proto) (request : ProtoTransaction) (nodeText : String) : Prop :=
  (nodeOf proto request).toOption.map AccountId.toString = some nodeText

theorem get_nodeAccountID (keys : KeyCodec) (body : TransactionBody) {nodeId : AccountId}
    (node : body.nodeAccountID = some nodeId) :
    (body.toObject keys).get "nodeAccountID" = nodeId.toProtobuf keys := by
  cases id : body.transactionID <;>
    simp [TransactionBody.toObject, Value.get, Js.Properties.consSome, id, node]

theorem carriesFor_wrap (faithful : proto.Faithful) {signed : SignedTransaction} {nodeId : AccountId}
    (made : MadeFor proto nodeId signed) : CarriesFor proto (proto.wrap signed) nodeId.toString := by
  obtain ⟨body, node, encoded⟩ := made
  have read : nodeOf proto (proto.wrap signed) = .ok nodeId.onWire := by
    rw [nodeOf, Proto.wrap, faithful.signed]
    change (proto.decodeBody signed.bodyBytes >>= _) = _
    rw [encoded, faithful.body]
    change (AccountId.fromProtobuf proto.keys
      ((body.toObject proto.keys).get "nodeAccountID")).mapError _ = _
    rw [get_nodeAccountID _ _ node, AccountId.fromProtobuf_toProtobuf faithful.keys]
    rfl
  rw [CarriesFor, read, ← nodeId.toString_onWire]
  rfl

/-- A request was handed to the node its body is for. -/
def IsDelivered (proto : Proto) : Event ProtoTransaction → Prop
  | .sent node _ request _ => CarriesFor proto request node.accountId.toString
  | _ => True

def Delivered (proto : Proto) (events : List (Event ProtoTransaction)) : Prop :=
  ∀ e ∈ events, IsDelivered proto e

instance (e : Event ProtoTransaction) : Decidable (IsDelivered proto e) := by
  unfold IsDelivered CarriesFor
  split <;> infer_instance

instance (events : List (Event ProtoTransaction)) : Decidable (Delivered proto events) :=
  inferInstanceAs (Decidable (∀ e ∈ events, _))

theorem isDelivered_of_isAnswer {e : Event ProtoTransaction} (answer : e.isAnswer = true) :
    IsDelivered proto e := by
  cases e with
  | sent => simp [Event.isAnswer] at answer
  | _ => trivial

/-! ## Along the attempts -/

/-- What an execution keeps of a transaction that was signed at once. -/
structure Ready (proto : Proto) (tx : Transaction) : Prop where
  grid : Grid proto tx
  immediate : tx.signOnDemand = false

section Attempt

variable {sha384 : Bytes → Bytes} {startTime : ℚ} {delay : Executable → ℚ}
  {input : Attempt (Option Int)} {run run' : Run Transaction ProtoTransaction}

/-- Without nodes there are no signed transactions. -/
theorem Ready.unsigned {tx : Transaction} (ready : Ready proto tx)
    (empty : tx.nodeAccountIds.list = []) : tx.signedTransactions.list = [] := by
  have grid := ready.grid
  rw [Grid, empty] at grid
  exact grid.eq_nil

theorem Ready.setNodeIds {tx : Transaction} (ready : Ready proto tx) {ids : SdkList AccountId}
    (kept : tx.nodeAccountIds.list = [] ∨ ids.list = tx.nodeAccountIds.list) :
    Ready proto ((executableClass proto sha384).setNodeIds ids tx) := by
  refine ⟨?_, ready.immediate⟩
  rcases kept with empty | same
  · change Rows proto ids.list tx.signedTransactions.list
    rw [ready.unsigned empty]
    exact rows_nil
  · exact ready.grid.congr same rfl

theorem ready_made {tx tx' : Transaction} {moment : Nat} {request : ProtoTransaction}
    (ready : Ready proto tx) (made : (makeRequestAsync proto moment).run tx = (.ok request, tx')) :
    Ready proto tx' := by
  obtain ⟨signed, _, _, rfl⟩ := makeRequestAsync_immediate ready.immediate made
  exact ⟨ready.grid, ready.immediate⟩

theorem ready_shouldRetry (precheckCode : Option Int) (generated : Timestamp) :
    Method.Keeps (Ready proto) (shouldRetry precheckCode generated) := by
  refine .bind (.ofExcept _) fun status => .bind .this fun tx => ?_
  refine .ite (.pure _) (.ite (.pure _) (.ite (.ite (.pure _) ?_) (.pure _)))
  refine .bind (.update fun tx ready => ?_) fun _ => .pure _
  unfold buildNewTransactionIdList
  split <;> exact ⟨ready.grid, ready.immediate⟩

theorem Ready.again (ready : Ready proto run.request)
    (attempt : (executableClass proto sha384).Attempted startTime delay input run (.ok .again) run') :
    Ready proto run'.request :=
  attempt.request_again ready (fun _ _ empty ready => ready.setNodeIds (.inl empty))
    (fun _ _ _ ready made => ready_made ready made) (fun _ ready => ready.setNodeIds (.inr rfl))
    (fun _ ready => ready)
    fun s _ response _ ready => ready_shouldRetry response input.regenerated s ready

/-- The request is the signed transaction whose turn it is for the id under the cursor. -/
theorem Ready.carriesFor {tx tx' : Transaction} {moment : Nat} {request : ProtoTransaction}
    {id : AccountId} (faithful : proto.Faithful) (ready : Ready proto tx)
    (current : tx.nodeAccountIds.current = some id)
    (made : (makeRequestAsync proto moment).run tx = (.ok request, tx')) :
    CarriesFor proto request id.toString := by
  obtain ⟨signed, found, rfl, _⟩ := makeRequestAsync_immediate ready.immediate made
  obtain ⟨nodeId, turn, madeFor⟩ := ready.grid _ signed found
  have inside : tx.nodeAccountIds.index < tx.nodeAccountIds.list.length :=
    (List.getElem?_eq_some_iff.mp current).1
  have column : tx.requestIndex % tx.nodeAccountIds.list.length = tx.nodeAccountIds.index := by
    rw [requestIndex, SdkList.length, Nat.mul_add_mod_self_right, Nat.mod_eq_of_lt inside]
  rw [column] at turn
  obtain rfl := Option.some.inj (turn.symm.trans current)
  exact carriesFor_wrap faithful madeFor

/-- The network files a node under the id whose turn it is. -/
def Files (run : Run Transaction ProtoTransaction) : Prop :=
  ∀ id ∈ run.request.nodeAccountIds.current,
    run.request.isForeign id = false → run.network.network.bucket id.toString ≠ []

instance (run : Run Transaction ProtoTransaction) : Decidable (Files run) := by
  unfold Files
  infer_instance

theorem delivered_attempt (faithful : proto.Faithful) (ready : Ready proto run.request)
    (keyed : Keyed main run.network) (files : Files run) (delivered : Delivered proto run.events)
    {outcome : Except JsError (Step TransactionResponse)}
    (attempt : (executableClass proto sha384).Attempted startTime delay input run outcome run') :
    Delivered proto run'.events := by
  obtain ⟨more, events, tail, _⟩ := attempt.events
  rw [events]
  refine List.forall_mem_append.mpr ⟨delivered, ?_⟩
  cases tail with
  | nothing => simp
  | gaveUp => simp [IsDelivered]
  | @sent id r request chosen made answers prepared healthy answered =>
      refine List.forall_mem_cons.mpr ⟨?_, fun e member =>
        isDelivered_of_isAnswer (answered e member)⟩
      rcases choice_ok prepared.choice with ⟨current, same⟩ | ⟨empty, ids, _, _, same⟩
      · obtain ⟨_, here⟩ := prepared.at current
        have carries := ready.carriesFor faithful current here.made
        have key := here.keyOf_node keyed (files id current here.known)
        rw [← key] at carries
        exact carries
      · obtain ⟨signed, found, _⟩ := makeRequestAsync_immediate
          (by rw [same]; exact ready.immediate) (made_of_ok prepared.making).2
        have none : chosen.request.signedTransactions.list = [] := by
          rw [same]
          exact ready.unsigned empty
        rw [SdkList.get, none] at found
        simp at found

end Attempt

/-! ## The execution -/

section Execute

variable {sha384 : Bytes → Bytes} {client : Client} {requestTimeout : Option ℚ}
  {schedule : Schedule Preparation (Option Int)}

theorem keeps_validateOwnChecksums {I : Transaction → Prop} (client : Client)
    (checksums : TransactionData → Except JsError Unit) :
    Method.Keeps I (validateOwnChecksums client checksums) :=
  .bind .this fun _ => .ite (.ofExcept _) (.pure _)

theorem grid_freezeAndSign (client : Client) (picked : Except JsError (List AccountId))
    (checksums : TransactionData → Except JsError Unit) (generated : Timestamp) (moment : Nat) :
    Method.Keeps (Grid proto) (freezeAndSign proto client picked checksums generated moment) := by
  refine .bind (.bind .this fun _ => .ite (.pure _) (grid_freezeWith _ _ _)) fun _ =>
    .bind (keeps_validateOwnChecksums client checksums) fun _ =>
    .bind (.update fun _ grid => grid) fun _ => .bind .this fun tx => ?_
  cases tx.operator with
  | none => exact .pure _
  | some operator => exact grid_signWith _ _ _

theorem grid_prepareOn (client : Client) (input : Preparation) (tx : Transaction) (net : Network)
    (grid : Grid proto tx) : Grid proto ((prepareOn proto client input).run (tx, net)).2.1 := by
  change Grid proto ((beforeExecute proto client _ _ _ _).run tx).2
  rw [beforeExecute, Method.run_update_bind]
  exact grid_freezeAndSign client _ _ _ _ _ grid

theorem signOnDemand_signWith {mode : Bool} (key : PublicKey) (signer : Signer) (moment : Nat) :
    Method.Keeps (fun tx : Transaction => tx.signOnDemand = mode) (signWith key signer moment) :=
  .bind (.bind .this fun _ => .ite (.pure _) (.throwing _)) fun _ => .bind .this fun _ =>
    .ite (.pure _) (.bind (.update fun _ h => h) fun _ => .ite (.update fun _ h => h)
      (.bind (.update fun _ h => h) fun _ => .bind (.update fun _ h => h) fun _ => .ofExcept _))

/-- A frozen transaction is not frozen again before its execution. -/
theorem run_freezeForExecution (client : Client) (picked : Except JsError (List AccountId))
    (generated : Timestamp) {tx : Transaction} (frozen : tx.isFrozenOrOnDemand = true) :
    (freezeForExecution proto client picked generated).run tx = (.ok (), tx) := by
  rw [freezeForExecution, Method.run_this_bind, if_pos frozen, Method.run_pure]

variable (proto) in
theorem signOnDemand_prepareOn (client : Client) (input : Preparation) (tx : Transaction)
    (net : Network) (frozen : tx.isFrozenOrOnDemand = true) :
    ((prepareOn proto client input).run (tx, net)).2.1.signOnDemand = tx.signOnDemand := by
  change ((beforeExecute proto client _ _ _ _).run tx).2.signOnDemand = _
  rw [beforeExecute, Method.run_update_bind, freezeAndSign,
    Method.run_bind_ok (run_freezeForExecution client _ _ (by exact frozen))]
  have keeps : Method.Keeps (fun tx' : Transaction => tx'.signOnDemand = tx.signOnDemand) (do
      validateOwnChecksums client input.checksums
      Method.update (takeOperator client)
      signWithOwnOperator input.moment) := by
    refine .bind (keeps_validateOwnChecksums client _) fun _ => .bind (.update fun _ h => h) fun _ =>
      .bind .this fun tx => ?_
    cases tx.operator with
    | none => exact .pure _
    | some operator => exact signOnDemand_signWith _ _ _
  exact keeps _ rfl

theorem ready_prepared {tx : Transaction} (frozen : tx.isFrozen = true) (ready : Ready proto tx)
    {prepared : Run Transaction ProtoTransaction}
    (done : ((executableClass proto sha384).prepare client requestTimeout schedule).run
      (Run.start client tx) = (.ok (), prepared)) : Ready proto prepared.request := by
  obtain ⟨before, ran, rfl⟩ := prepared_eq_ok done
  have grid := grid_prepareOn client schedule.preparation
    { tx with toExecutable := tx.toExecutable.setTimeout client requestTimeout } client.network
    ready.grid
  have mode := signOnDemand_prepareOn proto client schedule.preparation
    { tx with toExecutable := tx.toExecutable.setTimeout client requestTimeout } client.network
    (by rw [isFrozenOrOnDemand, Bool.or_eq_true]; exact .inr frozen)
  rw [ran] at grid mode
  exact ⟨grid, mode.trans ready.immediate⟩

/-- The run that the loop starts in. -/
def preparedRun (proto : Proto) (sha384 : Bytes → Bytes) (client : Client)
    (requestTimeout : Option ℚ) (schedule : Schedule Preparation (Option Int)) (tx : Transaction) :
    Run Transaction ProtoTransaction :=
  (((executableClass proto sha384).prepare client requestTimeout schedule).run
    (Run.start client tx)).2

/-- Every attempt finds a node filed under the id under the cursor. -/
structure AllFiled (proto : Proto) (sha384 : Bytes → Bytes) (client : Client)
    (requestTimeout : Option ℚ) (schedule : Schedule Preparation (Option Int)) (tx : Transaction) :
    Prop where
  attempts : (executableClass proto sha384).AllAttempts client.isLocalNode schedule
    (fun _ run => Files run)
    ((preparedRun proto sha384 client requestTimeout schedule tx).request.maxAttemptsFor client) 1
    (preparedRun proto sha384 client requestTimeout schedule tx)

instance (sha384 : Bytes → Bytes) (client : Client) (requestTimeout : Option ℚ)
    (schedule : Schedule Preparation (Option Int)) (tx : Transaction) :
    Decidable (AllFiled proto sha384 client requestTimeout schedule tx) :=
  decidable_of_iff _ ⟨AllFiled.mk, AllFiled.attempts⟩

end Execute

section Samples

/-- A transfer that was frozen and nothing else. -/
def onceFrozen (nodes : List Int) : Transaction :=
  runAll (step prefixProto) (sampleTransfer nodes) [.freezeWith none (.ok []) ⟨0, 0⟩]

theorem built_onceFrozen (nodes : List Int) : Built prefixProto (onceFrozen nodes) := 
  ⟨sampleTransfer nodes, [.freezeWith none (.ok []) ⟨0, 0⟩], ⟨rfl, rfl, rfl, rfl, rfl, rfl⟩,
    by rw [onceFrozen]⟩

/-- Node 0.0.3 was unhealthy while its network was set again. -/
def unfilingCalls : List NetworkCall :=
  [⟨.setNetwork (sampleMap [3, 4]), id, 0⟩, ⟨.increaseBackoff 0, id, 0⟩,
    ⟨.setNetwork (sampleMap [3, 4]), id, 1⟩]

def unfiledClient : Client where
  network := runAll Network.step (Network.create 0) unfilingCalls

theorem reachable_unfiledClient : Reachable unfiledClient.network := by
  simp only [unfiledClient]
  exact ⟨0, unfilingCalls, rfl⟩

end Samples

end HederaSdk.Transaction
