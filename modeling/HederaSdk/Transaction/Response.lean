import HederaSdk.Transaction.Delivery
import HederaSdk.Transaction.Validation

/-!
# What a response says about its request

A response takes the transaction id from the list of ids when the answer is
there, while the request was taken from the signed transactions or built anew
before. The two agree on demand; at once they agree when the signed transactions
were made for the listed ids and no id is replaced behind their back.
-/

namespace HederaSdk.Transaction

open Library Network ExecutableClass
open Js (Value)

variable {proto : Proto}

/-! ## The ids of a body -/

theorem get_transactionID (keys : KeyCodec) (body : TransactionBody) {id : TransactionId}
    (known : body.transactionID = some id) :
    (body.toObject keys).get "transactionID" = id.toProtobuf keys := by
  simp [TransactionBody.toObject, Value.get, Js.Properties.consSome, known]

theorem readIds_encodeBody (faithful : proto.Faithful) {body : TransactionBody} {id : TransactionId}
    {nodeId : AccountId} (known : body.transactionID = some id)
    (node : body.nodeAccountID = some nodeId) :
    readIds proto (proto.encodeBody body) = .ok (id.onWire, nodeId.onWire) := by
  have idSet : (id.toProtobuf proto.keys).isNullish = false := rfl
  have nodeSet : (nodeId.toProtobuf proto.keys).isNullish = false := rfl
  rw [readIds, faithful.body]
  change (if (((body.toObject proto.keys).get "transactionID").isNullish ||
    ((body.toObject proto.keys).get "nodeAccountID").isNullish) = true then _ else _) = _
  rw [get_transactionID _ _ known, get_nodeAccountID _ _ node, idSet, nodeSet, if_neg (by simp),
    TransactionId.fromProtobuf_toProtobuf faithful.keys, AccountId.fromProtobuf_toProtobuf faithful.keys]
  rfl

/-- The signed transaction at a place was made for the ids of its row and column. -/
def ReadsAt (proto : Proto) (tx : Transaction) (p : Nat) (signed : SignedTransaction) : Prop :=
  ∃ id ∈ tx.transactionIds.list[p / tx.nodeAccountIds.length]?,
    ∃ nodeId ∈ tx.nodeAccountIds.list[p % tx.nodeAccountIds.length]?,
      readIds proto signed.bodyBytes = .ok (id.onWire, nodeId.onWire)

instance (tx : Transaction) (p : Nat) (signed : SignedTransaction) :
    Decidable (ReadsAt proto tx p signed) := by
  unfold ReadsAt
  infer_instance

def Aligned (proto : Proto) (tx : Transaction) : Prop :=
  ∀ p < tx.signedTransactions.length,
    ∀ signed ∈ tx.signedTransactions.list[p]?, ReadsAt proto tx p signed

instance (tx : Transaction) : Decidable (Aligned proto tx) := by
  unfold Aligned
  infer_instance

/-- Requests are built anew, or taken from signed transactions that are aligned with the ids. -/
def Tracks (proto : Proto) (tx : Transaction) : Prop := tx.signOnDemand = true ∨ Aligned proto tx

instance (tx : Transaction) : Decidable (Tracks proto tx) := inferInstanceAs (Decidable (_ ∨ _))

/-! ## Responses -/

/-- The ids in the body of a request. -/
def idsOf (proto : Proto) (request : ProtoTransaction) :
    Except JsError (TransactionId × AccountId) := do
  let signed ← proto.decodeSigned request.signedTransactionBytes
  readIds proto signed.bodyBytes

theorem idsOf_wrap (faithful : proto.Faithful) (signed : SignedTransaction) :
    idsOf proto (proto.wrap signed) = readIds proto signed.bodyBytes := by
  rw [idsOf, Proto.wrap, faithful.signed]
  rfl

/-- The response names the ids in the body of the request, and the hash of its bytes. -/
structure Matches (proto : Proto) (sha384 : Bytes → Bytes) (request : ProtoTransaction)
    (response : TransactionResponse) : Prop where
  ids : idsOf proto request = .ok (response.transactionId.onWire, response.nodeId.onWire)
  hash : response.transactionHash = sha384 request.signedTransactionBytes

instance (sha384 : Bytes → Bytes) (request : ProtoTransaction) (response : TransactionResponse) :
    Decidable (Matches proto sha384 request response) :=
  decidable_of_iff (_ ∧ _) ⟨fun h => ⟨h.1, h.2⟩, fun h => ⟨h.ids, h.hash⟩⟩

/-- A response names the id under the cursor, which moves on. -/
theorem mapResponse_eq_ok {sha384 : Bytes → Bytes} {nodeId : AccountId} {request : ProtoTransaction}
    {tx tx' : Transaction} {response : TransactionResponse}
    (mapped : (mapResponse sha384 nodeId request).run tx = (.ok response, tx')) :
    ∃ id, tx.transactionIds.current = some id ∧
      response = ⟨nodeId, sha384 request.signedTransactionBytes, id⟩ ∧
      tx' = { tx with transactionIds := tx.transactionIds.setLocked.advance } := by
  obtain ⟨id, after, read, mapped⟩ := Method.run_bind_eq_ok.mp mapped
  obtain ⟨current, rfl⟩ := getTransactionId_eq_ok read
  rw [Method.run_update_bind] at mapped
  cases mapped
  exact ⟨id, current, rfl, rfl⟩

/-- Accepting an answer changes nothing. -/
theorem shouldRetry_finished {precheckCode : Option Int} {generated : Timestamp}
    {tx tx' : Transaction} {status : Status}
    (accepted : (shouldRetry precheckCode generated).run tx = (.ok (status, .finished), tx')) :
    tx' = tx := by
  obtain ⟨status', same, read, judging⟩ := Method.run_bind_eq_ok.mp accepted
  have unchanged : same = tx := by
    cases known : precheckStatus precheckCode <;> rw [known] at read <;> cases read
    rfl
  rw [unchanged, Method.run_this_bind] at judging
  split at judging
  · cases judging
  · split at judging
    · cases judging
      rfl
    · split at judging
      · split at judging
        · cases judging
        · rw [Method.run_update_bind] at judging
          cases judging
      · cases judging

/-! ## Expired ids -/

/-- An expired id is replaced behind this answer. -/
def renews (outcome : Except JsError (Option Int)) (tx : Transaction) : Bool :=
  match outcome with
  | .error _ => false
  | .ok precheckCode =>
      decide ((precheckStatus precheckCode).toOption = some .TransactionExpired) &&
        !tx.transactionIds.locked && tx.regenerateTransactionId ≠ some false &&
        tx.operatorAccountId.isSome

/-- The transaction is signed on demand, or no id is replaced behind the answer. -/
def KeepsIds (outcome : Except JsError (Option Int)) (tx : Transaction) : Prop :=
  tx.signOnDemand = true ∨ renews outcome tx = false

instance (outcome : Except JsError (Option Int)) (tx : Transaction) :
    Decidable (KeepsIds outcome tx) := inferInstanceAs (Decidable (_ ∨ _))

theorem shouldRetry_of_not_renews {precheckCode : Option Int} {generated : Timestamp}
    {tx : Transaction} (kept : renews (.ok precheckCode) tx = false) :
    ((shouldRetry precheckCode generated).run tx).2 = tx := by
  rw [shouldRetry]
  cases known : precheckStatus precheckCode with
  | error e => rfl
  | ok status =>
      rw [Method.run_bind_ok (Method.run_ofExcept_ok _ _), Method.run_this_bind]
      split
      · rfl
      · split
        · rfl
        · split
          · rename_i expired
            split
            · rfl
            · rename_i unfixed
              have own : tx.operatorAccountId = none := by simp_all [renews, Except.toOption]
              rw [Method.run_update_bind, buildNewTransactionIdList, own]
              cases tx.transactionIds.locked <;> rfl
          · rfl

/-! ## Along the attempts -/

section Attempt

variable {sha384 : Bytes → Bytes} {startTime : ℚ} {delay : Executable → ℚ}
  {input : Attempt (Option Int)} {run run' : Run Transaction ProtoTransaction}

theorem Aligned.of_nodes {tx tx' : Transaction} (aligned : Aligned proto tx)
    (nodes : tx'.nodeAccountIds.list = tx.nodeAccountIds.list)
    (ids : tx'.transactionIds.list = tx.transactionIds.list)
    (signed : tx'.signedTransactions.list = tx.signedTransactions.list) : Aligned proto tx' := by
  simpa only [Aligned, ReadsAt, SdkList.length, nodes, ids, signed] using aligned

/-- Without nodes nothing is signed. -/
theorem Aligned.unsigned {tx : Transaction} (aligned : Aligned proto tx)
    (empty : tx.nodeAccountIds.list = []) : tx.signedTransactions.list = [] := by
  cases signed : tx.signedTransactions.list with
  | nil => rfl
  | cons one rest =>
      obtain ⟨_, _, nodeId, turn, _⟩ := aligned 0 (by simp [SdkList.length, signed]) one
        (by simp [signed])
      simp [empty] at turn

theorem aligned_of_unsigned {tx : Transaction} (unsigned : tx.signedTransactions.list = []) :
    Aligned proto tx := by
  intro p inside
  simp [SdkList.length, unsigned] at inside

theorem Tracks.setNodeIds {tx : Transaction} (tracks : Tracks proto tx) {ids : SdkList AccountId}
    (kept : tx.nodeAccountIds.list = [] ∨ ids.list = tx.nodeAccountIds.list) :
    Tracks proto ((executableClass proto sha384).setNodeIds ids tx) := by
  refine tracks.imp (fun onDemand => onDemand) fun aligned => ?_
  rcases kept with empty | same
  · exact aligned_of_unsigned (aligned.unsigned empty)
  · exact aligned.of_nodes same rfl rfl

theorem tracks_made {tx tx' : Transaction} {moment : Nat} {request : ProtoTransaction}
    (tracks : Tracks proto tx) (made : (makeRequestAsync proto moment).run tx = (.ok request, tx')) :
    Tracks proto tx' := by
  cases mode : tx.signOnDemand with
  | true =>
      obtain ⟨pairs, _, _, rfl⟩ := makeRequestAsync_onDemand mode made
      exact .inl mode
  | false =>
      obtain ⟨signed, _, _, rfl⟩ := makeRequestAsync_immediate mode made
      exact .inr ((tracks.resolve_left (by simp [mode])).of_nodes rfl rfl rfl)

theorem Tracks.again (tracks : Tracks proto run.request) (kept : KeepsIds input.outcome run.request)
    (attempt : (executableClass proto sha384).Attempted startTime delay input run (.ok .again) run') :
    Tracks proto run'.request := by
  refine attempt.request_again (J := fun tx => Tracks proto tx ∧ KeepsIds input.outcome tx)
    ⟨tracks, kept⟩ ?_ ?_ ?_ (fun _ h => h.1) ?_
  · exact fun s ids empty h => ⟨h.1.setNodeIds (.inl empty), h.2⟩
  · intro s s' request h made
    refine ⟨tracks_made h.1 made, ?_⟩
    cases mode : s.signOnDemand with
    | true =>
        obtain ⟨pairs, _, _, rfl⟩ := makeRequestAsync_onDemand mode made
        exact h.2
    | false =>
        obtain ⟨signed, _, _, rfl⟩ := makeRequestAsync_immediate mode made
        exact h.2
  · exact fun s h => ⟨h.1.setNodeIds (.inr rfl), h.2⟩
  · intro s request response answer h
    rcases h.2 with onDemand | same
    · have base := @base_shouldRetry s.toExecutable response input.regenerated s rfl
      exact .inl ((congrArg Executable.signOnDemand base).trans onDemand)
    · rw [answer] at same
      change Tracks proto ((shouldRetry response input.regenerated).run s).2
      rw [shouldRetry_of_not_renews same]
      exact h.1

/-- The id of the node that is chosen is under the cursor. -/
theorem current_chosen {id : AccountId} {r : NodeRef} {chosen : Run Transaction ProtoTransaction}
    (choice : ((executableClass proto sha384).chooseNode input).run run = (.ok (id, r), chosen)) :
    chosen.request.nodeAccountIds.current = some id := by
  rcases choice_ok choice with ⟨current, same⟩ | ⟨_, ids, list, index, same⟩
  · rw [same]
    exact current
  · rw [same]
    change ids.current = some id
    rw [SdkList.current, SdkList.get, list, index]
    rfl

/-- The row and the column of the place that the cursors are at. -/
theorem requestIndex_place {tx : Transaction} {id : AccountId}
    (current : tx.nodeAccountIds.current = some id) :
    tx.requestIndex / tx.nodeAccountIds.length = tx.transactionIds.index ∧
      tx.requestIndex % tx.nodeAccountIds.length = tx.nodeAccountIds.index := by
  have inside : tx.nodeAccountIds.index < tx.nodeAccountIds.length :=
    (List.getElem?_eq_some_iff.mp current).1
  constructor
  · rw [requestIndex, Nat.mul_comm, Nat.mul_add_div (Nat.zero_lt_of_lt inside),
      Nat.div_eq_of_lt inside, Nat.add_zero]
  · rw [requestIndex, Nat.mul_add_mod_self_right, Nat.mod_eq_of_lt inside]

/-- The body of a request that is made names the ids under the cursors. -/
theorem idsOf_made {tx tx' : Transaction} {moment : Nat} {request : ProtoTransaction}
    {id : TransactionId} {nodeId : AccountId} (faithful : proto.Faithful) (tracks : Tracks proto tx)
    (node : tx.nodeAccountIds.current = some nodeId)
    (made : (makeRequestAsync proto moment).run tx = (.ok request, tx'))
    (current : tx'.transactionIds.current = some id) :
    idsOf proto request = .ok (id.onWire, nodeId.onWire) := by
  cases mode : tx.signOnDemand with
  | true =>
      obtain ⟨pairs, _, rfl, rfl⟩ := makeRequestAsync_onDemand mode made
      exact (idsOf_wrap faithful _).trans (readIds_encodeBody faithful current node)
  | false =>
      obtain ⟨signed, found, rfl, rfl⟩ := makeRequestAsync_immediate mode made
      have aligned := tracks.resolve_left (by simp [mode])
      have inside := (List.getElem?_eq_some_iff.mp found).1
      obtain ⟨id', row, nodeId', column, read⟩ := aligned _ inside signed found
      obtain ⟨rowIs, columnIs⟩ := requestIndex_place node
      rw [rowIs] at row
      rw [columnIs] at column
      obtain rfl := Option.some.inj (current.symm.trans row)
      obtain rfl := Option.some.inj (node.symm.trans column)
      exact (idsOf_wrap faithful _).trans read

/-- The response of an attempt names what its request says. -/
theorem matches_finished (faithful : proto.Faithful) (tracks : Tracks proto run.request)
    {response : TransactionResponse}
    (attempt : (executableClass proto sha384).Attempted startTime delay input run
      (.ok (.finished response)) run') :
    ∃ node request time,
      run'.events = run.events ++
        [.sent node response.nodeId request time, .classified .finished] ∧
      Matches proto sha384 request response := by
  cases attempt with
  | @sent id r request chosen made _ _ prepared healthy judging =>
      obtain ⟨precheckCode, status, accepted, final, _, verdict, mapping, events, _⟩ :=
        finished_judged judging
      have unchanged := shouldRetry_finished verdict
      obtain ⟨transactionId, current, rfl, _⟩ := mapResponse_eq_ok mapping
      have making := (made_of_ok prepared.making).2
      have known := request_chosen (J := Tracks proto) prepared.choice tracks
        fun s ids empty tracks => tracks.setNodeIds (.inl empty)
      rw [unchanged] at current
      have read := idsOf_made faithful known (current_chosen prepared.choice)
        making current
      refine ⟨made.network.heap r, request, input.sentAt, ?_, read, rfl⟩
      rw [events, handed, prepared.events, List.append_assoc]
      rfl

end Attempt

/-! ## The execution -/

section Execute

variable {sha384 : Bytes → Bytes} {client : Client} {requestTimeout : Option ℚ}
  {schedule : Schedule Preparation (Option Int)} {tx : Transaction}

/-- No attempt replaces an expired id that signed transactions were made for. -/
structure NeverRenews (proto : Proto) (sha384 : Bytes → Bytes) (client : Client)
    (requestTimeout : Option ℚ) (schedule : Schedule Preparation (Option Int)) (tx : Transaction) :
    Prop where
  attempts : (executableClass proto sha384).AllAttempts client.isLocalNode schedule
    (fun number run => KeepsIds (schedule.attempts number).outcome run.request)
    ((preparedRun proto sha384 client requestTimeout schedule tx).request.maxAttemptsFor client) 1
    (preparedRun proto sha384 client requestTimeout schedule tx)

instance (sha384 : Bytes → Bytes) (client : Client) (requestTimeout : Option ℚ)
    (schedule : Schedule Preparation (Option Int)) (tx : Transaction) :
    Decidable (NeverRenews proto sha384 client requestTimeout schedule tx) :=
  decidable_of_iff _ ⟨NeverRenews.mk, NeverRenews.attempts⟩

/-- An execution that returns has handed out a last request, which was accepted, and
the response matches it. -/
theorem execute_matches (faithful : proto.Faithful)
    (tracks : Tracks proto (preparedRun proto sha384 client requestTimeout schedule tx).request)
    (kept : NeverRenews proto sha384 client requestTimeout schedule tx)
    {response : TransactionResponse} {run' : Run Transaction ProtoTransaction}
    (returned : ((executableClass proto sha384).execute client requestTimeout schedule).run
      (Run.start client tx) = (.ok response, run')) :
    ∃ before node request time,
      run'.events = before ++ [.sent node response.nodeId request time, .classified .finished] ∧
      Matches proto sha384 request response := by
  rcases preparing : ((executableClass proto sha384).prepare client requestTimeout schedule).run
    (Run.start client tx) with ⟨e | _, prepared⟩
  · rw [ExecutableClass.execute, Method.run_bind_error preparing] at returned
    cases returned
  · have kept := kept.attempts
    rw [preparedRun, preparing] at tracks kept
    rw [run_execute preparing] at returned
    let Answered (outcome : Except JsError TransactionResponse)
        (run' : Run Transaction ProtoTransaction) : Prop :=
      ∀ response, outcome = .ok response → ∃ before node request time,
        run'.events = before ++ [.sent node response.nodeId request time, .classified .finished] ∧
        Matches proto sha384 request response
    have answered := retryLoop_rule (I := fun _ _ run => Tracks proto run.request) (Q := Answered)
      ?_ ?_ tracks kept returned
    · exact answered response rfl
    · intro remaining number run tracks kept outcome run' attempt
      rcases outcome with e | _ | out
      · intro response same
        cases same
      · exact tracks.again kept attempt
      · intro response same
        cases same
        obtain ⟨node, request, time, events, matching⟩ := matches_finished faithful tracks attempt
        exact ⟨run.events, node, request, time, events, matching⟩
    · intro number run e _ response same
      cases same

end Execute

section Samples

theorem accepted_transfer_matches :
    ∃ response run', (sampleClass.execute (sampleClient [3, 4]) none
      (sampleSchedule 0 (.ok (some 0)))).run (Run.start (sampleClient [3, 4]) (onceFrozen [3, 4])) =
        (.ok response, run') ∧
      ∃ before node request time,
        run'.events = before ++ [.sent node response.nodeId request time, .classified .finished] ∧
        Matches prefixProto (fun _ => List.replicate 48 0) request response := by
  obtain ⟨response, returned, _⟩ := exists_ok ((sampleClass.execute (sampleClient [3, 4]) none
    (sampleSchedule 0 (.ok (some 0)))).run (Run.start (sampleClient [3, 4]) (onceFrozen [3, 4]))).1
    (fun _ => true) (by decide +kernel)
  have tracks : Tracks prefixProto (preparedRun prefixProto (fun _ => List.replicate 48 0)
    (sampleClient [3, 4]) none (sampleSchedule 0 (.ok (some 0))) (onceFrozen [3, 4])).request := by
    decide +kernel
  have kept : NeverRenews prefixProto (fun _ => List.replicate 48 0) (sampleClient [3, 4]) none
    (sampleSchedule 0 (.ok (some 0))) (onceFrozen [3, 4]) := by decide +kernel
  have ran := Method.run_of_ok returned
  refine ⟨response, _, ran, ?_⟩
  rw [sampleClass] at ran
  exact execute_matches prefixProto_faithful tracks kept ran

/-- A client whose operator pays for the transfers. -/
def operatorClient : Client :=
  { sampleClient [3] with
    operator := some ⟨.ofNum 2, sampleKey, fun _ message => .ok (message.take 64)⟩ }

/-- A transfer that the operator has signed before it was stored. -/
def operatorSignedBytes : Bytes :=
  prefixProto.encodeList [prefixProto.wrap {
    bodyBytes := prefixProto.encodeBody (sampleBody 3 "pay")
    sigMap := some [sampleKey.toProtobufSignature (List.replicate 64 1)] }]

/-- The id has expired at the first attempt. -/
def expiringSchedule : Schedule Preparation (Option Int) :=
  { sampleSchedule 0 (.ok (some 0)) with
    attempts := fun number =>
      { now := number, sentAt := number, answeredAt := number, regenerated := ⟨9, 0⟩
        outcome := .ok (some (if number = 1 then 4 else 0)) } }

/-- Every request of the run differs from the response, when there is one. -/
def mismatched (result : Except JsError TransactionResponse × Run Transaction ProtoTransaction) :
    Bool :=
  match result.1 with
  | .error _ => false
  | .ok response => result.2.events.all fun
      | .sent _ _ request _ =>
          !decide (Matches prefixProto (fun _ => List.replicate 48 0) request response)
      | _ => true

/-- A stored transfer that the operator has signed is not signed again, so its id is
not locked and is replaced when it expires; the request still carries the old one. -/
theorem replaced_id_is_not_in_the_body :
    ∃ tx, fromBytes prefixProto wholeMessage operatorSignedBytes = .ok tx ∧
      ∃ response run', (sampleClass.execute operatorClient none expiringSchedule).run
        (Run.start operatorClient tx) = (.ok response, run') ∧
      ¬ ∃ before node request time,
        run'.events = before ++ [.sent node response.nodeId request time, .classified .finished] ∧
        Matches prefixProto (fun _ => List.replicate 48 0) request response := by
  obtain ⟨tx, loaded, failed⟩ := exists_ok (fromBytes prefixProto wholeMessage operatorSignedBytes)
    (fun tx => mismatched ((sampleClass.execute operatorClient none expiringSchedule).run
      (Run.start operatorClient tx))) (by decide +kernel)
  refine ⟨tx, loaded, ?_⟩
  generalize (sampleClass.execute operatorClient none expiringSchedule).run
    (Run.start operatorClient tx) = result at failed ⊢
  obtain ⟨e | response, run'⟩ := result
  · cases failed
  · refine ⟨response, run', rfl, ?_⟩
    rintro ⟨before, node, request, time, events, matching⟩
    have sent : .sent node response.nodeId request time ∈ run'.events := by simp [events]
    have differs := List.all_eq_true.mp failed _ sent
    rw [Bool.not_eq_true'] at differs
    exact of_decide_eq_false differs matching

end Samples

end HederaSdk.Transaction
