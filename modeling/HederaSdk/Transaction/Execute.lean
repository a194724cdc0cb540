import HederaSdk.Execution.Attempts
import HederaSdk.Transaction.Freezing
import HederaSdk.Transaction.PrefixProto
import HederaSdk.Transaction.Requests

/-!
# Transactions in execution
-/

namespace HederaSdk.Transaction

open Library

variable (proto : Proto)

/-- What preparing a transaction meets. -/
structure Preparation where
  now : ℚ
  draws : Nat → Nat := id
  /-- The check of the ids in the transaction's own data. -/
  checksums : TransactionData → Except JsError Unit := fun _ => .ok ()
  generated : Timestamp := ⟨0, 0⟩
  moment : Nat := 0

/-- The network is asked for nodes by a transaction that is still to be frozen and
has none. -/
def asksForNodes (tx : Transaction) : Bool := !tx.isFrozenOrOnDemand && tx.nodeAccountIds.isEmpty

/-- `_beforeExecute` with the network it asks for nodes. -/
def prepareOn (client : Client) (input : Preparation) : Method JsError (Transaction × Network) Unit :=
  fun (tx, net) =>
    let (picked, net) :=
      if tx.asksForNodes then (Network.getNodeAccountIdsForExecute input.draws input.now).run net
      else (.ok [], net)
    let (outcome, tx) :=
      (beforeExecute proto client picked input.checksums input.generated input.moment).run tx
    (outcome, tx, net)

/-! ## Preparing leaves the settings alone -/

section

variable {proto} {kept : (Nat × Option ℚ × Option ℚ × ℚ) × List String}

/-- The settings and the nodes of the client are the ones given. -/
def HasSettings (kept : (Nat × Option ℚ × Option ℚ × ℚ) × List String) (tx : Transaction) : Prop :=
  (tx.toExecutable.settings, tx.transactionNodeIds) = kept

theorem settings_freezeWith (client : Option Client) (picked : Except JsError (List AccountId))
    (generated : Timestamp) :
    Method.Keeps (HasSettings kept) (freezeWith proto client picked generated) :=
  SurvivesFreezing.freezeWith (.of_untouched fun _ _ same h => (congrArg (fun u => (u.1, u.2.1)) same).trans h) _ _ _

theorem settings_signWith (key : PublicKey) (signer : Signer) (moment : Nat) :
    Method.Keeps (HasSettings kept) (signWith key signer moment) :=
  .bind (.bind .this fun _ => .ite (.pure _) (.throwing _)) fun _ => .bind .this fun _ =>
    .ite (.pure _) (.bind (.update fun _ h => h) fun _ => .ite (.update fun _ h => h)
      (.bind (.update fun _ h => h) fun _ => .bind (.update fun _ h => h) fun _ => .ofExcept _))

theorem settings_freezeAndSign (client : Client) (picked : Except JsError (List AccountId))
    (checksums : TransactionData → Except JsError Unit) (generated : Timestamp) (moment : Nat) :
    Method.Keeps (HasSettings kept) (freezeAndSign proto client picked checksums generated moment) := by
  refine .bind (.bind .this fun _ => .ite (.pure _) (settings_freezeWith _ _ _)) fun _ =>
    .bind (.bind .this fun _ => .ite (.ofExcept _) (.pure _)) fun _ =>
    .bind (.update fun _ h => h) fun _ => .bind .this fun tx => ?_
  cases tx.operator with
  | none => exact .pure _
  | some operator => exact settings_signWith _ _ _

/-- The nodes of the client are noted before anything else is done. -/
theorem settings_beforeExecute (client : Client) (picked : Except JsError (List AccountId))
    (checksums : TransactionData → Except JsError Unit) (generated : Timestamp) (moment : Nat)
    (tx : Transaction) :
    HasSettings (tx.toExecutable.settings, client.nodeTexts)
      ((beforeExecute proto client picked checksums generated moment).run tx).2 := by
  rw [beforeExecute, Method.run_update_bind]
  exact settings_freezeAndSign client picked checksums generated moment _ rfl

variable (proto) in
theorem settings_prepareOn (client : Client) (input : Preparation) (tx : Transaction)
    (net : Network) :
    HasSettings (tx.toExecutable.settings, client.nodeTexts)
      ((prepareOn proto client input).run (tx, net)).2.1 :=
  settings_beforeExecute client _ _ _ _ tx

variable (proto) in
/-- The network is at most asked for nodes. -/
theorem network_prepareOn (client : Client) (input : Preparation) (tx : Transaction)
    (net : Network) :
    ∃ calls, ((prepareOn proto client input).run (tx, net)).2.2 = runAll Network.step net calls := by
  by_cases asks : tx.asksForNodes = true
  · refine ⟨[⟨.getNodeAccountIdsForExecute, input.draws, input.now⟩], ?_⟩
    rw [runAll_cons, runAll_nil, Network.step, Network.NetworkCall.method, Method.run_bind_snd _ _ fun _ _ => rfl]
    simp only [prepareOn, Method.run, asks, if_true]
  · exact ⟨[], by simp [prepareOn, Method.run, asks]⟩

end

/-! ## Making a request leaves the base alone -/

section

variable {proto} {base : Executable}

theorem base_pushAbsent (i : Nat) :
    Method.Keeps (fun tx : Transaction => tx.toExecutable = base) (pushAbsent i) :=
  .bind .this fun _ => .bind (.ofExcept _) fun _ => .update fun _ h => h

theorem base_encodeAt (index : Nat) :
    Method.Keeps (fun tx : Transaction => tx.toExecutable = base) (encodeAt proto index) := by
  refine .bind .this fun tx => ?_
  cases tx.signedTransactions.get index with
  | none => exact .throwing _
  | some signed => exact .update fun _ h => h

theorem base_buildTransaction (index : Nat) :
    Method.Keeps (fun tx : Transaction => tx.toExecutable = base) (buildTransaction proto index) :=
  .bind .this fun _ => .bind (.forEach base_pushAbsent _) fun _ =>
    .bind (.bind .this fun _ => .ite (base_encodeAt _) (.pure _)) fun _ =>
      .bind .this fun _ => .ite (base_encodeAt _) (.pure _)

theorem base_signTransaction (moment : Nat) (tx : Transaction) :
    ((signTransaction proto moment).run tx).2.toExecutable =
      { tx.toExecutable with nodeAccountIds := tx.nodeAccountIds.advance } := by
  rw [signTransaction, Method.run_this_bind, Method.run_update_bind]
  exact Method.Keeps.bind (I := fun tx' : Transaction => tx'.toExecutable = _) (.ofExcept _)
    (fun _ => .pure _) _ rfl

theorem base_makeRequestAsync (moment : Nat) (tx : Transaction) :
    ((makeRequestAsync proto moment).run tx).2.toExecutable =
      if tx.signOnDemand then
        { tx.toExecutable with nodeAccountIds := tx.nodeAccountIds.advance }
      else tx.toExecutable := by
  rw [makeRequestAsync, Method.run_this_bind]
  by_cases onDemand : tx.signOnDemand = true
  · rw [if_pos onDemand, if_pos onDemand, buildTransactionAsync,
      Method.run_bind_snd _ _ fun _ _ => rfl, base_signTransaction]
  · rw [if_neg onDemand, if_neg onDemand]
    refine Method.Keeps.bind (base_buildTransaction _) (fun _ => .bind .this fun tx' => ?_) tx rfl
    cases (tx'.transactions.get tx.requestIndex).join with
    | some request => exact .pure _
    | none => exact .throwing _

theorem base_shouldRetry (precheckCode : Option Int) (generated : Timestamp) :
    Method.Keeps (fun tx : Transaction => tx.toExecutable = base)
      (shouldRetry precheckCode generated) := by
  refine .bind (.ofExcept _) fun status => .bind .this fun tx => ?_
  refine .ite (.pure _) (.ite (.pure _) (.ite (.ite (.pure _) ?_) (.pure _)))
  refine .bind (.update fun tx h => ?_) fun _ => .pure _
  unfold buildNewTransactionIdList
  split <;> exact h

theorem getLogId_keeps (tx : Transaction) : (getLogId.run tx).2 = tx := by
  rw [getLogId, Method.run_this_bind]
  cases tx.transactionIds.current <;> rfl

end

/-- `sha384` hashes the bytes of a request. -/
def executableClass (sha384 : Bytes → Bytes) :
    ExecutableClass Transaction Preparation ProtoTransaction (Option Int) TransactionResponse where
  base := toExecutable
  withBase base tx := { tx with toExecutable := base }
  beforeExecute := prepareOn proto
  getLogId := getLogId
  makeRequest moment _ := makeRequestAsync proto moment
  shouldRetry _ := shouldRetry
  mapStatusError _ := mapStatusError
  mapResponse _ nodeId request := mapResponse sha384 nodeId request
  movesCursor base := base.signOnDemand
  movesCursor_nodeIds _ _ := rfl
  base_withBase _ _ := rfl
  beforeExecute_settings client input tx net :=
    congrArg Prod.fst (settings_prepareOn proto client input tx net)
  getLogId_keeps := getLogId_keeps
  makeRequest_base moment _ := base_makeRequestAsync moment
  shouldRetry_base _ precheckCode generated tx := base_shouldRetry precheckCode generated tx rfl

/-! ## Prepared transactions -/

section Prepared

variable {proto} {sha384 : Bytes → Bytes} {client : Client} {requestTimeout : Option ℚ}
  {schedule : Schedule Preparation (Option Int)} {tx : Transaction}
  {prepared : Run Transaction ProtoTransaction}

/-- A transaction that is ready went through `_beforeExecute`, and what was changed
behind it are the settings. -/
theorem prepared_eq_ok
    (ready : ((executableClass proto sha384).prepare client requestTimeout schedule).run
      (Run.start client tx) = (.ok (), prepared)) :
    ∃ before, (prepareOn proto client schedule.preparation).run
        ({ tx with toExecutable := tx.toExecutable.setTimeout client requestTimeout },
          client.network) = (.ok (), before) ∧
      prepared = {
        request := { before.1 with toExecutable := before.1.toExecutable.takeMinBackoff client }
        network := runAll Network.step before.2 schedule.whilePreparing } := by
  obtain ⟨request, network, first, rest, _⟩ := ExecutableClass.prepare_eq_ok ready
  exact ⟨(request, network), first, rest⟩

theorem network_prepared
    (ready : ((executableClass proto sha384).prepare client requestTimeout schedule).run
      (Run.start client tx) = (.ok (), prepared)) :
    ∃ calls, prepared.network = runAll Network.step client.network calls := by
  obtain ⟨before, first, rfl⟩ := prepared_eq_ok ready
  obtain ⟨calls, network⟩ := network_prepareOn proto client schedule.preparation
    { tx with toExecutable := tx.toExecutable.setTimeout client requestTimeout } client.network
  rw [first] at network
  exact ⟨calls ++ schedule.whilePreparing, by rw [runAll_append, ← network]⟩

theorem nodeIds_prepared
    (ready : ((executableClass proto sha384).prepare client requestTimeout schedule).run
      (Run.start client tx) = (.ok (), prepared)) :
    prepared.request.transactionNodeIds = client.nodeTexts := by
  obtain ⟨before, first, rfl⟩ := prepared_eq_ok ready
  have kept := settings_prepareOn proto client schedule.preparation
    { tx with toExecutable := tx.toExecutable.setTimeout client requestTimeout } client.network
  rw [first] at kept
  exact congrArg Prod.snd kept

end Prepared

section Samples

/-- The map of a network with a node for each account number. -/
def sampleMap (nums : List Nat) : OrderedMap String AccountId :=
  nums.foldl (fun map num => map.set s!"10.0.0.{num}:50211" (.ofNum num)) .empty

def sampleClient (nums : List Nat) : Client where
  network := Network.step (Network.create 0) ⟨.setNetwork (sampleMap nums), id, 0⟩

theorem reachable_sampleClient (nums : List Nat) : (sampleClient nums).network.Reachable :=
  ⟨0, [⟨.setNetwork (sampleMap nums), id, 0⟩], rfl⟩

/-- A transfer for the nodes, before it is frozen. -/
def sampleTransfer (nodes : List Int) : Transaction where
  nodeAccountIds := { list := nodes.map AccountId.ofNum, locked := true }
  transactionIds := { list := [.withValidStart (.ofNum 2) ⟨5, 0⟩], locked := true }
  data := .plain .cryptoTransfer (.object .nil)

def frozenTransfer (nodes : List Int) : Transaction :=
  ((freeze prefixProto ⟨0, 0⟩).run (sampleTransfer nodes)).2

def sampleKey : PublicKey := ⟨.ed25519, List.replicate 32 7, rfl⟩

/-- Only the length of a hash matters here. -/
def sampleClass :
    ExecutableClass Transaction Preparation ProtoTransaction (Option Int) TransactionResponse :=
  executableClass prefixProto fun _ => List.replicate 48 0

/-- Attempts that all meet the same answer; each takes a millisecond. -/
def sampleSchedule (startTime : ℚ) (outcome : Except JsError (Option Int)) :
    Schedule Preparation (Option Int) where
  calledAt := 0
  preparation := { now := 0 }
  startTime
  attempts number :=
    { now := startTime + number, sentAt := startTime + number, outcome, answeredAt := startTime + number }

end Samples

end HederaSdk.Transaction
