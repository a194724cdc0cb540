import HederaSdk.Execution.Budget
import HederaSdk.Execution.Sending
import HederaSdk.Query.Query

/-!
# The payments of a query

While a query is executed, what it pays, who pays and the id that it reports stay as they were
when it was prepared. The payment of an attempt is made of these and of an id of its own.
-/

namespace HederaSdk.Query

open Library Network ExecutableClass

/-! ## Terms -/

/-- What the payments of an execution have in common. -/
structure Terms where
  operator : Option Operator
  isPaymentRequired : Bool
  paymentTransactionId : Option TransactionId
  queryPayment : Option Int

def terms (query : Query) : Terms where
  operator := query.operator
  isPaymentRequired := query.isPaymentRequired
  paymentTransactionId := query.paymentTransactionId
  queryPayment := query.queryPayment

variable {encode : PaymentBody → Bytes} {Resp Out : Type} {subclass : QuerySubclass Resp Out}
  {startTime : ℚ} {delay : Executable → ℚ} {input : Attempt Resp} {t : Terms}
  {run run' : Run Query PaymentTransaction}

/-- The methods of a query leave all but its nodes alone. -/
theorem keeping {J : Query → Prop}
    (nodes : ∀ nodeAccountIds query, J query → J { query with nodeAccountIds }) :
    (executableClass encode subclass).Keeping J where
  setNodeIds := nodes
  makeRequest moment generated query start := by
    rw [show ((executableClass encode subclass).makeRequest moment generated).run query =
      (makeRequestAsync encode moment generated).run query from rfl, makeRequestAsync_keeps]
    exact start
  shouldRetry request response generated query start := by
    rw [show ((executableClass encode subclass).shouldRetry request response generated).run query =
      (shouldRetry (subclass.nodeTransactionPrecheckCode response)).run query from rfl, shouldRetry_keeps]
    exact start
  mapStatusError request response id := by
    refine .bind (.ofExcept _) fun _ => .bind (.bind .this fun query => ?_) fun _ => .pure _
    cases query.paymentTransactionId with
    | none => exact .throwing _
    | some id => exact .pure _
  mapResponse response id request := .ofExcept _

theorem terms_again
    (attempt : (executableClass encode subclass).Attempted startTime delay input run (.ok .again) run')
    (agreed : run.request.terms = t) : run'.request.terms = t := by
  have kept : (executableClass encode subclass).Keeping fun query => query.terms = t :=
    keeping fun _ _ agreed => agreed
  refine attempt.request_again (J := fun query => query.terms = t) (K := fun query => query.terms = t) agreed
    (fun s ids _ => kept.setNodeIds ids s) ?_ (fun s => kept.setNodeIds _ s) (fun _ agreed => agreed) ?_
  · intro query query' request agreed making
    have after := kept.makeRequest input.moment input.generated query agreed
    rwa [making] at after
  · intro query request response _ agreed
    exact kept.shouldRetry request response input.regenerated query agreed

/-- The payment that an attempt makes names the node under the cursor. -/
theorem prepared_payment {id : AccountId} {r : NodeRef} {payment : PaymentTransaction}
    {chosen made : Run Query PaymentTransaction}
    (prepared : (executableClass encode subclass).Prepared startTime input run id r payment chosen made) :
    ∃ amount, run.request.queryPayment = some amount ∧
      makePaymentTransaction encode (.withValidStart run.request.payerId input.generated) id run.request.payer
        amount input.moment = .ok payment := by
  have current : chosen.request.nodeAccountIds.current = some id ∧ chosen.request.terms = run.request.terms := by
    rcases choice_ok prepared.choice with ⟨current, same⟩ | ⟨_, ids, list, index, same⟩
    · rw [same]
      exact ⟨current, rfl⟩
    · rw [same]
      refine ⟨?_, rfl⟩
      change ids.current = some id
      rw [SdkList.current, SdkList.get, list, index]
      rfl
  obtain ⟨current, agreed⟩ := current
  have making : (makeRequestAsync encode input.moment input.generated).run chosen.request =
      (.ok payment, made.request) := (made_of_ok prepared.making).2
  rw [makeRequestAsync, Method.run_this_bind, current] at making
  simp only [terms, Terms.mk.injEq] at agreed
  obtain ⟨operator, required, -, amount⟩ := agreed
  cases set : chosen.request.queryPayment with
  | none =>
      rw [set] at making
      cases making
  | some paid =>
      rw [set] at making
      refine ⟨paid, amount.symm.trans set, ?_⟩
      simp only [payerId, payer, operator, required] at making ⊢
      generalize makePaymentTransaction _ _ _ _ _ _ = result at making ⊢
      cases result with
      | error e => cases congrArg Prod.fst making
      | ok built => exact congrArg Prod.fst making

/-! ## Before the execution -/

/-- A paid query whose payment is known. -/
structure Paid (query : Query) : Prop where
  required : query.isPaymentRequired = true
  operator : query.operator.isSome = true
  payment : query.queryPayment.isSome = true

/-- A paid query that has payments only when it knows what they are. -/
structure Ready (query : Query) : Prop where
  required : query.isPaymentRequired = true
  paid : query.paymentTransactions ≠ [] → query.Paid

theorem Paid.ready {query : Query} (paid : query.Paid) : query.Ready := ⟨paid.required, fun _ => paid⟩

/-- A paid query without payments. -/
structure Fresh (query : Query) : Prop where
  required : query.isPaymentRequired = true
  none : query.paymentTransactions = []

theorem Fresh.ready {query : Query} (fresh : query.Fresh) : query.Ready :=
  ⟨fresh.required, fun some => absurd fresh.none some⟩

theorem triple_generatePaymentTransactionId (client : Client) (generated : Timestamp) :
    Method.Triple Fresh (generatePaymentTransactionId client generated)
      (fun _ query => query.Fresh ∧ query.operator.isSome = true) fun _ => Ready := by
  refine .this fun query fresh => ?_
  rw [if_pos fresh.required]
  refine .bind (M := fun _ query' => query' = { query with transactionNodeIds := client.nodeTexts })
    (.update _ fun _ same => by rw [same]) fun _ => ?_
  cases operator : query.operator with
  | none =>
      refine .throwing _ fun query' same => ?_
      rw [same]
      exact Fresh.ready ⟨fresh.required, fresh.none⟩
  | some account =>
      refine .update _ fun query' same => ?_
      rw [same]
      exact ⟨⟨fresh.required, fresh.none⟩, rfl⟩

/-- A query that is ready to be executed knows what it pays. -/
theorem triple_beforeExecute (client : Client) (picked : Except JsError (List AccountId))
    (input : QueryPreparation) :
    Method.Triple Ready (beforeExecute encode client picked input) (fun _ => Paid) fun _ => Ready := by
  refine .this fun query ready => ?_
  by_cases fresh : query.paymentTransactions.isEmpty = true
  · rw [if_pos fresh]
    have start : query.Fresh := ⟨ready.required, List.isEmpty_iff.mp fresh⟩
    have setNodes : Method.Keeps Fresh (setNodeAccountIdsFrom picked) :=
      .bind .this fun _ => .ite (.bind (.ofExcept _) fun _ => .bind (.ofExcept _) fun _ =>
        .update fun _ fresh => ⟨fresh.required, fresh.none⟩) (.pure _)
    have choose : Method.Keeps (fun query => query.Fresh ∧ query.operator.isSome = true)
        (chooseCost client input.cost) := by
      refine .bind .this fun query => ?_
      cases query.queryPayment with
      | none => exact .ite (.bind (.ofExcept _) fun _ => .ite (.throwing _) (.pure _)) (.pure _)
      | some payment => exact .pure _
    have push (nodeId : AccountId) : Method.Keeps Paid (pushPayment encode input.moment nodeId) := by
      refine .bind .this fun query => ?_
      cases query.paymentTransactionId with
      | none => exact .throwing _
      | some id =>
          cases query.queryPayment with
          | none => exact .throwing _
          | some amount =>
              exact .bind (.ofExcept _) fun _ =>
                .update fun _ paid => ⟨paid.required, paid.operator, paid.payment⟩
    have thrown : ∀ (_ : JsError) (query : Query), query.Fresh → query.Ready := fun _ _ => Fresh.ready
    refine .bind (M := fun _ => Fresh) (.ofExcept _ ?_ ?_) fun _ =>
      .bind (setNodes.triple.weaken (fun _ h => h) (fun _ _ h => h) thrown) fun _ =>
      .bind (M := fun _ => Fresh) (.update _ fun _ fresh => ⟨fresh.required, fresh.none⟩) fun _ =>
      .bind (triple_generatePaymentTransactionId client input.generated) fun _ =>
      .bind (choose.triple.weaken (fun _ h => h) (fun _ _ h => h) fun e query h => thrown e query h.1) fun _ =>
      .bind (M := fun _ => Paid) (.update _ fun _ h => ⟨h.1.required, h.2, rfl⟩) fun _ => .this fun query paid => ?_
    · rintro _ query' - rfl
      exact start
    · rintro _ query' - rfl
      exact ready
    · exact (Method.Keeps.forEach push _).triple.weaken (fun query' same => same ▸ paid) (fun _ _ h => h)
        fun _ _ paid => paid.ready
  · rw [if_neg fresh]
    refine .pure _ fun query' same => ?_
    rw [same]
    exact ready.paid fun none => fresh (List.isEmpty_iff.mpr none)

theorem prepareOn_eq {client : Client} {input : QueryPreparation} {query query' : Query} {net net' : Network}
    {outcome : Except JsError Unit}
    (ran : (prepareOn encode client input).run (query, net) = (outcome, query', net')) :
    ∃ picked, (beforeExecute encode client picked input).run query = (outcome, query') := by
  let asked :=
    if query.asksForNodes client input then
      (Network.getNodeAccountIdsForExecute input.draws input.now).run net
    else (.ok [], net)
  have outcomes : ((prepareOn encode client input).run (query, net)).1 = outcome := congrArg Prod.fst ran
  have queries : ((prepareOn encode client input).run (query, net)).2.1 = query' :=
    congrArg (fun result => result.2.1) ran
  exact ⟨asked.1, Prod.ext outcomes queries⟩

variable (encode) in
/-- The network is at most asked for nodes. -/
theorem network_prepareOn (client : Client) (input : QueryPreparation) (query : Query) (net : Network) :
    ∃ calls, ((prepareOn encode client input).run (query, net)).2.2 = runAll Network.step net calls := by
  by_cases asks : query.asksForNodes client input = true
  · refine ⟨[⟨.getNodeAccountIdsForExecute, input.draws, input.now⟩], ?_⟩
    rw [runAll_cons, runAll_nil, Network.step, Network.NetworkCall.method, Method.run_bind_snd _ _ fun _ _ => rfl]
    simp only [prepareOn, Method.run, asks, if_true]
  · exact ⟨[], by simp [prepareOn, Method.run, asks]⟩

theorem paid_prepareOn {client : Client} {input : QueryPreparation} {query query' : Query} {net net' : Network}
    (ready : query.Ready) (ran : (prepareOn encode client input).run (query, net) = (.ok (), query', net')) :
    query'.Paid := by
  obtain ⟨picked, before⟩ := prepareOn_eq ran
  exact (triple_beforeExecute client picked input).of_ok ready before

theorem ready_prepareOn {client : Client} {input : QueryPreparation} :
    Method.Keeps (fun part : Query × Network => part.1.Ready) (prepareOn encode client input) := by
  rintro ⟨query, net⟩ ready
  rcases ran : (prepareOn encode client input).run (query, net) with ⟨e | _, query', net'⟩
  · obtain ⟨picked, before⟩ := prepareOn_eq ran
    exact (triple_beforeExecute client picked input).of_error ready before
  · exact (paid_prepareOn ready ran).ready

/-! ## What an execution sends -/

/-- A payment as it was agreed: it names the node, moves the query payment from the operator to
the node, and has the id that the query reports, which is the one that was set. -/
structure Agreed (t : Terms) (setId : Option TransactionId) (nodeId : AccountId)
    (payment : PaymentTransaction) : Prop where
  node : payment.body.nodeAccountID = nodeId
  amounts : ∃ operator amount, t.operator = some operator ∧ t.queryPayment = some amount ∧
    payment.body.accountAmounts = [(operator.accountId, -amount), (nodeId, amount)]
  id : t.paymentTransactionId = some payment.body.transactionID
  set : ∀ id, setId = some id → payment.body.transactionID = id

/-- The payment fits the wire, and the id that the attempt draws is the one of the query. -/
def Coincides (t : Terms) (setId : Option TransactionId) (generated : Timestamp) : Prop :=
  ∃ operator amount, t.operator = some operator ∧ t.queryPayment = some amount ∧
    -2 ^ 63 < amount ∧ amount < 2 ^ 63 ∧
    t.paymentTransactionId = some (.withValidStart operator.accountId generated) ∧
    ∀ id, setId = some id → id = .withValidStart operator.accountId generated

theorem toInt64_neg_iff (amount : Int) :
    toInt64 (-amount) = -amount ∧ toInt64 amount = amount ↔ -2 ^ 63 < amount ∧ amount < 2 ^ 63 := by
  simp only [toInt64, Int.bmod_def]
  omega

variable {setId : Option TransactionId}

/-- A payment that is made is as agreed exactly when what it is made of coincides. -/
theorem agreed_iff {query : Query} {nodeId : AccountId} {amount : Int} {generated : Timestamp} {moment : Nat}
    {payment : PaymentTransaction} {operator : Operator} (paid : query.isPaymentRequired = true)
    (byOperator : query.operator = some operator) (set : query.queryPayment = some amount)
    (making : makePaymentTransaction encode (.withValidStart query.payerId generated) nodeId query.payer
      amount moment = .ok payment) :
    Agreed query.terms setId nodeId payment ↔ Coincides query.terms setId generated := by
  have payer : query.payer = some operator := by rw [Query.payer, paid, byOperator]; rfl
  have payerId : query.payerId = operator.accountId := by rw [Query.payerId, byOperator]; rfl
  rw [payer, payerId] at making
  have body : payment.body =
      paymentBody (.withValidStart operator.accountId generated) nodeId operator.accountId amount := by
    obtain ⟨signature, _, rfl⟩ := except_map_eq_ok.mp making
    rfl
  constructor
  · intro agreed
    obtain ⟨operator', amount', same, set', amounts⟩ := agreed.amounts
    cases byOperator.symm.trans same
    cases set.symm.trans set'
    rw [body, paymentBody] at amounts
    simp only [List.cons.injEq, Prod.mk.injEq, true_and, and_true] at amounts
    obtain ⟨low, high⟩ := (toInt64_neg_iff amount).mp amounts
    have id := agreed.id
    rw [body, paymentBody] at id
    refine ⟨operator, amount, byOperator, set, low, high, id, fun given isSet => ?_⟩
    have given' := agreed.set given isSet
    rw [body, paymentBody] at given'
    exact given'.symm
  · rintro ⟨operator', amount', same, set', low, high, id, given⟩
    cases byOperator.symm.trans same
    cases set.symm.trans set'
    obtain ⟨debit, credit⟩ := (toInt64_neg_iff amount).mpr ⟨low, high⟩
    constructor
    · rw [body, paymentBody]
    · refine ⟨operator, amount, byOperator, set, ?_⟩
      rw [body, paymentBody, debit, credit]
    · rw [body]
      exact id
    · intro id isSet
      rw [body]
      exact (given id isSet).symm

/-! ## The attempts -/

section Attempts

variable {isLocalNode : Bool} {schedule : Schedule QueryPreparation Resp} {maxAttempts remaining number : Nat}

/-- An error that names the payment names the one that the query reports. -/
theorem mapStatusError_eq {query : Query} {precheckCode : Option Int} {nodeId nodeId' : AccountId}
    {status : Int} {id : TransactionId}
    (ends : ((mapStatusError precheckCode nodeId).run query).1 = .ok (.precheckStatus status nodeId' id) ∨
      ((mapStatusError precheckCode nodeId).run query).1 = .error (.precheckStatus status nodeId' id)) :
    query.paymentTransactionId = some id := by
  rw [mapStatusError, Transaction.precheckStatus, Status.fromCode] at ends
  cases found : Status.all.find? fun status => status.code = precheckCode.getD 0 with
  | none =>
      rw [found] at ends
      rcases ends with made | made <;> cases made
  | some known =>
      rw [found] at ends
      simp only [Method.run_bind, Method.run_ofExcept_ok, getTransactionId, Method.run_this] at ends
      cases reported : query.paymentTransactionId with
      | none =>
          rw [reported] at ends
          rcases ends with made | made <;> cases made
      | some id' =>
          rw [reported] at ends
          rcases ends with made | made <;> cases made
          rfl

theorem reported_attempt {status : Int} {nodeId : AccountId} {id : TransactionId}
    (attempt : (executableClass encode subclass).Attempted startTime delay input run
      (.error (.precheckStatus status nodeId id)) run')
    (agreed : run.request.terms = t) (before : .classified .error ∉ run.events)
    (rejected : .classified .error ∈ run'.events) : t.paymentTransactionId = some id := by
  cases attempt with
  | timedOut late => exact absurd rejected before
  | unchosen failed =>
      rw [(chose failed).events] at rejected
      exact absurd rejected before
  | unmade choice failed =>
      rw [events_prepareRequest failed, (chose choice).events] at rejected
      exact absurd rejected before
  | @sent nodeId' r payment chosen made _ _ prepared healthy judging =>
      have kept : (executableClass encode subclass).Keeping fun query => query.terms = t :=
        keeping fun _ _ agreed => agreed
      have unclassified : .classified .error ∉
          ((executableClass encode subclass).handed nodeId' r payment input made).events := by
        rw [handed, prepared.events]
        simp [before]
      obtain ⟨response, status', after, answer, verdict, ends⟩ := rejected_judged judging unclassified rejected
      have same := kept.shouldRetry payment response input.regenerated _
        (kept.setNodeIds made.request.nodeAccountIds.advance made.request (kept.made agreed prepared))
      rw [show ((executableClass encode subclass).shouldRetry payment response input.regenerated).run
        ((executableClass encode subclass).setNodeIds made.request.nodeAccountIds.advance made.request) =
          (.ok (status', .error), after) from verdict] at same
      exact (congrArg Terms.paymentTransactionId same).symm.trans (mapStatusError_eq ends)

/-- A rejection reports the id of the terms. -/
theorem reported_retryLoop {outcome : Except JsError Out} (agreed : run.request.terms = t)
    (going : ∀ e ∈ run.events, e.isFinal = false)
    (ran : ((executableClass encode subclass).retryLoop isLocalNode maxAttempts schedule remaining number).run
      run = (outcome, run')) {status : Int} {nodeId : AccountId} {id : TransactionId}
    (threw : outcome = .error (.precheckStatus status nodeId id))
    (rejected : .classified .error ∈ run'.events) : t.paymentTransactionId = some id := by
  refine retryLoop_rule
    (I := fun _ _ run => run.request.terms = t ∧ ∀ e ∈ run.events, e.isFinal = false)
    (Q := fun outcome run' => outcome = .error (.precheckStatus status nodeId id) →
      .classified .error ∈ run'.events → t.paymentTransactionId = some id)
    ?_ ?_ ⟨agreed, going⟩ (allAttempts_true _ _ _) ran threw rejected
  · rintro remaining number run ⟨agreed, going⟩ - outcome run' attempt
    have unclassified : .classified .error ∉ run.events := fun member => by
      have := going _ member
      simp [Event.isFinal] at this
    rcases outcome with e | _ | out
    · rintro same rejected
      cases same
      exact reported_attempt attempt agreed unclassified rejected
    · obtain ⟨more, events, -, verdict⟩ := attempt.events
      refine ⟨terms_again attempt agreed, ?_⟩
      rw [events]
      exact List.forall_mem_append.mpr ⟨going, verdict rfl⟩
    · intro same
      cases same
  · rintro number run e ⟨-, going⟩ - rejected
    have := going _ rejected
    simp [Event.isFinal] at this

end Attempts

/-! ## Executions -/

section Execution

variable (encode) (subclass) (client : Client) (requestTimeout : Option ℚ)
  (schedule : Schedule QueryPreparation Resp) (query : Query) (setId : Option TransactionId)

/-- What the query is when its execution begins to make attempts, or fails to. -/
def prepared : Except JsError Unit × Run Query PaymentTransaction :=
  ((executableClass encode subclass).prepare client requestTimeout schedule).run (Run.start client query)

def executed : Except JsError Out × Run Query PaymentTransaction :=
  ((executableClass encode subclass).execute client requestTimeout schedule).run (Run.start client query)

/-- Every payment that is sent is as agreed, and an error that rejects a request reports the
id of its payment. -/
structure Honored : Prop where
  sent : AllSent (Agreed (prepared encode subclass client requestTimeout schedule query).2.request.terms setId)
    (executed encode subclass client requestTimeout schedule query).2.events
  reported : ∀ before node nodeId payment time status nodeId' id,
    (executed encode subclass client requestTimeout schedule query).2.events =
      before ++ [.sent node nodeId payment time, .classified .error] →
    (executed encode subclass client requestTimeout schedule query).1 =
      .error (.precheckStatus status nodeId' id) →
    payment.body.transactionID = id

/-- Every attempt that gets as far as a healthy node draws the id of the query. -/
structure CoincidesThroughout : Prop where
  attempts : ∀ start, prepared encode subclass client requestTimeout schedule query = (.ok (), start) →
    (executableClass encode subclass).AllAttempts client.isLocalNode schedule
      (fun number run => (executableClass encode subclass).Sends schedule.startTime (schedule.attempts number)
        run fun _ _ => Coincides start.request.terms setId (schedule.attempts number).generated)
      (start.request.maxAttemptsFor client) 1 start

variable {client requestTimeout schedule query setId}

theorem paid_prepared (ready : query.Ready) {start : Run Query PaymentTransaction}
    (ran : prepared encode subclass client requestTimeout schedule query = (.ok (), start)) :
    start.request.Paid := by
  obtain ⟨request, network, before, rfl, -⟩ := prepare_eq_ok ran
  have timed : Query.Ready { query with toExecutable := query.toExecutable.setTimeout client requestTimeout } :=
    ⟨ready.required, fun some => ⟨ready.required, (ready.paid some).operator, (ready.paid some).payment⟩⟩
  have paid := paid_prepareOn timed before
  exact ⟨paid.required, paid.operator, paid.payment⟩

/-- Under the terms of a paid query, what an attempt sends is as agreed exactly when the id that
it draws is the one of the query. -/
theorem sends_agreed_iff {run : Run Query PaymentTransaction} (paid : run.request.Paid) :
    (executableClass encode subclass).Sends startTime input run (Agreed run.request.terms setId) ↔
      (executableClass encode subclass).Sends startTime input run
        fun _ _ => Coincides run.request.terms setId input.generated := by
  obtain ⟨operator, byOperator⟩ := Option.isSome_iff_exists.mp paid.operator
  constructor
  · intro sends id r payment chosen made prepared healthy
    obtain ⟨amount, set, making⟩ := prepared_payment prepared
    exact (agreed_iff paid.required byOperator set making).mp (sends id r payment chosen made prepared healthy)
  · intro sends id r payment chosen made prepared healthy
    obtain ⟨amount, set, making⟩ := prepared_payment prepared
    exact (agreed_iff paid.required byOperator set making).mpr (sends id r payment chosen made prepared healthy)

theorem Paid.of_terms {query query' : Query} (same : query'.terms = query.terms) (paid : query.Paid) :
    query'.Paid := by
  simp only [terms, Terms.mk.injEq] at same
  obtain ⟨operator, required, -, payment⟩ := same
  exact ⟨required.trans paid.required, by rw [operator]; exact paid.operator, by rw [payment]; exact paid.payment⟩

/-- An execution is honored exactly when every attempt of it that sends draws the id of the query. -/
theorem honored_iff (ready : query.Ready) :
    Honored encode subclass client requestTimeout schedule query setId ↔
      CoincidesThroughout encode subclass client requestTimeout schedule query setId := by
  rcases ran : prepared encode subclass client requestTimeout schedule query with ⟨e | _, start⟩
  · have none : start.events = [] := (run_prepare ran).1
    have thrown : executed encode subclass client requestTimeout schedule query = (.error e, start) :=
      Method.run_bind_error ran
    constructor
    · refine fun _ => ⟨fun start' ready => ?_⟩
      cases ran.symm.trans ready
    · intro _
      constructor
      · rw [thrown, none]
        exact allSent_nil
      · intro before node nodeId payment time status nodeId' id events
        rw [thrown, none] at events
        simp at events
  · have paid := paid_prepared encode subclass ready ran
    have none : start.events = [] := (run_prepare ran).1
    have looped := run_execute ran
    rcases ended : executed encode subclass client requestTimeout schedule query with ⟨outcome, after⟩
    have loop := looped.symm.trans ended
    have sent : AllSent (Agreed start.request.terms setId) _ ↔ _ := allSent_retryLoop_iff loop
    rw [none] at sent
    simp only [allSent_nil, true_and] at sent
    have keeps (number : Nat) (run run' : Run Query PaymentTransaction)
        (agreed : run.request.terms = start.request.terms)
        (attempt : (executableClass encode subclass).Attempted schedule.startTime
          (Executable.delayForAttempt client.isLocalNode number) (schedule.attempts number) run (.ok .again) run') :
        run'.request.terms = start.request.terms := terms_again attempt agreed
    have agree (number : Nat) (run : Run Query PaymentTransaction)
        (agreed : run.request.terms = start.request.terms) :
        (executableClass encode subclass).Sends schedule.startTime (schedule.attempts number) run
            (Agreed start.request.terms setId) ↔
          (executableClass encode subclass).Sends schedule.startTime (schedule.attempts number) run
            fun _ _ => Coincides start.request.terms setId (schedule.attempts number).generated := by
      rw [← agreed]
      exact sends_agreed_iff encode subclass (paid.of_terms agreed)
    constructor
    · refine fun honored => ⟨fun start' ready => ?_⟩
      cases ran.symm.trans ready
      have all := honored.sent
      rw [ran, ended] at all
      exact (sent.mp all).imp keeps (fun number run agreed => (agree number run agreed).mp) rfl
    · intro coincides
      have all : AllSent (Agreed start.request.terms setId) after.events :=
        sent.mpr ((coincides.attempts start ran).imp keeps (fun number run agreed => (agree number run agreed).mpr) rfl)
      constructor
      · rw [ran, ended]
        exact all
      · intro before node nodeId payment time status nodeId' id events threw
        rw [ended] at events threw
        have rejected : .classified .error ∈ after.events := by
          rw [events]
          simp
        have reported := reported_retryLoop rfl (by rw [none]; simp) loop threw rejected
        have own := (all node nodeId payment time (by rw [events]; simp)).id
        exact Option.some.inj (own.symm.trans reported)

end Execution

end HederaSdk.Query
