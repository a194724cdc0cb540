import HederaSdk.Query.Session

/-!
# The limit of what a query pays

The network is asked for a quote once. What it asks for, with a margin, is compared with the
maximum by the low 32 bits of both and then kept; what is kept is never compared again.
-/

namespace HederaSdk

open Library Network ExecutableClass

def JsError.isExceeded : JsError → Bool
  | .maxQueryPaymentExceeded _ _ => true
  | _ => false

namespace Network

/-- Asking for nodes fails for other reasons. -/
theorem throws_getNodeAccountIdsForExecute (ω : Nat → Nat) (now : ℚ) :
    Method.Throws (fun e : JsError => e.isExceeded = false) (getNodeAccountIdsForExecute ω now) := by
  have close (i : Nat) : Method.Throws (fun e : JsError => e.isExceeded = false) (closeNode main i) := by
    refine .bind .this fun net => ?_
    cases net.nodes[i]? with
    | none => exact .throwing rfl
    | some r =>
        have remove : Method.Throws (fun e : JsError => e.isExceeded = false) (removeNodeFromNetwork main r) := by
          refine .bind .this fun net => ?_
          dsimp only
          cases net.network.get? (main.getKey (net.heap r)) with
          | none => exact .throwing rfl
          | some bucket => exact .update _
        exact .bind (.update _) fun _ => .bind remove fun _ => .update _
  exact .bind .this fun _ => .bind
    (.bind (.bind .this fun _ => .ite (.forEach close _) (.pure _)) fun _ =>
      .bind (.update _) fun _ => .bind .this fun _ => .pure _) fun _ => .bind .this fun _ => .pure _

end Network

namespace Query

section Preparation

variable {encode : PaymentBody → Bytes} {client : Client} {picked : Except JsError (List AccountId)}
  {input : QueryPreparation} {query query' : Query} {outcome : Except JsError Unit}

/-! ## Before the execution -/

/-- What `_beforeExecute` does before it looks at the cost. -/
def untilCost (client : Client) (picked : Except JsError (List AccountId)) (input : QueryPreparation) :
    QueryMethod Unit := do
  Method.ofExcept (if client.autoValidateChecksums then input.checksums else .ok ())
  setNodeAccountIdsFrom picked
  Method.update fun query => { query with operator := query.operator.or client.operator }
  generatePaymentTransactionId client input.generated

/-- What it does once the cost is known. -/
def pay (encode : PaymentBody → Bytes) (moment : Nat → Nat) (cost : Int) : QueryMethod Unit := do
  Method.update fun query =>
    { query with queryPayment := some cost, nodeAccountIds := query.nodeAccountIds.setLocked }
  let query ← Method.this
  Method.forEach (pushPayment encode moment) query.nodeAccountIds.list

theorem run_beforeExecute_of_fresh (fresh : query.paymentTransactions = []) :
    (beforeExecute encode client picked input).run query =
      (untilCost client picked input >>= fun _ => chooseCost client input.cost >>= pay encode input.moment).run
        query := by
  rw [beforeExecute, Method.run_this_bind, fresh, if_pos (by rfl), untilCost]
  simp only [Method.bind_assoc]
  rfl

/-- The maximum as the comparison reads it is below the cost as the comparison reads it. -/
def ReadsBelow (maximum cost : Int) : Prop := toInt32 (toInt64 maximum) < toInt32 (toInt64 cost)

instance (maximum cost : Int) : Decidable (ReadsBelow maximum cost) :=
  inferInstanceAs (Decidable (toInt32 (toInt64 maximum) < toInt32 (toInt64 cost)))

/-- What untilCost leaves alone. -/
def pricing (query : Query) : Bool × List PaymentTransaction × Option Int × Option Int :=
  (query.isPaymentRequired, query.paymentTransactions, query.queryPayment, query.maxQueryPayment)

theorem pricing_untilCost (ran : (untilCost client picked input).run query = (outcome, query')) :
    query'.pricing = query.pricing := by
  have kept : Method.Keeps (fun query' : Query => query'.pricing = query.pricing)
      (untilCost client picked input) := by
    refine .bind (.ofExcept _) fun _ => .bind ?_ fun _ => .bind (.update fun _ kept => kept) fun _ => ?_
    · exact .bind .this fun _ => .ite
        (.bind (.ofExcept _) fun _ => .bind (.ofExcept _) fun _ => .update fun _ kept => kept) (.pure _)
    · refine .bind .this fun query => .ite (.bind (.update fun _ kept => kept) fun _ => ?_)
        (.update fun _ kept => kept)
      cases query.operator with
      | none => exact .throwing _
      | some operator => exact .update fun _ kept => kept
  have after := kept query rfl
  rwa [ran] at after

theorem run_chooseCost_of_set {payment : Int} (set : query.queryPayment = some payment) (cost : Except JsError Int) :
    (chooseCost client cost).run query = (.ok payment, query) := by
  rw [chooseCost, Method.run_this_bind, set]
  rfl

theorem run_chooseCost_of_error (unset : query.queryPayment = none) (fresh : query.Fresh) (e : JsError) :
    (chooseCost client (.error e)).run query = (.error e, query) := by
  rw [chooseCost, Method.run_this_bind, unset, fresh.none, fresh.required]
  rfl

theorem run_chooseCost_of_cost (unset : query.queryPayment = none) (fresh : query.Fresh) (cost : Int) :
    (chooseCost client (.ok cost)).run query =
      (if ReadsBelow (query.maximum client) (withMargin cost) then
        .error (.maxQueryPaymentExceeded (withMargin cost) (query.maximum client))
      else .ok (withMargin cost), query) := by
  rw [chooseCost, Method.run_this_bind, unset, fresh.none, fresh.required]
  by_cases below : ReadsBelow (query.maximum client) (withMargin cost)
  · have exceeds : toInt32 (toInt64 (query.maximum client)) < toInt32 (toInt64 (withMargin cost)) := below
    simp only [List.isEmpty_nil, Bool.and_self, if_pos, Except.map, below]
    rw [Method.run_bind_ok (Method.run_ofExcept_ok _ _), if_pos exceeds]
    rfl
  · have fits : ¬ toInt32 (toInt64 (query.maximum client)) < toInt32 (toInt64 (withMargin cost)) := below
    simp only [List.isEmpty_nil, Bool.and_self, if_pos, Except.map, below, if_false]
    rw [Method.run_bind_ok (Method.run_ofExcept_ok _ _), if_neg fits]
    rfl

/-- How `_beforeExecute` ends. -/
inductive Before (encode : PaymentBody → Bytes) (client : Client) (picked : Except JsError (List AccountId))
    (input : QueryPreparation) (query : Query) : Except JsError Unit → Query → Prop where
  /-- The payments are already there. -/
  | kept (payments : query.paymentTransactions ≠ []) : Before encode client picked input query (.ok ()) query
  | failed {e : JsError} {query' : Query} (fresh : query.paymentTransactions = [])
      (before : (untilCost client picked input).run query = (.error e, query')) :
      Before encode client picked input query (.error e) query'
  | stored {payment : Int} {reached query' : Query} {outcome : Except JsError Unit}
      (fresh : query.paymentTransactions = [])
      (before : (untilCost client picked input).run query = (.ok (), reached))
      (set : query.queryPayment = some payment)
      (paying : (pay encode input.moment payment).run reached = (outcome, query')) :
      Before encode client picked input query outcome query'
  | unquoted {e : JsError} {reached : Query} (fresh : query.paymentTransactions = [])
      (before : (untilCost client picked input).run query = (.ok (), reached))
      (unset : query.queryPayment = none) (answer : input.cost = .error e) :
      Before encode client picked input query (.error e) reached
  | exceeded {cost : Int} {reached : Query} (fresh : query.paymentTransactions = [])
      (before : (untilCost client picked input).run query = (.ok (), reached))
      (unset : query.queryPayment = none) (answer : input.cost = .ok cost)
      (below : ReadsBelow (query.maximum client) (withMargin cost)) :
      Before encode client picked input query
        (.error (.maxQueryPaymentExceeded (withMargin cost) (query.maximum client))) reached
  | quoted {cost : Int} {reached query' : Query} {outcome : Except JsError Unit}
      (fresh : query.paymentTransactions = [])
      (before : (untilCost client picked input).run query = (.ok (), reached))
      (unset : query.queryPayment = none) (answer : input.cost = .ok cost)
      (within : ¬ ReadsBelow (query.maximum client) (withMargin cost))
      (paying : (pay encode input.moment (withMargin cost)).run reached = (outcome, query')) :
      Before encode client picked input query outcome query'

theorem before_beforeExecute (ready : query.Ready)
    (ran : (beforeExecute encode client picked input).run query = (outcome, query')) :
    Before encode client picked input query outcome query' := by
  by_cases fresh : query.paymentTransactions = []
  · rw [run_beforeExecute_of_fresh fresh] at ran
    rcases before : (untilCost client picked input).run query with ⟨e | _, reached⟩
    · rw [Method.run_bind_error before] at ran
      cases ran
      exact .failed fresh before
    · have same := pricing_untilCost before
      simp only [pricing, Prod.mk.injEq] at same
      obtain ⟨required, payments, stored, maximum⟩ := same
      rw [Method.run_bind_ok before] at ran
      cases payment : query.queryPayment with
      | some payment =>
          rw [Method.run_bind_ok (run_chooseCost_of_set (stored.trans payment) _)] at ran
          exact .stored fresh before payment ran
      | none =>
          have asks : reached.Fresh := ⟨required.trans ready.required, payments.trans fresh⟩
          have unset : reached.queryPayment = none := stored.trans payment
          have limit : reached.maximum client = query.maximum client := by rw [Query.maximum, maximum]; rfl
          cases answer : input.cost with
          | error e =>
              rw [answer, Method.run_bind_error (run_chooseCost_of_error unset asks e)] at ran
              cases ran
              exact .unquoted fresh before payment answer
          | ok cost =>
              have choice := @run_chooseCost_of_cost client _ unset asks cost
              rw [limit] at choice
              by_cases below : ReadsBelow (query.maximum client) (withMargin cost)
              · rw [if_pos below] at choice
                rw [answer, Method.run_bind_error choice] at ran
                cases ran
                exact .exceeded fresh before payment answer below
              · rw [if_neg below] at choice
                rw [answer, Method.run_bind_ok choice] at ran
                exact .quoted fresh before payment answer below ran
  · rw [beforeExecute, Method.run_this_bind, if_neg (by simpa using fresh)] at ran
    cases ran
    exact .kept fresh

/-! ## The quote -/

/-- What the query is to pay by what the network asks for, once the execution gets that far. -/
def quote (client : Client) (picked : Except JsError (List AccountId)) (input : QueryPreparation)
    (query : Query) : Option Int :=
  if query.paymentTransactions.isEmpty then
    match ((untilCost client picked input).run query).1 with
    | .ok _ => query.queryPayment.or (input.cost.toOption.map withMargin)
    | .error _ => none
  else query.queryPayment

theorem quote_of_reached {reached : Query} (fresh : query.paymentTransactions = [])
    (before : (untilCost client picked input).run query = (.ok (), reached)) :
    query.quote client picked input = query.queryPayment.or (input.cost.toOption.map withMargin) := by
  simp [quote, fresh, before]

/-- Signing fails for other reasons than the limit. -/
def SignsApart (query : Query) : Prop :=
  ∀ operator ∈ query.operator, ∀ moment message e,
    operator.transactionSigner moment message = .error e → e.isExceeded = false

/-- What an execution meets that is not the query's own: a cost is not negative, and what is
thrown elsewhere is not about the limit. -/
structure Apart (client : Client) (input : QueryPreparation) : Prop where
  checksums : ∀ e, input.checksums = .error e → e.isExceeded = false
  cost : ∀ e, input.cost = .error e → e.isExceeded = false
  nonneg : ∀ cost, input.cost = .ok cost → 0 ≤ cost
  signer : ∀ operator ∈ client.operator, ∀ moment message e,
    operator.transactionSigner moment message = .error e → e.isExceeded = false

theorem throws_untilCost (apart : Apart client input) (nodes : ∀ e, picked = .error e → e.isExceeded = false) :
    Method.Throws (fun e : JsError => e.isExceeded = false) (untilCost client picked input) := by
  refine .bind (.ofExcept fun e failed => ?_) fun _ => .bind ?_ fun _ => .bind (.update _) fun _ => ?_
  · by_cases validates : client.autoValidateChecksums = true
    · rw [if_pos validates] at failed
      exact apart.checksums e failed
    · rw [if_neg validates] at failed
      cases failed
  · refine .bind .this fun query => .ite ?_ (.pure _)
    refine .bind (.ofExcept nodes) fun _ => .bind (.ofExcept fun e locked => ?_) fun _ => .update _
    rw [SdkList.setList] at locked
    split at locked
    · cases locked
      rfl
    · cases locked
  · refine .bind .this fun query => .ite (.bind (.update _) fun _ => ?_) (.update _)
    cases query.operator with
    | none => exact .throwing rfl
    | some operator => exact .update _

theorem signsApart_untilCost (apart : Apart client input) :
    Method.Keeps SignsApart (untilCost client picked input) := by
  refine .bind (.ofExcept _) fun _ => .bind ?_ fun _ => .bind (.update fun query signs => ?_) fun _ => ?_
  · exact .bind .this fun _ => .ite
      (.bind (.ofExcept _) fun _ => .bind (.ofExcept _) fun _ => .update fun _ signs => signs) (.pure _)
  · intro operator known
    rcases Option.or_eq_some_iff.mp known with own | ⟨_, given⟩
    · exact signs operator own
    · exact apart.signer operator given
  · refine .bind .this fun query => .ite (.bind (.update fun _ signs => signs) fun _ => ?_)
      (.update fun _ signs => signs)
    cases query.operator with
    | none => exact .throwing _
    | some operator => exact .update fun _ signs => signs

theorem signsApart_reached (apart : Apart client input) {reached : Query} {result : Except JsError Unit}
    (signs : query.SignsApart) (ran : (untilCost client picked input).run query = (result, reached)) :
    reached.SignsApart := by
  have kept := @signsApart_untilCost client picked input apart query signs
  rwa [ran] at kept

/-- The payments are made of the cost, and fail only when they are not signed. -/
theorem triple_pay (moment : Nat → Nat) (cost : Int) :
    Method.Triple SignsApart (pay encode moment cost)
      (fun _ query => query.SignsApart ∧ query.queryPayment = some cost)
      fun e query => (query.SignsApart ∧ query.queryPayment = some cost) ∧ e.isExceeded = false := by
  have push (nodeId : AccountId) : Method.Triple
      (fun query => query.SignsApart ∧ query.queryPayment = some cost) (pushPayment encode moment nodeId)
      (fun _ query => query.SignsApart ∧ query.queryPayment = some cost)
      fun e query => (query.SignsApart ∧ query.queryPayment = some cost) ∧ e.isExceeded = false := by
    refine .this fun query start => ?_
    rw [start.2]
    cases query.paymentTransactionId with
    | none =>
        refine .throwing _ fun query' same => ?_
        rw [same]
        exact ⟨start, rfl⟩
    | some id =>
        refine .bind (M := fun _ query' => query' = query) (.ofExcept _ (fun _ _ _ same => same) ?_) fun _ =>
          .update _ fun query' same => by rw [same]; exact start
        intro e query' failed same
        rw [same]
        refine ⟨start, ?_⟩
        unfold makePaymentTransaction at failed
        cases payer : query.payer with
        | none =>
            rw [payer] at failed
            cases failed
        | some operator =>
            rw [payer] at failed
            have own : operator ∈ query.operator := by
              rw [Query.payer] at payer
              split at payer
              · exact payer
              · cases payer
            simp only at failed
            cases signed : operator.transactionSigner (moment query.paymentTransactions.length)
                (encode (paymentBody id nodeId operator.accountId cost)) with
            | ok signature =>
                rw [signed] at failed
                cases failed
            | error e' =>
                rw [signed] at failed
                cases failed
                exact start.1 operator own _ _ _ signed
  refine .bind (M := fun _ query => query.SignsApart ∧ query.queryPayment = some cost)
    (.update _ fun query signs => ⟨signs, rfl⟩) fun _ => .this fun query start => ?_
  exact (Method.Triple.forEach (fun _ query => query.SignsApart ∧ query.queryPayment = some cost)
    (fun nodeId _ => push nodeId) query.nodeAccountIds.list).weaken
      (fun query' same => by rw [same]; exact start) (fun _ _ done => done) (fun _ _ failed => failed)

/-- A query whose stored payment came from the network. -/
structure Sparing (query : Query) : Prop where
  ready : query.Ready
  nonneg : ∀ payment ∈ query.queryPayment, 0 ≤ payment
  signs : query.SignsApart

theorem withMargin_nonneg {cost : Int} (nonneg : 0 ≤ cost) : 0 ≤ withMargin cost := by
  rw [withMargin, if_pos nonneg]
  omega

theorem pay_ran {moment : Nat → Nat} {cost : Int} (signs : query.SignsApart)
    (ran : (pay encode moment cost).run query = (outcome, query')) :
    (query'.SignsApart ∧ query'.queryPayment = some cost) ∧
      ∀ e, outcome = .error e → e.isExceeded = false := by
  cases outcome with
  | error e =>
      obtain ⟨after, kind⟩ := (triple_pay moment cost).of_error signs ran
      refine ⟨after, fun e' same => ?_⟩
      cases same
      exact kind
  | ok _ =>
      refine ⟨(triple_pay moment cost).of_ok signs ran, fun e same => ?_⟩
      cases same

namespace Before

variable (sparing : query.Sparing) (apart : Apart client input)
  (nodes : ∀ e, picked = .error e → e.isExceeded = false)

include sparing apart in
/-- The stored payment still comes from the network, whatever happens. -/
theorem stays (ends : Before encode client picked input query outcome query') :
    (∀ payment ∈ query'.queryPayment, 0 ≤ payment) ∧ query'.SignsApart := by
  have reach {result : Except JsError Unit} {reached : Query}
      (before : (untilCost client picked input).run query = (result, reached)) :
      reached.SignsApart ∧ reached.queryPayment = query.queryPayment := by
    have same := pricing_untilCost before
    simp only [pricing, Prod.mk.injEq] at same
    exact ⟨signsApart_reached apart sparing.signs before, same.2.2.1⟩
  cases ends with
  | kept _ => exact ⟨sparing.nonneg, sparing.signs⟩
  | failed _ before =>
      obtain ⟨signs, stored⟩ := reach before
      exact ⟨stored ▸ sparing.nonneg, signs⟩
  | stored _ before set paying =>
      obtain ⟨⟨signs, paid⟩, -⟩ := pay_ran (reach before).1 paying
      refine ⟨fun payment known => ?_, signs⟩
      exact sparing.nonneg payment (set.trans (paid.symm.trans known))
  | unquoted _ before =>
      obtain ⟨signs, stored⟩ := reach before
      exact ⟨stored ▸ sparing.nonneg, signs⟩
  | exceeded _ before =>
      obtain ⟨signs, stored⟩ := reach before
      exact ⟨stored ▸ sparing.nonneg, signs⟩
  | quoted _ before unset answer within paying =>
      obtain ⟨⟨signs, paid⟩, -⟩ := pay_ran (reach before).1 paying
      refine ⟨fun payment known => ?_, signs⟩
      cases paid.symm.trans known
      exact withMargin_nonneg (apart.nonneg _ answer)

include sparing apart nodes in
/-- It is thrown exactly when a fresh quote reads above the maximum. -/
theorem exceeded_iff (ends : Before encode client picked input query outcome query') :
    (∃ e, outcome = .error e ∧ e.isExceeded = true) ↔
      ∃ quote, query.quote client picked input = some quote ∧ query.queryPayment = none ∧
        ReadsBelow (query.maximum client) quote := by
  have signs {reached : Query} (before : (untilCost client picked input).run query = (.ok (), reached)) :
      reached.SignsApart :=
    signsApart_reached apart sparing.signs before
  cases ends with
  | kept payments =>
      have set := (sparing.ready.paid payments).payment
      constructor
      · rintro ⟨e, same, -⟩
        cases same
      · rintro ⟨quote, -, unset, -⟩
        simp [unset] at set
  | failed fresh before =>
      have kind := throws_untilCost apart nodes _ _ _ before
      have none : query.quote client picked input = none := by simp [Query.quote, fresh, before]
      simp [none, kind]
  | stored _ before set paying =>
      obtain ⟨-, kind⟩ := pay_ran (signs before) paying
      simp only [set, reduceCtorEq, false_and, and_false, exists_false, iff_false]
      rintro ⟨e, same, exceeded⟩
      simp [kind e same] at exceeded
  | unquoted fresh before unset answer =>
      have none : query.quote client picked input = none := by
        rw [quote_of_reached fresh before, unset, answer]
        rfl
      simp [none, apart.cost _ answer]
  | exceeded fresh before unset answer below =>
      have some := quote_of_reached fresh before
      rw [unset, answer] at some
      refine ⟨fun _ => ⟨_, some, unset, below⟩, fun _ => ⟨_, rfl, rfl⟩⟩
  | quoted fresh before unset answer within paying =>
      have some := quote_of_reached fresh before
      rw [unset, answer] at some
      obtain ⟨-, kind⟩ := pay_ran (signs before) paying
      constructor
      · rintro ⟨e, same, exceeded⟩
        simp [kind e same] at exceeded
      · rintro ⟨quote, same, -, below⟩
        cases some.symm.trans same
        exact absurd below within

include sparing apart in
/-- What is paid is the quote, and a fresh one does not read above the maximum. -/
theorem pays (ends : Before encode client picked input query (.ok ()) query') :
    ∃ quote, query.quote client picked input = some quote ∧ query'.queryPayment = some quote ∧
      (query.queryPayment = none → ¬ ReadsBelow (query.maximum client) quote) := by
  have signs {reached : Query} (before : (untilCost client picked input).run query = (.ok (), reached)) :
      reached.SignsApart :=
    signsApart_reached apart sparing.signs before
  cases ends with
  | kept payments =>
      obtain ⟨payment, set⟩ := Option.isSome_iff_exists.mp (sparing.ready.paid payments).payment
      refine ⟨payment, ?_, set, fun unset => ?_⟩
      · rw [quote, if_neg (by simpa using payments), set]
      · simp [unset] at set
  | stored fresh before set paying =>
      obtain ⟨⟨-, paid⟩, -⟩ := pay_ran (signs before) paying
      refine ⟨_, ?_, paid, fun unset => ?_⟩
      · rw [quote_of_reached fresh before, set]
        rfl
      · simp [unset] at set
  | quoted fresh before unset answer within paying =>
      obtain ⟨⟨-, paid⟩, -⟩ := pay_ran (signs before) paying
      refine ⟨_, ?_, paid, fun _ => within⟩
      rw [quote_of_reached fresh before, unset, answer]
      rfl

end Before

/-- The nodes that the network gives a query without any. -/
def pickedNodes (client : Client) (input : QueryPreparation) (query : Query) (net : Network) :
    Except JsError (List AccountId) :=
  if query.asksForNodes client input then
    ((Network.getNodeAccountIdsForExecute input.draws input.now).run net).1
  else .ok []

theorem pickedNodes_apart {net : Network} (e : JsError)
    (failed : pickedNodes client input query net = .error e) : e.isExceeded = false := by
  rw [pickedNodes] at failed
  split at failed
  · exact Network.throws_getNodeAccountIdsForExecute input.draws input.now net e _ (Prod.ext failed rfl)
  · cases failed

theorem before_prepareOn {net net' : Network} (ready : query.Ready)
    (ran : (prepareOn encode client input).run (query, net) = (outcome, query', net')) :
    Before encode client (pickedNodes client input query net) input query outcome query' := by
  refine before_beforeExecute ready ?_
  rw [pickedNodes]
  have outcomes : ((prepareOn encode client input).run (query, net)).1 = outcome := congrArg Prod.fst ran
  have queries : ((prepareOn encode client input).run (query, net)).2.1 = query' :=
    congrArg (fun result => result.2.1) ran
  by_cases asks : query.asksForNodes client input = true
  · simp only [prepareOn, Method.run, asks, if_true] at outcomes queries ⊢
    exact Prod.ext outcomes queries
  · simp only [prepareOn, Method.run, asks, if_false, Bool.false_eq_true] at outcomes queries ⊢
    exact Prod.ext outcomes queries

end Preparation

/-! ## Executions -/

section Execution

variable (encode : PaymentBody → Bytes) {Resp Out : Type} (subclass : QuerySubclass Resp Out) (client : Client)
  (requestTimeout : Option ℚ) (schedule : Schedule QueryPreparation Resp) (query : Query)

/-- The query with the timeouts of the execution. -/
def timed : Query := { query with toExecutable := query.toExecutable.setTimeout client requestTimeout }

/-- The quote that the execution is under. -/
def quoteInForce : Option Int :=
  (query.timed client requestTimeout).quote client
    (pickedNodes client schedule.preparation (query.timed client requestTimeout) client.network)
    schedule.preparation

/-- No payment that is sent moves more than the maximum, and a quote above it is refused. -/
structure Limited : Prop where
  sent : AllSent (fun _ payment => ∀ entry ∈ payment.body.accountAmounts,
      -query.maximum client ≤ entry.2 ∧ entry.2 ≤ query.maximum client)
    (executed encode subclass client requestTimeout schedule query).2.events
  thrown : (∃ e, ((prepareOn encode client schedule.preparation).run
      (query.timed client requestTimeout, client.network)).1 = .error e ∧ e.isExceeded = true) ↔
    ∃ quote, query.quoteInForce client requestTimeout schedule = some quote ∧ query.maximum client < quote

/-- A fresh quote reads above the maximum only when it is, and a stored one is within it. -/
def WithinLimit : Prop :=
  ∀ quote, query.quoteInForce client requestTimeout schedule = some quote →
    match query.queryPayment with
    | none => ReadsBelow (query.maximum client) quote ↔ query.maximum client < quote
    | some _ => quote ≤ query.maximum client

variable {encode subclass client requestTimeout schedule query}

theorem amounts_makePayment {id : TransactionId} {nodeId : AccountId} {operator : Option Operator} {amount : Int}
    {moment : Nat} {payment : PaymentTransaction}
    (made : makePaymentTransaction encode id nodeId operator amount moment = .ok payment) :
    ∃ payer, payment.body.accountAmounts = [(payer, toInt64 (-amount)), (nodeId, toInt64 amount)] := by
  cases operator with
  | none =>
      cases made
      exact ⟨_, rfl⟩
  | some operator =>
      obtain ⟨signature, _, rfl⟩ := except_map_eq_ok.mp made
      exact ⟨_, rfl⟩

theorem toInt64_within {amount maximum : Int} (nonneg : 0 ≤ amount) (within : amount ≤ maximum) :
    (-maximum ≤ toInt64 (-amount) ∧ toInt64 (-amount) ≤ maximum) ∧
      -maximum ≤ toInt64 amount ∧ toInt64 amount ≤ maximum := by
  simp only [toInt64, Int.bmod_def]
  omega

theorem Sparing.timed (sparing : query.Sparing) : (query.timed client requestTimeout).Sparing :=
  ⟨sparing.ready.congr rfl rfl, sparing.nonneg, sparing.signs⟩

/-- The payments of an execution move what was stored when it was prepared. -/
theorem sent_within {start run' : Run Query PaymentTransaction} {out : Except JsError Out} {maximum quote : Int}
    (none : start.events = []) (paid : start.request.queryPayment = some quote) (nonneg : 0 ≤ quote)
    (within : quote ≤ maximum) {isLocalNode : Bool} {maxAttempts : Nat}
    (ran : ((executableClass encode subclass).retryLoop isLocalNode maxAttempts schedule maxAttempts 1).run start =
      (out, run')) :
    AllSent (fun _ payment => ∀ entry ∈ payment.body.accountAmounts, -maximum ≤ entry.2 ∧ entry.2 ≤ maximum)
      run'.events := by
  refine (allSent_retryLoop_iff ran).mpr ⟨by rw [none]; exact allSent_nil, ?_⟩
  refine (allAttempts_true _ _ _).imp (I := fun run => run.request.terms = start.request.terms)
    (fun number run run' agreed attempt => terms_again attempt agreed) ?_ rfl
  intro number run agreed _ id r payment chosen made prepared _
  obtain ⟨amount, set, making⟩ := prepared_payment prepared
  have same : run.request.queryPayment = start.request.queryPayment := congrArg Terms.queryPayment agreed
  cases set.symm.trans (same.trans paid)
  obtain ⟨payer, amounts⟩ := amounts_makePayment making
  obtain ⟨debit, credit⟩ := toInt64_within nonneg within
  rw [amounts]
  simp [debit, credit]

/-- An execution keeps to the limit exactly when its quote is compared as it is. -/
theorem limited_iff (sparing : query.Sparing) (apart : Apart client schedule.preparation) :
    Limited encode subclass client requestTimeout schedule query ↔
      WithinLimit client requestTimeout schedule query := by
  have timed : (query.timed client requestTimeout).Sparing := sparing.timed
  rcases ran : (prepareOn encode client schedule.preparation).run
    (query.timed client requestTimeout, client.network) with ⟨outcome, query', net'⟩
  have ends := before_prepareOn timed.ready ran
  have thrown : (∃ e, outcome = .error e ∧ e.isExceeded = true) ↔
      ∃ quote, query.quoteInForce client requestTimeout schedule = some quote ∧
        query.queryPayment = none ∧ ReadsBelow (query.maximum client) quote :=
    ends.exceeded_iff timed apart pickedNodes_apart
  constructor
  · intro limited quote inForce
    have refused := limited.thrown
    rw [ran] at refused
    cases stored : query.queryPayment with
    | none =>
        constructor
        · intro below
          obtain ⟨quote', same, above⟩ := refused.mp (thrown.mpr ⟨quote, inForce, stored, below⟩)
          cases inForce.symm.trans same
          exact above
        · intro above
          obtain ⟨quote', same, -, below⟩ := thrown.mp (refused.mpr ⟨quote, inForce, above⟩)
          cases inForce.symm.trans same
          exact below
    | some payment =>
        refine not_lt.mp fun above => ?_
        obtain ⟨quote', -, unset, -⟩ := thrown.mp (refused.mpr ⟨quote, inForce, above⟩)
        cases stored.symm.trans unset
  · intro within
    constructor
    · rcases preparing : prepared encode subclass client requestTimeout schedule query with ⟨e | _, start⟩
      · have none : start.events = [] := (run_prepare preparing).1
        have threw : executed encode subclass client requestTimeout schedule query = (.error e, start) :=
          Method.run_bind_error preparing
        rw [threw, none]
        exact allSent_nil
      · obtain ⟨request, network, before, rfl, -⟩ := prepare_eq_ok preparing
        cases ran.symm.trans before
        obtain ⟨quote, inForce, paid, fits⟩ := ends.pays timed apart
        have nonneg := (ends.stays timed apart).1 quote paid
        have limit : quote ≤ query.maximum client := by
          have compared := within quote inForce
          cases stored : query.queryPayment with
          | none =>
              rw [stored] at compared
              exact not_lt.mp fun above => fits stored (compared.mpr above)
          | some payment =>
              rw [stored] at compared
              exact compared
        have looped := run_execute preparing
        exact sent_within rfl paid nonneg limit (looped.symm.trans (Prod.eta _).symm)
    · rw [ran]
      refine thrown.trans ⟨?_, ?_⟩
      · rintro ⟨quote, inForce, stored, below⟩
        have compared := within quote inForce
        rw [stored] at compared
        exact ⟨quote, inForce, compared.mp below⟩
      · rintro ⟨quote, inForce, above⟩
        have compared := within quote inForce
        cases stored : query.queryPayment with
        | none =>
            rw [stored] at compared
            exact ⟨quote, inForce, rfl, compared.mpr above⟩
        | some payment =>
            rw [stored] at compared
            exact absurd above (not_lt.mpr compared)

/-- Below 2^31 the amounts are compared as they are. -/
theorem withinLimit_of_small {quote : Int}
    (inForce : query.quoteInForce client requestTimeout schedule = some quote) (nonneg : 0 ≤ quote)
    (within : quote ≤ query.maximum client) (small : query.maximum client < 2 ^ 31) :
    WithinLimit client requestTimeout schedule query := by
  intro quote' inForce'
  cases inForce.symm.trans inForce'
  cases query.queryPayment with
  | some payment => exact within
  | none =>
      simp only [ReadsBelow, toInt32, toInt64, Int.bmod_def]
      omega

theorem sparing_prepareOn {input : QueryPreparation} (apart : Apart client input) :
    Method.Keeps (fun part : Query × Network => part.1.Sparing) (prepareOn encode client input) := by
  rintro ⟨query, net⟩ sparing
  have ready := @ready_prepareOn encode client input (query, net) sparing.ready
  rcases ran : (prepareOn encode client input).run (query, net) with ⟨outcome, query', net'⟩
  rw [ran] at ready
  obtain ⟨nonneg, signs⟩ := (before_prepareOn sparing.ready ran).stays sparing apart
  exact ⟨ready, nonneg, signs⟩

theorem sparing_executed (apart : Apart client schedule.preparation) (sparing : query.Sparing) :
    (executed encode subclass client requestTimeout schedule query).2.request.Sparing := by
  have keeps : (executableClass encode subclass).Keeping Sparing :=
    keeping fun _ _ sparing => ⟨sparing.ready.congr rfl rfl, sparing.nonneg, sparing.signs⟩
  refine keeps.execute ?_ ?_ (sparing_prepareOn apart) (Run.start client query) sparing
  · intro query sparing
    exact ⟨sparing.ready.congr rfl rfl, sparing.nonneg, sparing.signs⟩
  · intro query sparing
    exact ⟨sparing.ready.congr rfl rfl, sparing.nonneg, sparing.signs⟩

end Execution

/-! ## Runs -/

section Runs

variable (encode : PaymentBody → Bytes) {Resp Out : Type} (subclass : QuerySubclass Resp Out)

/-- No payment is set by hand. -/
def Call.Plain : Call Resp → Prop
  | .setQueryPayment _ => False
  | .execute client _ schedule => Apart client schedule.preparation
  | _ => True

def Limits (session : Session) : Call Resp → Prop
  | .execute client requestTimeout schedule =>
      Limited encode subclass client requestTimeout schedule session.query
  | _ => True

def Compares (session : Session) : Call Resp → Prop
  | .execute client requestTimeout schedule => WithinLimit client requestTimeout schedule session.query
  | _ => True

variable {encode subclass}

theorem sparing_step (session : Session) (call : Call Resp) (plain : call.Plain)
    (sparing : session.query.Sparing) : (step encode subclass session call).query.Sparing := by
  have ready := @ready_step encode _ _ subclass session call sparing.ready
  cases call with
  | setNodeAccountIds nodeIds =>
      obtain ⟨nodeAccountIds, same⟩ := setNodeAccountIds_eq nodeIds session.query
      change (session.query.setNodeAccountIds nodeIds).Sparing
      rw [same]
      exact ⟨sparing.ready.congr rfl rfl, sparing.nonneg, sparing.signs⟩
  | setPaymentTransactionId id => exact ⟨ready, sparing.nonneg, sparing.signs⟩
  | setQueryPayment payment => exact plain.elim
  | setMaxQueryPayment maximum => exact ⟨ready, sparing.nonneg, sparing.signs⟩
  | execute client requestTimeout schedule => exact sparing_executed plain sparing

section Samples

def unpaidQuery : Query := { sampleQuery with queryPayment := none }

def costingSchedule (cost : Int) : Schedule QueryPreparation (Option Int) :=
  { sampleSchedule ⟨5, 0⟩ ⟨6, 0⟩ with preparation := { now := 0, cost := .ok cost } }

theorem apart_sampleClient {cost : Int} (nonneg : 0 ≤ cost) :
    Apart sampleClient (costingSchedule cost).preparation := by
  constructor
  · intro e failed
    cases failed
  · intro e failed
    cases failed
  · intro cost' same
    cases same
    exact nonneg
  · intro operator known moment message e failed
    cases known
    cases failed

end Samples

/-- In every run of a paid query whose payment is not set by hand, the executions keep to the
limit exactly when their quotes are compared as they are. -/
theorem limited_throughout_iff {query : Query} (fresh : query.Fresh) (unset : query.queryPayment = none)
    (signs : query.SignsApart) {calls : List (Call Resp)} (plain : ∀ call ∈ calls, call.Plain) :
    Guarded (step encode subclass) (Limits encode subclass) { query } calls ↔
      Guarded (step encode subclass) Compares { query } calls := by
  apply guarded_congr_mem (I := fun session => session.query.Sparing) sparing_step ?_ plain
  · refine ⟨fresh.ready, fun payment set => ?_, signs⟩
    cases unset.symm.trans set
  · intro session call plain sparing
    cases call with
    | execute client requestTimeout schedule => exact limited_iff sparing plain
    | _ => exact Iff.rfl

/-- A cost of 25 tinybars twice, with the maximum of the client. -/
theorem small_cost_limited :
    Guarded (step (fun _ => []) sampleSubclass) (Limits (fun _ => []) sampleSubclass) { query := unpaidQuery }
      [.execute sampleClient none (costingSchedule 25), .execute sampleClient none (costingSchedule 25)] := by
  have plain : ∀ call ∈ [Call.execute sampleClient none (costingSchedule 25),
      .execute sampleClient none (costingSchedule 25)], call.Plain := by
    intro call member
    simp only [List.mem_cons, List.not_mem_nil, or_false, or_self] at member
    rw [member]
    exact apart_sampleClient (by decide)
  rw [limited_throughout_iff ⟨rfl, rfl⟩ rfl (fun operator known => by cases known) plain]
  simp only [guarded_cons, guarded_nil, Compares, and_true]
  constructor
  · have quoted : unpaidQuery.quoteInForce sampleClient none (costingSchedule 25) = some 28 := by decide +kernel
    exact withinLimit_of_small quoted (by decide) (by decide +kernel) (by decide +kernel)
  · have kept : (step (fun _ => []) sampleSubclass { query := unpaidQuery }
        (.execute sampleClient none (costingSchedule 25))).query.quoteInForce sampleClient none (costingSchedule 25) =
          some 28 := by decide +kernel
    have limit : (step (fun _ => []) sampleSubclass { query := unpaidQuery }
        (.execute sampleClient none (costingSchedule 25))).query.maximum sampleClient = 100000000 := by decide +kernel
    generalize (step (fun _ => []) sampleSubclass { query := unpaidQuery }
      (.execute sampleClient none (costingSchedule 25))).query = later at kept limit ⊢
    exact withinLimit_of_small kept (by decide) (by rw [limit]; decide) (by rw [limit]; decide)

/-- A cost of 20 hbars, for which the client pays one at most. -/
theorem cost_reads_negative :
    ¬ Guarded (step (fun _ => []) sampleSubclass) (Limits (fun _ => []) sampleSubclass) { query := unpaidQuery }
      [.execute sampleClient none (costingSchedule 2000000000)] := by
  rintro ⟨limited, -⟩
  change Limited (fun _ => []) sampleSubclass sampleClient none (costingSchedule 2000000000) unpaidQuery at limited
  have quoted : unpaidQuery.quoteInForce sampleClient none (costingSchedule 2000000000) = some 2200000000 := by
    decide +kernel
  have passed : ((prepareOn (fun _ => []) sampleClient (costingSchedule 2000000000).preparation).run
      (unpaidQuery.timed sampleClient none, sampleClient.network)).1 = .ok () := by decide +kernel
  obtain ⟨e, threw, -⟩ := limited.thrown.mpr ⟨_, quoted, by decide⟩
  cases passed.symm.trans threw

end Runs

end Query

end HederaSdk
