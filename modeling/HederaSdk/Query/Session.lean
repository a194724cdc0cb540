import HederaSdk.Query.Payment
import HederaSdk.Transaction.Execute

/-!
# One query object, executed again and again

Between the executions of a query its settings may change. The payments of the first execution
stay in the query and keep the later ones from being prepared anew.
-/

namespace HederaSdk.Query

open Library Network ExecutableClass

/-- Locked nodes stay: the call throws. -/
def setNodeAccountIds (nodeIds : List AccountId) (query : Query) : Query :=
  match query.nodeAccountIds.setList nodeIds with
  | .ok nodeAccountIds => { query with nodeAccountIds := nodeAccountIds.setLocked }
  | .error _ => query

/-- What a user does with a query. Each execution is with a client as it is then. -/
inductive Call (Resp : Type) where
  | setNodeAccountIds (nodeIds : List AccountId)
  | setPaymentTransactionId (id : TransactionId)
  | setQueryPayment (payment : Int)
  | setMaxQueryPayment (maximum : Int)
  | execute (client : Client) (requestTimeout : Option ℚ) (schedule : Schedule QueryPreparation Resp)

/-- A query, and the payment transaction id that was set on it. -/
structure Session where
  query : Query
  setId : Option TransactionId := none

variable (encode : PaymentBody → Bytes) {Resp Out : Type} (subclass : QuerySubclass Resp Out)

def step (session : Session) : Call Resp → Session
  | .setNodeAccountIds nodeIds => { session with query := session.query.setNodeAccountIds nodeIds }
  | .setPaymentTransactionId id =>
      { query := { session.query with paymentTransactionId := some id }, setId := some id }
  | .setQueryPayment payment =>
      { session with query := { session.query with queryPayment := some payment } }
  | .setMaxQueryPayment maximum =>
      { session with query := { session.query with maxQueryPayment := some maximum } }
  | .execute client requestTimeout schedule =>
      { session with query := (executed encode subclass client requestTimeout schedule session.query).2.request }

/-- The executions among the calls are honored. -/
def Honors (session : Session) : Call Resp → Prop
  | .execute client requestTimeout schedule =>
      Honored encode subclass client requestTimeout schedule session.query session.setId
  | _ => True

def Coinciding (session : Session) : Call Resp → Prop
  | .execute client requestTimeout schedule =>
      CoincidesThroughout encode subclass client requestTimeout schedule session.query session.setId
  | _ => True

variable {encode subclass}

theorem setNodeAccountIds_eq (nodeIds : List AccountId) (query : Query) :
    ∃ nodeAccountIds, query.setNodeAccountIds nodeIds = { query with nodeAccountIds } := by
  unfold setNodeAccountIds
  cases query.nodeAccountIds.setList nodeIds with
  | error e => exact ⟨query.nodeAccountIds, rfl⟩
  | ok nodeAccountIds => exact ⟨nodeAccountIds.setLocked, rfl⟩

theorem Ready.congr {query query' : Query} (ready : query.Ready) (same : query'.terms = query.terms)
    (payments : query'.paymentTransactions = query.paymentTransactions) : query'.Ready := by
  constructor
  · exact (congrArg Terms.isPaymentRequired same).trans ready.required
  · intro some
    rw [payments] at some
    exact (ready.paid some).of_terms same

/-- A query that was executed can be executed again. -/
theorem ready_executed {client : Client} {requestTimeout : Option ℚ}
    {schedule : Schedule QueryPreparation Resp} {query : Query} (ready : query.Ready) :
    (executed encode subclass client requestTimeout schedule query).2.request.Ready := by
  have keeps : (executableClass encode subclass).Keeping Ready :=
    keeping fun _ _ ready => ready.congr rfl rfl
  refine keeps.execute ?_ ?_ ?_ (Run.start client query) ready
  · intro query ready
    exact ready.congr rfl rfl
  · intro query ready
    exact ready.congr rfl rfl
  · exact ready_prepareOn

theorem ready_step (session : Session) (call : Call Resp) (ready : session.query.Ready) :
    (step encode subclass session call).query.Ready := by
  cases call with
  | setNodeAccountIds nodeIds =>
      obtain ⟨nodeAccountIds, same⟩ := setNodeAccountIds_eq nodeIds session.query
      change (session.query.setNodeAccountIds nodeIds).Ready
      rw [same]
      exact ready.congr rfl rfl
  | setPaymentTransactionId id =>
      constructor
      · exact ready.required
      · intro some
        obtain ⟨required, operator, payment⟩ := ready.paid some
        exact ⟨required, operator, payment⟩
  | setQueryPayment payment =>
      constructor
      · exact ready.required
      · intro some
        obtain ⟨required, operator, -⟩ := ready.paid some
        exact ⟨required, operator, rfl⟩
  | setMaxQueryPayment maximum => exact ready.congr rfl rfl
  | execute client requestTimeout schedule => exact ready_executed ready

section Samples

def sampleOperator : Operator := ⟨.ofNum 2, Transaction.sampleKey, fun _ message => .ok (message.take 64)⟩

def sampleClient : Client := { Transaction.sampleClient [3] with operator := some sampleOperator }

/-- A query for node 3 that pays 25 tinybars. -/
def sampleQuery : Query where
  nodeAccountIds := { list := [.ofNum 3], locked := true }
  queryPayment := some 25

def sampleSubclass : QuerySubclass (Option Int) Unit := ⟨id, fun _ _ _ => .ok ()⟩

/-- The node accepts the request. What is drawn when it is made is another thing than what is
drawn before. -/
def sampleSchedule (before making : Timestamp) : Schedule QueryPreparation (Option Int) where
  calledAt := 0
  preparation := { now := 0, generated := before }
  startTime := 1
  attempts number :=
    { now := 1 + number, sentAt := 1 + number, outcome := .ok (some 0), answeredAt := 1 + number, generated := making }

end Samples

/-- In every run of a paid query the executions are honored exactly when all their attempts
that send draw the id of the query. -/
theorem honored_throughout_iff {query : Query} (fresh : query.Fresh) (calls : List (Call Resp)) :
    Guarded (step encode subclass) (Honors encode subclass) { query } calls ↔
      Guarded (step encode subclass) (Coinciding encode subclass) { query } calls := by
  apply guarded_congr (I := fun session => session.query.Ready) ready_step
  · intro session call ready
    cases call with
    | execute client requestTimeout schedule => exact honored_iff encode subclass ready
    | _ => exact Iff.rfl
  · exact fresh.ready

/-- It is enough that all draws are the id of the query. -/
theorem coincidesThroughout_of_draws {client : Client} {requestTimeout : Option ℚ}
    {schedule : Schedule QueryPreparation Resp} {query : Query} {setId : Option TransactionId}
    (coincides : ∀ start, prepared encode subclass client requestTimeout schedule query = (.ok (), start) →
      ∀ number, Coincides start.request.terms setId (schedule.attempts number).generated) :
    CoincidesThroughout encode subclass client requestTimeout schedule query setId := by
  refine ⟨fun start ran => ?_⟩
  exact (allAttempts_true _ _ _).imp (I := fun _ => True) (fun _ _ _ _ _ => trivial)
    (fun number _ _ _ _ _ _ _ _ _ _ => coincides start ran number) trivial

theorem coinciding_draw_honored :
    Guarded (step (fun _ => []) sampleSubclass) (Honors (fun _ => []) sampleSubclass) { query := sampleQuery }
      [.execute sampleClient none (sampleSchedule ⟨5, 0⟩ ⟨5, 0⟩)] := by
  rw [honored_throughout_iff ⟨rfl, rfl⟩]
  simp only [guarded_cons, guarded_nil, Coinciding, and_true]
  refine coincidesThroughout_of_draws fun start ran number => ?_
  have same : (prepared (fun _ => []) sampleSubclass sampleClient none (sampleSchedule ⟨5, 0⟩ ⟨5, 0⟩)
      sampleQuery).2 = start := congrArg Prod.snd ran
  have paying : start.request.terms.operator.map Operator.accountId = some (.ofNum 2) := by
    rw [← same]
    decide +kernel
  have paid : start.request.terms.queryPayment = some 25 := by
    rw [← same]
    decide +kernel
  have id : start.request.terms.paymentTransactionId = some (.withValidStart (.ofNum 2) ⟨5, 0⟩) := by
    rw [← same]
    decide +kernel
  obtain ⟨operator, byOperator, account⟩ := Option.map_eq_some_iff.mp paying
  refine ⟨operator, 25, byOperator, paid, by decide, by decide, ?_, ?_⟩
  · rw [account]
    exact id
  · intro id isSet
    cases isSet

def idsSent (events : List (Event PaymentTransaction)) : List TransactionId :=
  events.filterMap fun
    | .sent _ _ payment _ => some payment.body.transactionID
    | _ => none

theorem payment_drawn_anew :
    ¬ Guarded (step (fun _ => []) sampleSubclass) (Honors (fun _ => []) sampleSubclass) { query := sampleQuery }
      [.execute sampleClient none (sampleSchedule ⟨5, 0⟩ ⟨6, 0⟩)] := by
  rintro ⟨honored, -⟩
  change Honored (fun _ => []) sampleSubclass sampleClient none (sampleSchedule ⟨5, 0⟩ ⟨6, 0⟩) sampleQuery none
    at honored
  have sent : .withValidStart (.ofNum 2) ⟨6, 0⟩ ∈ idsSent
      (executed (fun _ => []) sampleSubclass sampleClient none (sampleSchedule ⟨5, 0⟩ ⟨6, 0⟩) sampleQuery).2.events := by
    decide +kernel
  obtain ⟨event, member, drawn⟩ := List.mem_filterMap.mp sent
  cases event with
  | sent node nodeId payment time =>
      have agreed := (honored.sent node nodeId payment time member).id
      have reported : (prepared (fun _ => []) sampleSubclass sampleClient none (sampleSchedule ⟨5, 0⟩ ⟨6, 0⟩)
          sampleQuery).2.request.terms.paymentTransactionId = some (.withValidStart (.ofNum 2) ⟨5, 0⟩) := by
        decide +kernel
      have same : some payment.body.transactionID = some (.withValidStart (.ofNum 2) ⟨5, 0⟩) :=
        agreed.symm.trans reported
      rw [Option.some.inj drawn] at same
      exact absurd same (by decide)
  | failed _ => cases drawn
  | classified _ => cases drawn
  | gaveUp _ => cases drawn
  | delayed _ => cases drawn

end HederaSdk.Query
