import HederaSdk.Execution.Attempts
import HederaSdk.Token.Transfers
import HederaSdk.Transaction.Requests

/-!
# Queries in execution

A paid query makes a payment for each of its nodes before it is executed and another one for
each attempt; only the second is sent. What it pays is asked for once and kept, and so is the
id of the first payments.
-/

namespace HederaSdk

open Library

/-- The body of a payment. -/
structure PaymentBody where
  transactionID : TransactionId
  nodeAccountID : AccountId
  accountAmounts : List (AccountId × Int)
  transactionFee : Int := 100000000
  /-- In seconds. -/
  transactionValidDuration : Nat := 120
  deriving DecidableEq

/-- The bytes of the body are read as the body. -/
structure PaymentTransaction where
  body : PaymentBody
  sigPair : Option (PublicKey × Bytes)
  deriving DecidableEq

/-- `toInt()` of a `Long`: its low 32 bits. -/
def toInt32 (n : Int) : Int := n.bmod (2 ^ 32)

/-- `multipliedBy(1.1).toFixed(0)`: halves are rounded away from zero. -/
def withMargin (cost : Int) : Int :=
  if 0 ≤ cost then (11 * cost + 5) / 10 else -((11 * -cost + 5) / 10)

structure Query extends Executable where
  isPaymentRequired : Bool := true
  paymentTransactionId : Option TransactionId := none
  paymentTransactions : List PaymentTransaction := []
  /-- In tinybars. -/
  queryPayment : Option Int := none
  maxQueryPayment : Option Int := none

abbrev QueryMethod := Method JsError Query

/-- What preparing a query meets. -/
structure QueryPreparation where
  now : ℚ
  draws : Nat → Nat := id
  /-- The check of the ids in the query. -/
  checksums : Except JsError Unit := .ok ()
  generated : Timestamp := ⟨0, 0⟩
  /-- What the cost query comes to. -/
  cost : Except JsError Int := .ok 0
  /-- When the payment of each node is signed. -/
  moment : Nat → Nat := id

section Payment

variable (encode : PaymentBody → Bytes)

def paymentBody (id : TransactionId) (nodeId payer : AccountId) (paymentAmount : Int) : PaymentBody where
  transactionID := id
  nodeAccountID := nodeId
  accountAmounts := [(payer, toInt64 (-paymentAmount)), (nodeId, toInt64 paymentAmount)]

/-- `_makePaymentTransaction` -/
def makePaymentTransaction (id : TransactionId) (nodeId : AccountId) (operator : Option Operator)
    (paymentAmount : Int) (moment : Nat) : Except JsError PaymentTransaction :=
  match operator with
  | none => .ok ⟨paymentBody id nodeId (.ofNum 0) paymentAmount, none⟩
  | some operator =>
      let body := paymentBody id nodeId operator.accountId paymentAmount
      (operator.transactionSigner moment (encode body)).map fun signature =>
        ⟨body, some (operator.publicKey, signature)⟩

end Payment

/-- What a subclass reads of the responses. -/
structure QuerySubclass (Resp Out : Type) where
  nodeTransactionPrecheckCode : Resp → Option Int
  mapResponse : Resp → AccountId → PaymentTransaction → Except JsError Out

namespace Query

/-! ## Before the execution -/

/-- The account that pays; 0 when there is no operator. -/
def payerId (query : Query) : AccountId := (query.operator.map Operator.accountId).getD (.ofNum 0)

/-- The operator that the payments debit. -/
def payer (query : Query) : Option Operator := if query.isPaymentRequired then query.operator else none

def setNodeAccountIdsFrom (picked : Except JsError (List AccountId)) : QueryMethod Unit := do
  let query ← Method.this
  if query.nodeAccountIds.isEmpty then do
    let nodeIds ← Method.ofExcept picked
    let nodeAccountIds ← Method.ofExcept (query.nodeAccountIds.setList nodeIds)
    Method.update fun query => { query with nodeAccountIds }
  else pure ()

/-- The id of the payments is generated, whatever was set. -/
def generatePaymentTransactionId (client : Client) (generated : Timestamp) : QueryMethod Unit := do
  let query ← Method.this
  if query.isPaymentRequired then do
    Method.update fun query => { query with transactionNodeIds := client.nodeTexts }
    match query.operator with
    | some operator => Method.update fun query =>
        { query with paymentTransactionId := some (.withValidStart operator.accountId generated) }
    | none => Method.throwing (.error
        "`client` must have an `operator` or an explicit payment transaction must be provided")
  else Method.update fun query =>
    { query with paymentTransactionId := some (.withValidStart (.ofNum 0) generated) }

/-- The maximum that the query is compared with. -/
def maximum (client : Client) (query : Query) : Int := query.maxQueryPayment.getD client.defaultMaxQueryPayment

/-- What is paid: what was set or kept, or else what the network asks for. -/
def chooseCost (client : Client) (cost : Except JsError Int) : QueryMethod Int := do
  let query ← Method.this
  match query.queryPayment with
  | some payment => pure payment
  | none =>
      if query.paymentTransactions.isEmpty && query.isPaymentRequired then do
        let actualCost ← Method.ofExcept (cost.map withMargin)
        if toInt32 (toInt64 (query.maximum client)) < toInt32 (toInt64 actualCost) then
          Method.throwing (.maxQueryPaymentExceeded actualCost (query.maximum client))
        else pure actualCost
      else pure 0

variable (encode : PaymentBody → Bytes)

def pushPayment (moment : Nat → Nat) (nodeId : AccountId) : QueryMethod Unit := do
  let query ← Method.this
  match query.paymentTransactionId, query.queryPayment with
  | some id, some amount => do
      let payment ← Method.ofExcept
        (makePaymentTransaction encode id nodeId query.payer amount (moment query.paymentTransactions.length))
      Method.update fun query =>
        { query with paymentTransactions := query.paymentTransactions ++ [payment] }
  | _, _ => Method.throwing (.typeError "Cannot read properties of null (reading '_toProtobuf')")

/-- `_beforeExecute` -/
def beforeExecute (client : Client) (picked : Except JsError (List AccountId)) (input : QueryPreparation) :
    QueryMethod Unit := do
  let query ← Method.this
  if query.paymentTransactions.isEmpty then do
    Method.ofExcept (if client.autoValidateChecksums then input.checksums else .ok ())
    setNodeAccountIdsFrom picked
    Method.update fun query => { query with operator := query.operator.or client.operator }
    generatePaymentTransactionId client input.generated
    let cost ← chooseCost client input.cost
    Method.update fun query =>
      { query with queryPayment := some cost, nodeAccountIds := query.nodeAccountIds.setLocked }
    let query ← Method.this
    Method.forEach (pushPayment encode input.moment) query.nodeAccountIds.list
  else pure ()

/-- The network is asked for nodes by a query that passes its checks and has none. -/
def asksForNodes (client : Client) (input : QueryPreparation) (query : Query) : Bool :=
  query.paymentTransactions.isEmpty && query.nodeAccountIds.isEmpty &&
    (if client.autoValidateChecksums then input.checksums else .ok ()).isOk

def prepareOn (client : Client) (input : QueryPreparation) : Method JsError (Query × Network) Unit :=
  fun (query, net) =>
    let (picked, net) :=
      if query.asksForNodes client input then
        (Network.getNodeAccountIdsForExecute input.draws input.now).run net
      else (.ok [], net)
    let (outcome, query) := (beforeExecute encode client picked input).run query
    (outcome, query, net)

/-! ## An attempt -/

/-- `_makeRequestAsync`: the payment in the header of the request. -/
def makeRequestAsync (moment : Nat) (generated : Timestamp) : QueryMethod PaymentTransaction := do
  let query ← Method.this
  match query.nodeAccountIds.current, query.queryPayment with
  | some nodeId, some amount =>
      Method.ofExcept (makePaymentTransaction encode (.withValidStart query.payerId generated) nodeId
        query.payer amount moment)
  | _, _ => Method.throwing (.typeError "Cannot read properties of null (reading 'negated')")

/-- `_shouldRetry` -/
def shouldRetry (precheckCode : Option Int) : QueryMethod (Status × ExecutionState) := do
  let status ← Method.ofExcept (Transaction.precheckStatus precheckCode)
  if status ∈ [Status.Busy, .Unknown, .PlatformTransactionNotCreated, .PlatformNotActive] then
    pure (status, .retry)
  else if status = .Ok then pure (status, .finished)
  else pure (status, .error)

/-- `_getTransactionId` -/
def getTransactionId : QueryMethod TransactionId := do
  let query ← Method.this
  match query.paymentTransactionId with
  | some id => pure id
  | none => Method.throwing (.error "Query.PaymentTransactionId was not set duration execution")

/-- `_mapStatusError` -/
def mapStatusError (precheckCode : Option Int) (nodeId : AccountId) : QueryMethod JsError := do
  let status ← Method.ofExcept (Transaction.precheckStatus precheckCode)
  let transactionId ← getTransactionId
  pure (.precheckStatus status.code nodeId transactionId)

/-! ## What is left alone -/

section

variable {encode} {kept : Nat × Option ℚ × Option ℚ × ℚ}

def HasSettings (kept : Nat × Option ℚ × Option ℚ × ℚ) (query : Query) : Prop :=
  query.toExecutable.settings = kept

theorem settings_pushPayment (moment : Nat → Nat) (nodeId : AccountId) :
    Method.Keeps (HasSettings kept) (pushPayment encode moment nodeId) := by
  refine .bind .this fun query => ?_
  cases query.paymentTransactionId with
  | none => exact .throwing _
  | some id =>
      cases query.queryPayment with
      | none => exact .throwing _
      | some amount => exact .bind (.ofExcept _) fun _ => .update fun _ h => h

theorem settings_chooseCost (client : Client) (cost : Except JsError Int) :
    Method.Keeps (HasSettings kept) (chooseCost client cost) := by
  refine .bind .this fun query => ?_
  cases query.queryPayment with
  | some payment => exact .pure _
  | none => exact .ite (.bind (.ofExcept _) fun _ => .ite (.throwing _) (.pure _)) (.pure _)

theorem settings_generatePaymentTransactionId (client : Client) (generated : Timestamp) :
    Method.Keeps (HasSettings kept) (generatePaymentTransactionId client generated) := by
  refine .bind .this fun query => .ite (.bind (.update fun _ h => h) fun _ => ?_) (.update fun _ h => h)
  cases query.operator with
  | none => exact .throwing _
  | some operator => exact .update fun _ h => h

theorem settings_beforeExecute (client : Client) (picked : Except JsError (List AccountId))
    (input : QueryPreparation) : Method.Keeps (HasSettings kept) (beforeExecute encode client picked input) :=
  .bind .this fun _ => .ite
    (.bind (.ofExcept _) fun _ =>
      .bind (.bind .this fun _ => .ite
        (.bind (.ofExcept _) fun _ => .bind (.ofExcept _) fun _ => .update fun _ h => h) (.pure _)) fun _ =>
      .bind (.update fun _ h => h) fun _ =>
      .bind (settings_generatePaymentTransactionId _ _) fun _ =>
      .bind (settings_chooseCost _ _) fun _ =>
      .bind (.update fun _ h => h) fun _ =>
      .bind .this fun _ => .forEach (settings_pushPayment _) _)
    (.pure _)

/-- Making a request changes nothing. -/
theorem makeRequestAsync_keeps (moment : Nat) (generated : Timestamp) (query : Query) :
    ((makeRequestAsync encode moment generated).run query).2 = query := by
  rw [makeRequestAsync, Method.run_this_bind]
  cases query.nodeAccountIds.current with
  | none => rfl
  | some nodeId =>
      cases query.queryPayment with
      | none => rfl
      | some amount =>
          exact Method.Keeps.ofExcept (I := fun q => q = query) _ query rfl

theorem shouldRetry_keeps (precheckCode : Option Int) (query : Query) :
    ((shouldRetry precheckCode).run query).2 = query :=
  Method.Keeps.bind (I := fun q => q = query) (.ofExcept _)
    (fun _ => .ite (.pure _) (.ite (.pure _) (.pure _))) query rfl

end

def executableClass {Resp Out : Type} (subclass : QuerySubclass Resp Out) :
    ExecutableClass Query QueryPreparation PaymentTransaction Resp Out where
  base := toExecutable
  withBase base query := { query with toExecutable := base }
  beforeExecute := prepareOn encode
  getLogId := pure ()
  makeRequest := makeRequestAsync encode
  shouldRetry _ response _ := shouldRetry (subclass.nodeTransactionPrecheckCode response)
  mapStatusError _ response := mapStatusError (subclass.nodeTransactionPrecheckCode response)
  mapResponse response nodeId request := Method.ofExcept (subclass.mapResponse response nodeId request)
  movesCursor _ := false
  movesCursor_nodeIds _ _ := rfl
  base_withBase _ _ := rfl
  beforeExecute_settings client input query _ :=
    settings_beforeExecute client _ input query rfl
  getLogId_keeps _ := rfl
  makeRequest_base moment generated query :=
    congrArg toExecutable (makeRequestAsync_keeps moment generated query)
  shouldRetry_base _ _ _ query := congrArg toExecutable (shouldRetry_keeps _ query)

end Query

end HederaSdk
