import HederaSdk.Execution.Answers
import HederaSdk.Library.Runs
import HederaSdk.Query.Session
import HederaSdk.Record.ReceiptBytes

/-!
# Waiting for receipts and records

The queries for a receipt and for a record are asked again until the status of the transaction is
known. They judge a response twice: the precheck of the query, and the status of the receipt
that came with it.

A user sets a query and executes it, as often as wanted. Each request asks for what is set then, but for
the duplicates of a record: the setter and the request of a record query use different fields.

An error keeps the text that it is thrown with.
-/

namespace HederaSdk

open Library ExecutableClass

namespace Status

def ReceiptNotFound : Status := ⟨18, "RECEIPT_NOT_FOUND"⟩

def RecordNotFound : Status := ⟨19, "RECORD_NOT_FOUND"⟩

def ContractRevertExecuted : Status := ⟨33, "CONTRACT_REVERT_EXECUTED"⟩

def FeeScheduleFilePartUploaded : Status := ⟨104, "FEE_SCHEDULE_FILE_PART_UPLOADED"⟩

def isKnown (code : Int) : Bool := all.any fun status => status.code = code

end Status

/-- `new ReceiptStatusError` -/
def receiptStatusError (transactionId : TransactionId) (status : Status) : JsError :=
  .error s!"receipt for transaction {transactionId.toString} contained error status {status.name}"

/-- `new RecordStatusError` -/
def recordStatusError (transactionId : TransactionId) (status : Status) : JsError :=
  .error s!"Record for transaction {transactionId.toString} contained error status {status.name}"

/-! ## The queries -/

/-- What the classes add to a query. The setter of the duplicates of a record query sets
`duplicates`. -/
structure PollSettings where
  transactionId : Option TransactionId := none
  includeChildren : Option Bool := none
  includeDuplicates : Option Bool := none
  duplicates : Option Bool := none
  validateStatus : Bool := true
  deriving DecidableEq

/-- A query for what became of a transaction. -/
structure PollQuery extends Query, PollSettings

/-- What is sent: the header with its payment, and the transaction that is asked for. -/
structure PollRequest where
  payment : PaymentTransaction
  transactionID : Option TransactionId
  includeDuplicates : Option Bool
  includeChildren : Option Bool

abbrev PollMethod := Method JsError PollQuery

namespace PollQuery

def onQuery {α : Type} (m : QueryMethod α) : PollMethod α :=
  Method.zoom PollQuery.toQuery (fun query poll => { poll with toQuery := query }) m

/-- The query is only read. -/
def Reads {α : Type} (m : PollMethod α) : Prop := ∀ own : PollQuery, Method.Keeps (fun poll => poll = own) m

theorem reads_getTransactionId : Reads (onQuery Query.getTransactionId) := by
  rintro own poll rfl
  rw [onQuery, Method.run_zoom, Query.getTransactionId, Method.run_this_bind]
  cases poll.paymentTransactionId <;> rfl

/-- What a class of such queries makes of a response. -/
structure Subclass (Resp Out : Type) where
  verdict : Bool → Resp → Except JsError (Status × ExecutionState)
  mapStatusError : Resp → AccountId → PollMethod JsError
  mapResponse : Resp → Except JsError Out
  reads_mapStatusError : ∀ response nodeId, Reads (mapStatusError response nodeId)

variable (encode : PaymentBody → Bytes)

def prepareOn (client : Client) (input : QueryPreparation) : Method JsError (PollQuery × Network) Unit :=
  Method.zoom (fun part => (part.1.toQuery, part.2))
    (fun prepared part => ({ part.1 with toQuery := prepared.1 }, prepared.2))
    (Query.prepareOn encode client input)

/-- `_makeRequestAsync`, with `_onMakeRequest` of the class. -/
def makeRequestAsync (moment : Nat) (generated : Timestamp) : PollMethod PollRequest := do
  let payment ← onQuery (Query.makeRequestAsync encode moment generated)
  let poll ← Method.this
  pure
    { payment
      transactionID := poll.transactionId
      includeDuplicates := poll.includeDuplicates
      includeChildren := poll.includeChildren }

def shouldRetry {Resp Out : Type} (subclass : Subclass Resp Out) (response : Resp) :
    PollMethod (Status × ExecutionState) := do
  let poll ← Method.this
  Method.ofExcept (subclass.verdict poll.validateStatus response)

theorem makeRequestAsync_keeps (moment : Nat) (generated : Timestamp) (poll : PollQuery) :
    ((makeRequestAsync encode moment generated).run poll).2 = poll := by
  have kept := @Query.makeRequestAsync_keeps encode moment generated poll.toQuery
  have asked : ((onQuery (Query.makeRequestAsync encode moment generated)).run poll).2 = poll := by
    rw [onQuery, Method.run_zoom, kept]
  rw [makeRequestAsync, Method.run_bind_snd _ poll fun _ _ => rfl]
  exact asked

theorem shouldRetry_keeps {Resp Out : Type} (subclass : Subclass Resp Out) (response : Resp)
    (poll : PollQuery) : ((shouldRetry subclass response).run poll).2 = poll := by
  rw [shouldRetry, Method.run_this_bind]
  exact Method.Keeps.ofExcept (I := fun p => p = poll) _ poll rfl

def executableClass {Resp Out : Type} (subclass : Subclass Resp Out) :
    ExecutableClass PollQuery QueryPreparation PollRequest Resp Out where
  base poll := poll.toExecutable
  withBase base poll := { poll with toExecutable := base }
  beforeExecute := prepareOn encode
  getLogId := pure ()
  makeRequest := makeRequestAsync encode
  shouldRetry _ response _ := shouldRetry subclass response
  mapStatusError _ response := subclass.mapStatusError response
  mapResponse response _ _ := Method.ofExcept (subclass.mapResponse response)
  movesCursor _ := false
  movesCursor_nodeIds _ _ := rfl
  base_withBase _ _ := rfl
  beforeExecute_settings client input poll net := by
    rw [prepareOn, Method.run_zoom]
    exact Query.settings_beforeExecute client _ input poll.toQuery rfl
  getLogId_keeps _ := rfl
  makeRequest_base moment generated poll :=
    congrArg (fun p : PollQuery => p.toExecutable) (makeRequestAsync_keeps encode moment generated poll)
  shouldRetry_base _ response _ poll :=
    congrArg (fun p : PollQuery => p.toExecutable) (shouldRetry_keeps subclass response poll)

variable {encode} {Resp Out : Type} {subclass : Subclass Resp Out}

/-- An execution leaves alone what the class adds. -/
theorem keeping_settings (settings : PollSettings) :
    (executableClass encode subclass).Keeping fun poll => poll.toPollSettings = settings where
  setNodeIds _ _ same := same
  makeRequest moment generated poll same := by
    rw [show ((executableClass encode subclass).makeRequest moment generated).run poll =
      (makeRequestAsync encode moment generated).run poll from rfl, makeRequestAsync_keeps]
    exact same
  shouldRetry request response generated poll same := by
    rw [show ((executableClass encode subclass).shouldRetry request response generated).run poll =
      (shouldRetry subclass response).run poll from rfl, shouldRetry_keeps]
    exact same
  mapStatusError request response nodeId poll same := by
    have kept := subclass.reads_mapStatusError response nodeId poll poll rfl
    rw [show ((executableClass encode subclass).mapStatusError request response nodeId).run poll =
      (subclass.mapStatusError response nodeId).run poll from rfl, kept]
    exact same
  mapResponse _ _ _ := .ofExcept _

theorem prepare_settings {client : Client} {requestTimeout : Option ℚ} {schedule : Schedule QueryPreparation Resp}
    {poll : PollQuery} {prepared : Run PollQuery PollRequest}
    (ready : ((executableClass encode subclass).prepare client requestTimeout schedule).run
      (Run.start client poll) = (.ok (), prepared)) : prepared.request.toPollSettings = poll.toPollSettings := by
  obtain ⟨request, network, before, same, _⟩ := prepare_eq_ok ready
  change (prepareOn encode client schedule.preparation).run _ = _ at before
  rw [prepareOn, Method.run_zoom] at before
  have after := congrArg (fun result => result.2.1.toPollSettings) before
  rw [same]
  exact after.symm

/-! ## Nodes that are set -/

/-- The nodes of a query and the cursor among them. -/
def HasNodes (l : List AccountId) (index : Nat) (query : Query) : Prop :=
  query.nodeAccountIds.list = l ∧ query.nodeAccountIds.index = index

theorem hasNodes_beforeExecute {l : List AccountId} {index : Nat} (nonempty : l ≠ []) (client : Client)
    (picked : Except JsError (List AccountId)) (input : QueryPreparation) :
    Method.Keeps (HasNodes l index) (Query.beforeExecute encode client picked input) := by
  have chosen : Method.Keeps (HasNodes l index) (Query.setNodeAccountIdsFrom picked) := by
    intro query has
    rw [Query.setNodeAccountIdsFrom, Method.run_this_bind,
      if_neg (by simpa [SdkList.isEmpty, has.1] using nonempty)]
    exact has
  have named : Method.Keeps (HasNodes l index) (Query.generatePaymentTransactionId client input.generated) := by
    refine .bind .this fun query => .ite (.bind (.update fun _ has => has) fun _ => ?_) (.update fun _ has => has)
    cases query.operator with
    | none => exact .throwing _
    | some operator => exact .update fun _ has => has
  have priced : Method.Keeps (HasNodes l index) (Query.chooseCost client input.cost) := by
    refine .bind .this fun query => ?_
    cases query.queryPayment with
    | some payment => exact .pure _
    | none => exact .ite (.bind (.ofExcept _) fun _ => .ite (.throwing _) (.pure _)) (.pure _)
  have paid (nodeId : AccountId) :
      Method.Keeps (HasNodes l index) (Query.pushPayment encode input.moment nodeId) := by
    refine .bind .this fun query => ?_
    cases query.paymentTransactionId with
    | none => exact .throwing _
    | some id =>
        cases query.queryPayment with
        | none => exact .throwing _
        | some amount => exact .bind (.ofExcept _) fun _ => .update fun _ has => has
  exact .bind .this fun _ => .ite
    (.bind (.ofExcept _) fun _ => .bind chosen fun _ => .bind (.update fun _ has => has) fun _ =>
      .bind named fun _ => .bind priced fun _ => .bind (.update fun _ has => has) fun _ =>
        .bind .this fun _ => .forEach paid _)
    (.pure _)

/-- A query with nodes asks no other. -/
theorem nodes_of_heardBy {client : Client} {requestTimeout : Option ℚ}
    {schedule : Schedule QueryPreparation Resp} {poll : PollQuery} (inList : InList poll.toExecutable)
    {answer : Answer PollRequest Resp}
    (member : answer ∈ (executableClass encode subclass).heardBy client requestTimeout schedule poll) :
    answer.nodeId ∈ poll.nodeAccountIds.list := by
  rw [heardBy] at member
  split at member
  · rename_i prepared ready
    obtain ⟨request, network, before, same, _⟩ := prepare_eq_ok ready
    change (prepareOn encode client schedule.preparation).run _ = _ at before
    rw [prepareOn, Method.run_zoom] at before
    have nonempty : poll.nodeAccountIds.list ≠ [] := List.ne_nil_of_length_pos (Nat.zero_lt_of_lt inList)
    have kept : HasNodes poll.nodeAccountIds.list poll.nodeAccountIds.index request.toQuery := by
      rw [← congrArg (fun result => result.2.1.toQuery) before]
      exact hasNodes_beforeExecute nonempty client _ schedule.preparation _ ⟨rfl, rfl⟩
    have nodes : ((executableClass encode subclass).base prepared.request).nodeAccountIds =
        request.nodeAccountIds := by rw [same]; rfl
    have found := @nodes_of_heard _ _ _ _ _ (executableClass encode subclass) prepared _ _ _ _ (by
      rw [InList, nodes, kept.1, kept.2]
      exact inList) _ member
    rwa [nodes, kept.1] at found
  · cases member

/-! ## Judging an answer -/

/-- The answer asks for another attempt. -/
def Waits (subclass : Subclass Resp Out) (validateStatus : Bool) (answer : Answer PollRequest Resp) : Prop :=
  (∃ e error, answer.outcome = .error e ∧ grpcServiceErrorFromResponse e = .ok error ∧
    isRetryable error = true) ∨
  ∃ response status, answer.outcome = .ok response ∧
    subclass.verdict validateStatus response = .ok (status, .retry)

/-- The answer ends the wait with a result. -/
def Settles (subclass : Subclass Resp Out) (validateStatus : Bool) (answer : Answer PollRequest Resp)
    (out : Out) : Prop :=
  ∃ response status, answer.outcome = .ok response ∧
    subclass.verdict validateStatus response = .ok (status, .finished) ∧ subclass.mapResponse response = .ok out

section

variable {settings : PollSettings} {answer : Answer PollRequest Resp}

theorem verdict_of_run {poll after : PollQuery} {response : Resp}
    {judged : Except JsError (Status × ExecutionState)} {validateStatus : Bool}
    (same : poll.validateStatus = validateStatus)
    (ran : (shouldRetry subclass response).run poll = (judged, after)) :
    subclass.verdict validateStatus response = judged := by
  rw [shouldRetry, Method.run_this_bind, same] at ran
  cases verdict : subclass.verdict validateStatus response <;> rw [verdict] at ran <;> cases ran <;> rfl

theorem result_of_run {poll after : PollQuery} {response : Resp} {result : Except JsError Out}
    (ran : (Method.ofExcept (subclass.mapResponse response) : PollMethod Out).run poll = (result, after)) :
    subclass.mapResponse response = result := by
  cases mapped : subclass.mapResponse response <;> rw [mapped] at ran <;> cases ran <;> rfl

theorem waits_of_again
    (judged : Judgement (executableClass encode subclass) (fun poll => poll.toPollSettings = settings) answer
      (.ok .again)) :
    Waits subclass settings.validateStatus answer := by
  cases judged with
  | retried failed read retryable => exact .inl ⟨_, _, failed, read, retryable⟩
  | pending answered holds verdict =>
      exact .inr ⟨_, _, answered, verdict_of_run (congrArg PollSettings.validateStatus holds) verdict⟩

theorem settles_of_finished {out : Out}
    (judged : Judgement (executableClass encode subclass) (fun poll => poll.toPollSettings = settings) answer
      (.ok (.finished out))) : Settles subclass settings.validateStatus answer out := by
  cases judged with
  | accepted answered holds verdict mapped =>
      exact ⟨_, _, answered, verdict_of_run (congrArg PollSettings.validateStatus holds) verdict, result_of_run mapped⟩

/-- An answer that settles the wait is judged as one. -/
theorem Settles.outcome {out : Out} (settles : Settles subclass settings.validateStatus answer out)
    {outcome : Except JsError (Step Out)}
    (judged : Judgement (executableClass encode subclass) (fun poll => poll.toPollSettings = settings) answer outcome) :
    outcome = .ok (.finished out) := by
  obtain ⟨response, status, answered, finished, mapped⟩ := settles
  have own {poll after : PollQuery} {other : Resp} {verdict : Except JsError (Status × ExecutionState)}
      (got : answer.outcome = .ok other) (holds : poll.toPollSettings = settings)
      (ran : (shouldRetry subclass other).run poll = (verdict, after)) :
      other = response ∧ verdict = .ok (status, .finished) := by
    obtain rfl := Except.ok.inj (answered.symm.trans got)
    exact ⟨rfl, (verdict_of_run (congrArg PollSettings.validateStatus holds) ran).symm.trans finished⟩
  cases judged with
  | unread failed => rw [answered] at failed; cases failed
  | retried failed => rw [answered] at failed; cases failed
  | thrown failed => rw [answered] at failed; cases failed
  | unjudged got holds verdict => cases (own got holds verdict).2
  | pending got holds verdict => cases (own got holds verdict).2
  | refused got holds verdict => cases (own got holds verdict).2
  | unrefused got holds verdict => cases (own got holds verdict).2
  | accepted got holds verdict ran =>
      obtain ⟨rfl, _⟩ := own got holds verdict
      rw [Except.ok.inj ((result_of_run ran).symm.trans mapped)]
  | unmapped got holds verdict ran =>
      obtain ⟨rfl, _⟩ := own got holds verdict
      cases (result_of_run ran).symm.trans mapped

/-- A wait returns what the last answer says, if that settles it, and nothing else. -/
theorem returns_iff {client : Client} {requestTimeout : Option ℚ} {schedule : Schedule QueryPreparation Resp}
    {poll : PollQuery} {outcome : Except JsError Out} {after : Run PollQuery PollRequest}
    (ran : ((executableClass encode subclass).execute client requestTimeout schedule).run
      (Run.start client poll) = (outcome, after)) {out : Out} :
    outcome = .ok out ↔
      ∃ earlier last, (executableClass encode subclass).heardBy client requestTimeout schedule poll =
          earlier ++ [last] ∧
        (∀ answer ∈ earlier, Waits subclass poll.validateStatus answer) ∧
        Settles subclass poll.validateStatus last out := by
  have decides := decides_heardBy (@keeping_settings encode _ _ subclass poll.toPollSettings)
    (fun prepared ready => prepare_settings ready) ran
  constructor
  · rintro rfl
    rcases decides.decided with ⟨_, e, failed⟩ | ⟨earlier, last, all, before, judged⟩
    · cases failed
    · exact ⟨earlier, last, all, fun answer member => waits_of_again (before answer member),
        settles_of_finished judged⟩
  · rintro ⟨earlier, last, all, _, settles⟩
    have settled {step : Except JsError (Step Out)} := @Settles.outcome encode _ _ subclass poll.toPollSettings last
      out settles step
    rcases decides.decided with ⟨again, _⟩ | ⟨others, final, same, _, judged⟩
    · cases settled (again last (by rw [all]; simp))
    · obtain ⟨_, one⟩ := List.append_inj' (all.symm.trans same) rfl
      rw [← List.singleton_inj.mp one] at judged
      cases outcome with
      | error e => cases settled judged
      | ok result =>
          cases settled judged
          rfl

theorem asks_of_heard {client : Client} {requestTimeout : Option ℚ} {schedule : Schedule QueryPreparation Resp}
    {poll : PollQuery} {answer : Answer PollRequest Resp}
    (member : answer ∈ (executableClass encode subclass).heardBy client requestTimeout schedule poll) :
    answer.request.transactionID = poll.transactionId ∧
      answer.request.includeDuplicates = poll.includeDuplicates ∧
      answer.request.includeChildren = poll.includeChildren := by
  rcases ran : ((executableClass encode subclass).execute client requestTimeout schedule).run
    (Run.start client poll) with ⟨outcome, run⟩
  have decides := decides_heardBy (@keeping_settings encode _ _ subclass poll.toPollSettings)
    (fun prepared ready => prepare_settings ready) ran
  obtain ⟨before, moment, generated, after, holds, made⟩ := decides.asked answer member
  obtain ⟨payment, paid, paying, made⟩ := Method.run_bind_eq_ok.mp made
  have same : paid.toPollSettings = poll.toPollSettings := by
    rw [onQuery, Method.run_zoom] at paying
    exact (congrArg (fun result => result.2.toPollSettings) paying.symm).trans holds
  rw [Method.run_this_bind] at made
  have request := Except.ok.inj (congrArg Prod.fst made)
  rw [← request]
  exact ⟨congrArg PollSettings.transactionId same, congrArg PollSettings.includeDuplicates same,
    congrArg PollSettings.includeChildren same⟩

end

end PollQuery

/-! ## Judging a response -/

/-- `_shouldRetry` of such a query, over the statuses that it retries and those that it takes for
a success. The status of the receipt is only read where it is needed. -/
def pollVerdict (retriedPrechecks retried successes : List Status) (validateStatus isCostAnswer : Bool)
    (precheck receiptStatus : Except JsError Status) : Except JsError (Status × ExecutionState) := do
  let status ← precheck
  if status ∈ retriedPrechecks then .ok (status, .retry)
  else if status ≠ .Ok then .ok (status, .error)
  else if isCostAnswer then .ok (status, .finished)
  else do
    let status ← receiptStatus
    if status ∈ retried then .ok (status, .retry)
    else if status ∈ successes then .ok (status, .finished)
    else .ok (status, if validateStatus then .error else .finished)

section

variable {retriedPrechecks retried successes : List Status} {isCostAnswer : Bool}
  {precheck receiptStatus : Except JsError Status}

theorem pollVerdict_of_ok (fresh : Status.Ok ∉ retriedPrechecks) (validateStatus : Bool) :
    pollVerdict retriedPrechecks retried successes validateStatus isCostAnswer (.ok .Ok) receiptStatus =
      if isCostAnswer then .ok (.Ok, .finished)
      else receiptStatus.bind fun status =>
        if status ∈ retried then .ok (status, .retry)
        else if status ∈ successes then .ok (status, .finished)
        else .ok (status, if validateStatus then .error else .finished) := by
  simp only [pollVerdict, bind, Except.bind, if_neg fresh, ne_eq, not_true_eq_false, if_false]

theorem pollVerdict_retry_iff (fresh : Status.Ok ∉ retriedPrechecks) :
    (∃ status, pollVerdict retriedPrechecks retried successes true isCostAnswer precheck receiptStatus =
        .ok (status, .retry)) ↔
      (∃ status ∈ retriedPrechecks, precheck = .ok status) ∨
        precheck = .ok .Ok ∧ isCostAnswer = false ∧ ∃ status ∈ retried, receiptStatus = .ok status := by
  cases precheck with
  | error e => simp [pollVerdict, bind, Except.bind]
  | ok status =>
      by_cases ok : status = .Ok
      · subst ok
        rw [pollVerdict_of_ok fresh]
        cases isCostAnswer with
        | true => simp [fresh]
        | false =>
            cases receiptStatus with
            | error e => simp [Except.bind, fresh]
            | ok status =>
                by_cases pending : status ∈ retried
                · simp [Except.bind, fresh, pending]
                · by_cases success : status ∈ successes <;> simp [Except.bind, fresh, pending, success]
      · by_cases waits : status ∈ retriedPrechecks <;> simp [pollVerdict, bind, Except.bind, waits, ok]

theorem pollVerdict_finished_iff (fresh : Status.Ok ∉ retriedPrechecks)
    (apart : ∀ status ∈ retried, status ∉ successes) :
    (∃ status, pollVerdict retriedPrechecks retried successes true isCostAnswer precheck receiptStatus =
        .ok (status, .finished)) ↔
      precheck = .ok .Ok ∧ (isCostAnswer = true ∨ ∃ status ∈ successes, receiptStatus = .ok status) := by
  cases precheck with
  | error e => simp [pollVerdict, bind, Except.bind]
  | ok status =>
      by_cases ok : status = .Ok
      · subst ok
        rw [pollVerdict_of_ok fresh]
        cases isCostAnswer with
        | true => simp
        | false =>
            cases receiptStatus with
            | error e => simp [Except.bind]
            | ok status =>
                by_cases pending : status ∈ retried
                · simp [Except.bind, pending, apart status pending]
                · by_cases success : status ∈ successes <;> simp [Except.bind, pending, success]
      · by_cases waits : status ∈ retriedPrechecks <;> simp [pollVerdict, bind, Except.bind, waits, ok]

end

/-! ## Receipts -/

/-- A `TransactionGetReceiptResponse`. -/
structure ReceiptResponse where
  nodeTransactionPrecheckCode : Option Int
  transactionGetReceipt : ReceiptCodec.Response ReceiptCodec.Message

namespace TransactionReceiptQuery

/-- `Status._fromCode` of the status of the receipt. -/
def receiptStatus (response : ReceiptResponse) : Except JsError Status :=
  match response.transactionGetReceipt.receipt with
  | none => .error (.typeError "Cannot read properties of null (reading 'status')")
  | some receipt => Status.fromCode receipt.status

def retriedPrechecks : List Status := [.Busy, .Unknown, .ReceiptNotFound, .PlatformNotActive]

def retried : List Status := [.Busy, .Unknown, .ReceiptNotFound]

def successes : List Status := [.Success, .FeeScheduleFilePartUploaded]

/-- The judgement of `_shouldRetry`. -/
def verdict (validateStatus : Bool) (response : ReceiptResponse) : Except JsError (Status × ExecutionState) :=
  pollVerdict retriedPrechecks retried successes validateStatus false
    (Transaction.precheckStatus response.nodeTransactionPrecheckCode) (receiptStatus response)

/-- The node does not know yet what became of the transaction. -/
def IsUnsettled (response : ReceiptResponse) : Prop :=
  (∃ status ∈ retriedPrechecks,
    Transaction.precheckStatus response.nodeTransactionPrecheckCode = .ok status) ∨
  Transaction.precheckStatus response.nodeTransactionPrecheckCode = .ok .Ok ∧
    ∃ status ∈ retried, receiptStatus response = .ok status

/-- The transaction was successful. -/
def IsSuccess (response : ReceiptResponse) : Prop :=
  Transaction.precheckStatus response.nodeTransactionPrecheckCode = .ok .Ok ∧
    ∃ status ∈ successes, receiptStatus response = .ok status

theorem verdict_retry_iff {response : ReceiptResponse} :
    (∃ status, verdict true response = .ok (status, .retry)) ↔ IsUnsettled response := by
  rw [IsUnsettled]
  simpa [verdict] using @pollVerdict_retry_iff retriedPrechecks retried successes false _ _ (by decide)

theorem verdict_finished_iff {response : ReceiptResponse} :
    (∃ status, verdict true response = .ok (status, .finished)) ↔ IsSuccess response := by
  rw [IsSuccess]
  simpa [verdict] using @pollVerdict_finished_iff retriedPrechecks retried successes false _ _ (by decide) (by decide)

variable (keys : KeyCodec)

def mapResponse (response : ReceiptResponse) : Except JsError ReceiptCodec.TransactionReceipt :=
  ReceiptCodec.TransactionReceipt.fromProtobuf keys Status.isKnown response.transactionGetReceipt

/-- `_getTransactionId` -/
def getTransactionId : PollMethod TransactionId := do
  let poll ← Method.this
  match poll.transactionId with
  | some id => pure id
  | none => PollQuery.onQuery Query.getTransactionId

/-- `_mapStatusError` -/
def mapStatusError (response : ReceiptResponse) (nodeId : AccountId) : PollMethod JsError := do
  let status ← Method.ofExcept (Transaction.precheckStatus response.nodeTransactionPrecheckCode)
  if status ≠ .Ok then do
    let transactionId ← getTransactionId
    pure (.precheckStatus status.code nodeId transactionId)
  else do
    let status ← Method.ofExcept (receiptStatus response)
    let poll ← Method.this
    match poll.transactionId with
    | none => Method.throwing (.error
        "Failed to construct `ReceiptStatusError` because `transactionId` is `null`")
    | some transactionId => do
        let _ ← Method.ofExcept (mapResponse keys response)
        pure (receiptStatusError transactionId status)

theorem reads_mapStatusError (response : ReceiptResponse) (nodeId : AccountId) :
    PollQuery.Reads (mapStatusError keys response nodeId) := by
  intro own
  refine .bind (.ofExcept _) fun status => .ite (.bind (.bind .this fun poll => ?_) fun _ => .pure _)
    (.bind (.ofExcept _) fun known => .bind .this fun poll => ?_)
  · cases poll.transactionId with
    | some id => exact .pure id
    | none => exact PollQuery.reads_getTransactionId own
  · cases poll.transactionId with
    | none => exact .throwing _
    | some id => exact .bind (.ofExcept _) fun _ => .pure _

def subclass : PollQuery.Subclass ReceiptResponse ReceiptCodec.TransactionReceipt where
  verdict := verdict
  mapStatusError := mapStatusError keys
  mapResponse := mapResponse keys
  reads_mapStatusError := reads_mapStatusError keys

end TransactionReceiptQuery

/-! ## Records -/

/-- A `TransactionGetRecordResponse`; the status is that of the receipt in the record. -/
structure RecordResponse where
  nodeTransactionPrecheckCode : Option Int
  isCostAnswer : Bool := false
  transactionGetRecord : Wire.TransactionGetRecordResponse
  status : Int

namespace TransactionRecordQuery

def receiptStatus (response : RecordResponse) : Except JsError Status :=
  match response.transactionGetRecord.transactionRecord with
  | none => .error (.typeError "Cannot read properties of null (reading 'receipt')")
  | some record =>
      match record.receipt with
      | none => .error (.typeError "Cannot read properties of null (reading 'status')")
      | some _ => Status.fromCode response.status

def retriedPrechecks : List Status :=
  [.Busy, .Unknown, .ReceiptNotFound, .RecordNotFound, .PlatformNotActive]

def retried : List Status := [.Ok, .Busy, .Unknown, .ReceiptNotFound, .RecordNotFound]

/-- The judgement of `_shouldRetry`. -/
def verdict (validateReceiptStatus : Bool) (response : RecordResponse) :
    Except JsError (Status × ExecutionState) :=
  pollVerdict retriedPrechecks retried [.Success] validateReceiptStatus response.isCostAnswer
    (Transaction.precheckStatus response.nodeTransactionPrecheckCode) (receiptStatus response)

/-- The node does not know yet what became of the transaction. -/
def IsUnsettled (response : RecordResponse) : Prop :=
  (∃ status ∈ retriedPrechecks,
    Transaction.precheckStatus response.nodeTransactionPrecheckCode = .ok status) ∨
  Transaction.precheckStatus response.nodeTransactionPrecheckCode = .ok .Ok ∧
    response.isCostAnswer = false ∧ ∃ status ∈ retried, receiptStatus response = .ok status

/-- The transaction was successful, or only the cost is answered. -/
def IsSuccess (response : RecordResponse) : Prop :=
  Transaction.precheckStatus response.nodeTransactionPrecheckCode = .ok .Ok ∧
    (response.isCostAnswer = true ∨ receiptStatus response = .ok .Success)

theorem verdict_retry_iff {response : RecordResponse} :
    (∃ status, verdict true response = .ok (status, .retry)) ↔ IsUnsettled response :=
  pollVerdict_retry_iff (by decide)

theorem verdict_finished_iff {response : RecordResponse} :
    (∃ status, verdict true response = .ok (status, .finished)) ↔ IsSuccess response := by
  rw [IsSuccess]
  simpa [verdict] using @pollVerdict_finished_iff retriedPrechecks retried [.Success] response.isCostAnswer _ _
    (by decide) (by decide)

variable (keys : KeyCodec)

def mapResponse (response : RecordResponse) : Except JsError TransactionRecord :=
  TransactionRecord.fromProtobuf keys response.transactionGetRecord

/-- The record without its duplicates and children, as an error carries it. -/
def recordAlone (response : RecordResponse) : Except JsError TransactionRecord :=
  TransactionRecord.fromProtobuf keys
    { transactionRecord := response.transactionGetRecord.transactionRecord }

/-- `_mapStatusError`; the id is that of the payment. -/
def mapStatusError (response : RecordResponse) (nodeId : AccountId) : PollMethod JsError := do
  let status ← Method.ofExcept (Transaction.precheckStatus response.nodeTransactionPrecheckCode)
  if status = .ContractRevertExecuted then do
    let transactionId ← PollQuery.onQuery Query.getTransactionId
    let _ ← Method.ofExcept (recordAlone keys response)
    pure (recordStatusError transactionId status)
  else if status ≠ .Ok then do
    let transactionId ← PollQuery.onQuery Query.getTransactionId
    pure (.precheckStatus status.code nodeId transactionId)
  else do
    let status ← Method.ofExcept (receiptStatus response)
    let transactionId ← PollQuery.onQuery Query.getTransactionId
    if status = .ContractRevertExecuted then do
      let _ ← Method.ofExcept (recordAlone keys response)
      pure (recordStatusError transactionId status)
    else do
      let _ ← Method.ofExcept (TransactionReceipt.fromProtobuf
        (response.transactionGetRecord.transactionRecord.bind (·.receipt)))
      pure (receiptStatusError transactionId status)

theorem reads_mapStatusError (response : RecordResponse) (nodeId : AccountId) :
    PollQuery.Reads (mapStatusError keys response nodeId) := by
  intro own
  have payment := PollQuery.reads_getTransactionId own
  exact .bind (.ofExcept _) fun status => .ite (.bind payment fun _ => .bind (.ofExcept _) fun _ => .pure _)
    (.ite (.bind payment fun _ => .pure _)
      (.bind (.ofExcept _) fun known => .bind payment fun _ =>
        .ite (.bind (.ofExcept _) fun _ => .pure _) (.bind (.ofExcept _) fun _ => .pure _)))

def subclass : PollQuery.Subclass RecordResponse TransactionRecord where
  verdict := verdict
  mapStatusError := mapStatusError keys
  mapResponse := mapResponse keys
  reads_mapStatusError := reads_mapStatusError keys

end TransactionRecordQuery

/-! ## What is asked for -/

namespace TransactionReceiptQuery

def setIncludeDuplicates (includeDuplicates : Bool) (poll : PollQuery) : PollQuery :=
  { poll with includeDuplicates := some includeDuplicates }

def getIncludeDuplicates (poll : PollQuery) : Bool := poll.includeDuplicates.getD false

end TransactionReceiptQuery

namespace TransactionRecordQuery

def setIncludeDuplicates (includeDuplicates : Bool) (poll : PollQuery) : PollQuery :=
  { poll with duplicates := some includeDuplicates }

def getIncludeDuplicates (poll : PollQuery) : Bool := poll.duplicates.getD false

end TransactionRecordQuery

namespace PollQuery

/-- What a user does with a query. Each execution is with a client as it is then. -/
inductive Call (Resp : Type) where
  | setTransactionId (id : TransactionId)
  | setIncludeChildren (includeChildren : Bool)
  | setIncludeDuplicates (includeDuplicates : Bool)
  | setValidateStatus (validateStatus : Bool)
  /-- A setter of the class `Query`. -/
  | ofQuery (set : Query → Query)
  | execute (client : Client) (requestTimeout : Option ℚ) (schedule : Schedule QueryPreparation Resp)

/-- The value of the last call that sets the duplicates. -/
def lastSet {Resp : Type} : Bool → List (Call Resp) → Bool
  | last, [] => last
  | _, .setIncludeDuplicates includeDuplicates :: rest => lastSet includeDuplicates rest
  | last, _ :: rest => lastSet last rest

/-- The two fields for the duplicates. -/
def flags (poll : PollQuery) : Option Bool × Option Bool := (poll.includeDuplicates, poll.duplicates)

section

variable (encode : PaymentBody → Bytes) {Resp Out : Type} (subclass : Subclass Resp Out)
  (setIncludeDuplicates : Bool → PollQuery → PollQuery)

def step (poll : PollQuery) : Call Resp → PollQuery
  | .setTransactionId id => { poll with transactionId := some id }
  | .setIncludeChildren includeChildren => { poll with includeChildren := some includeChildren }
  | .setIncludeDuplicates includeDuplicates => setIncludeDuplicates includeDuplicates poll
  | .setValidateStatus validateStatus => { poll with validateStatus }
  | .ofQuery set => { poll with toQuery := set poll.toQuery }
  | .execute client requestTimeout schedule =>
      (((executableClass encode subclass).execute client requestTimeout schedule).run
        (Run.start client poll)).2.request

variable {encode subclass setIncludeDuplicates}

theorem settings_execute (client : Client) (requestTimeout : Option ℚ)
    (schedule : Schedule QueryPreparation Resp) (poll : PollQuery) :
    (((executableClass encode subclass).execute client requestTimeout schedule).run
      (Run.start client poll)).2.request.toPollSettings = poll.toPollSettings := by
  have keeps := @keeping_settings encode _ _ subclass poll.toPollSettings
  refine keeps.execute (fun _ same => same) (fun _ same => same) ?_ (Run.start client poll) rfl
  rintro ⟨request, network⟩ same
  change (((prepareOn encode client schedule.preparation).run (request, network)).2.1).toPollSettings = _
  rw [prepareOn, Method.run_zoom]
  exact same

/-- Only the setter of the duplicates changes them. -/
theorem flags_step (poll : PollQuery) {call : Call Resp} (other : ∀ b, call ≠ .setIncludeDuplicates b) :
    (step encode subclass setIncludeDuplicates poll call).flags = poll.flags := by
  cases call with
  | setIncludeDuplicates b => exact absurd rfl (other b)
  | execute client requestTimeout schedule =>
      have same := @settings_execute encode _ _ subclass client requestTimeout schedule poll
      exact congrArg (fun settings : PollSettings => (settings.includeDuplicates, settings.duplicates)) same
  | _ => rfl

/-- The field that the setter sets has the value that was set last. -/
theorem field_runAll {field : Option Bool × Option Bool → Option Bool}
    (sets : ∀ b poll, field (setIncludeDuplicates b poll).flags = some b) (poll : PollQuery)
    (calls : List (Call Resp)) :
    (field (runAll (step encode subclass setIncludeDuplicates) poll calls).flags).getD false =
      lastSet ((field poll.flags).getD false) calls := by
  induction calls generalizing poll with
  | nil => rfl
  | cons call rest inductionHypothesis =>
      rw [runAll_cons, inductionHypothesis]
      cases call with
      | setIncludeDuplicates b => exact congrArg (fun set => lastSet (Option.getD set false) rest) (sets b poll)
      | _ => rw [flags_step poll (by simp)]; rfl

end

/-- Whatever was done with a query, a receipt query asks for duplicates as was set last. A record query
never does, though it says that it has what was set. -/
theorem duplicates_asked (encode : PaymentBody → Bytes) (keys : KeyCodec) (client : Client)
    (requestTimeout : Option ℚ) :
    (∀ calls schedule,
      let poll := runAll (step encode (TransactionReceiptQuery.subclass keys)
        TransactionReceiptQuery.setIncludeDuplicates) { isPaymentRequired := false } calls
      TransactionReceiptQuery.getIncludeDuplicates poll = lastSet false calls ∧
      ∀ answer ∈ (executableClass encode (TransactionReceiptQuery.subclass keys)).heardBy client requestTimeout
          schedule poll,
        answer.request.transactionID = poll.transactionId ∧
          answer.request.includeDuplicates.getD false = lastSet false calls) ∧
    ∀ calls schedule,
      let poll := runAll (step encode (TransactionRecordQuery.subclass keys)
        TransactionRecordQuery.setIncludeDuplicates) {} calls
      TransactionRecordQuery.getIncludeDuplicates poll = lastSet false calls ∧
      ∀ answer ∈ (executableClass encode (TransactionRecordQuery.subclass keys)).heardBy client requestTimeout
          schedule poll,
        answer.request.transactionID = poll.transactionId ∧ answer.request.includeDuplicates = none := by
  refine ⟨fun calls schedule => ?_, fun calls schedule => ?_⟩
  · have last := @field_runAll encode _ _ (TransactionReceiptQuery.subclass keys)
      TransactionReceiptQuery.setIncludeDuplicates Prod.fst (fun _ _ => rfl) { isPaymentRequired := false } calls
    refine ⟨last, fun answer member => ?_⟩
    obtain ⟨id, duplicates, -⟩ := asks_of_heard member
    exact ⟨id, duplicates ▸ last⟩
  · have last := @field_runAll encode _ _ (TransactionRecordQuery.subclass keys)
      TransactionRecordQuery.setIncludeDuplicates Prod.snd (fun _ _ => rfl) {} calls
    refine ⟨last, fun answer member => ?_⟩
    obtain ⟨id, duplicates, -⟩ := asks_of_heard member
    refine ⟨id, duplicates.trans ?_⟩
    refine runAll_invariant_all (I := fun poll : PollQuery => poll.includeDuplicates = none) ?_ calls rfl
    intro poll call none
    cases call with
    | execute client requestTimeout schedule =>
        have same := @settings_execute encode _ _ (TransactionRecordQuery.subclass keys) client requestTimeout
          schedule poll
        exact (congrArg PollSettings.includeDuplicates same).trans none
    | _ => exact none

end PollQuery

end HederaSdk
