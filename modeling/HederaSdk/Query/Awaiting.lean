import HederaSdk.Query.Polling

/-!
# Waiting for a transaction

A response names the node that took the transaction. That node alone is asked for the receipt, and
for the record once there is a successful receipt.
-/

namespace HederaSdk

open Library ExecutableClass

/-- `execute` without a timeout; the network is that of the client. -/
def PollQuery.execute (encode : PaymentBody → Bytes) {Resp Out : Type} (subclass : PollQuery.Subclass Resp Out)
    (client : Client) (schedule : Schedule QueryPreparation Resp) (poll : PollQuery) :
    Method JsError Network Out := fun network =>
  let client := { client with network }
  let result := ((executableClass encode subclass).execute client none schedule).run (Run.start client poll)
  (result.1, result.2.network)

namespace Transaction.TransactionResponse

/-! ## The queries of a response -/

def queryFor (isPaymentRequired : Bool) (response : TransactionResponse) : PollQuery where
  toQuery := Query.setNodeAccountIds [response.nodeId] { isPaymentRequired }
  transactionId := some response.transactionId

def getReceiptQuery (response : TransactionResponse) : PollQuery := response.queryFor false

def getRecordQuery (response : TransactionResponse) : PollQuery := response.queryFor true

section

variable (encode : PaymentBody → Bytes) (keys : KeyCodec) (client : Client)
  (receipts : Schedule QueryPreparation ReceiptResponse) (records : Schedule QueryPreparation RecordResponse)
  (response : TransactionResponse)

def executeReceiptQuery : Method JsError Network ReceiptCodec.TransactionReceipt :=
  PollQuery.execute encode (TransactionReceiptQuery.subclass keys) client receipts response.getReceiptQuery

def executeRecordQuery : Method JsError Network TransactionRecord :=
  PollQuery.execute encode (TransactionRecordQuery.subclass keys) client records response.getRecordQuery

def getReceipt : Method JsError Network ReceiptCodec.TransactionReceipt := do
  let receipt ← executeReceiptQuery encode keys client receipts response
  let status ← Method.ofExcept (Status.fromCode receipt.status)
  if status ∉ [.Success, .FeeScheduleFilePartUploaded] then
    Method.throwing (receiptStatusError response.transactionId status)
  else pure receipt

def getRecord : Method JsError Network TransactionRecord := do
  let _ ← getReceipt encode keys client receipts response
  executeRecordQuery encode keys client records response

/-- The record is asked for once, with or without a receipt. -/
def getVerboseRecord : Method JsError Network TransactionRecord := fun network =>
  match (executeReceiptQuery encode keys client receipts response).run network with
  | (.ok _, network) => (executeRecordQuery encode keys client records response).run network
  | (.error _, network) => (executeRecordQuery encode keys client records response).run network

/-- The answers to the requests for the receipt. -/
def heardForReceipt (network : Network) : List (Answer PollRequest ReceiptResponse) :=
  (PollQuery.executableClass encode (TransactionReceiptQuery.subclass keys)).heardBy { client with network } none
    receipts response.getReceiptQuery

/-- The answers to the requests for the record in `getRecord`. -/
def heardForRecord (network : Network) : List (Answer PollRequest RecordResponse) :=
  match (getReceipt encode keys client receipts response).run network with
  | (.ok _, network) =>
      (PollQuery.executableClass encode (TransactionRecordQuery.subclass keys)).heardBy { client with network } none
        records response.getRecordQuery
  | (.error _, _) => []

end

/-! ## What arrives -/

/-- The answer does not settle anything yet. -/
def Defers {Resp : Type} (IsUnsettled : Resp → Prop) (answer : Answer PollRequest Resp) : Prop :=
  (∃ e error, answer.outcome = .error e ∧ grpcServiceErrorFromResponse e = .ok error ∧
    isRetryable error = true) ∨
  ∃ message, answer.outcome = .ok message ∧ IsUnsettled message

/-- After answers that settle nothing the last one is a success, and it is read. -/
def Arrives {Resp Out : Type} (IsUnsettled IsSuccess : Resp → Prop) (mapResponse : Resp → Except JsError Out)
    (answers : List (Answer PollRequest Resp)) (out : Out) : Prop :=
  ∃ earlier last, answers = earlier ++ [last] ∧ (∀ answer ∈ earlier, Defers IsUnsettled answer) ∧
    ∃ message, last.outcome = .ok message ∧ IsSuccess message ∧ mapResponse message = .ok out

/-- The request asks the node of the response for its transaction. -/
def AsksFor {Resp : Type} (response : TransactionResponse) (answer : Answer PollRequest Resp) : Prop :=
  answer.nodeId = response.nodeId ∧ answer.request.transactionID = some response.transactionId

section

variable {encode : PaymentBody → Bytes} {Resp Out : Type} {subclass : PollQuery.Subclass Resp Out}
  {IsUnsettled IsSuccess : Resp → Prop} {client : Client} {schedule : Schedule QueryPreparation Resp}
  {response : TransactionResponse}

theorem inList_queryFor (required : Bool) : InList (response.queryFor required).toExecutable :=
  Nat.zero_lt_one

/-- A query of a response returns what arrives. -/
theorem execute_eq_ok_iff (unsettled : ∀ message,
      (∃ status, subclass.verdict true message = .ok (status, .retry)) ↔ IsUnsettled message)
    (success : ∀ message,
      (∃ status, subclass.verdict true message = .ok (status, .finished)) ↔ IsSuccess message)
    (required : Bool) (network : Network) {out : Out} :
    ((PollQuery.execute encode subclass client schedule (response.queryFor required)).run network).1 = .ok out ↔
      Arrives IsUnsettled IsSuccess subclass.mapResponse
        ((PollQuery.executableClass encode subclass).heardBy { client with network } none schedule
          (response.queryFor required)) out := by
  have waits (answer : Answer PollRequest Resp) :
      PollQuery.Waits subclass true answer ↔ Defers IsUnsettled answer := by
    simp only [PollQuery.Waits, Defers, ← unsettled, exists_and_left]
  have settles (answer : Answer PollRequest Resp) : PollQuery.Settles subclass true answer out ↔
      ∃ message, answer.outcome = .ok message ∧ IsSuccess message ∧ subclass.mapResponse message = .ok out := by
    simp only [PollQuery.Settles, ← success, exists_and_left, exists_and_right]
  simp only [Arrives, ← waits, ← settles]
  rcases ran : ((PollQuery.executableClass encode subclass).execute { client with network } none schedule).run
    (Run.start { client with network } (response.queryFor required)) with ⟨outcome, after⟩
  rw [show ((PollQuery.execute encode subclass client schedule (response.queryFor required)).run network).1 =
    outcome from congrArg Prod.fst ran]
  exact PollQuery.returns_iff ran

theorem asksFor_of_heardBy (required : Bool) (network : Network) {answer : Answer PollRequest Resp}
    (member : answer ∈ (PollQuery.executableClass encode subclass).heardBy { client with network } none schedule
      (response.queryFor required)) : response.AsksFor answer :=
  ⟨List.mem_singleton.mp (PollQuery.nodes_of_heardBy (inList_queryFor required) member),
    (PollQuery.asks_of_heard member).1⟩

end

/-! ## Receipts -/

section

variable {encode : PaymentBody → Bytes} {keys : KeyCodec} {client : Client}
  {receipts : Schedule QueryPreparation ReceiptResponse} {records : Schedule QueryPreparation RecordResponse}
  {response : TransactionResponse} {network : Network} {receipt : ReceiptCodec.TransactionReceipt}
  {record : TransactionRecord}

def ReceiptArrives (keys : KeyCodec) (answers : List (Answer PollRequest ReceiptResponse))
    (receipt : ReceiptCodec.TransactionReceipt) : Prop :=
  Arrives TransactionReceiptQuery.IsUnsettled TransactionReceiptQuery.IsSuccess
    (TransactionReceiptQuery.mapResponse keys) answers receipt

def RecordArrives (keys : KeyCodec) (answers : List (Answer PollRequest RecordResponse))
    (record : TransactionRecord) : Prop :=
  Arrives TransactionRecordQuery.IsUnsettled TransactionRecordQuery.IsSuccess
    (TransactionRecordQuery.mapResponse keys) answers record

theorem executeReceiptQuery_eq_ok_iff :
    ((executeReceiptQuery encode keys client receipts response).run network).1 = .ok receipt ↔
      ReceiptArrives keys (heardForReceipt encode keys client receipts response network) receipt :=
  execute_eq_ok_iff (fun _ => TransactionReceiptQuery.verdict_retry_iff)
    (fun _ => TransactionReceiptQuery.verdict_finished_iff) false network

/-- The status that a receipt is read with is that of its message. -/
theorem status_of_success {message : ReceiptResponse} (success : TransactionReceiptQuery.IsSuccess message)
    (read : TransactionReceiptQuery.mapResponse keys message = .ok receipt) :
    ∃ status ∈ TransactionReceiptQuery.successes, Status.fromCode receipt.status = .ok status := by
  obtain ⟨-, status, member, known⟩ := success
  obtain ⟨-, -, sent, has, origin⟩ := ReceiptCodec.TransactionReceipt.fromProtobuf_eq_ok.mp read
  have same := origin.status
  rw [ReceiptCodec.TransactionReceipt.fromCode] at same
  split at same
  · rw [TransactionReceiptQuery.receiptStatus, has] at known
    exact ⟨status, member, Except.ok.inj same ▸ known⟩
  · cases same

/-- A receipt that arrives passes the check that follows. -/
theorem getReceipt_eq (network : Network) :
    (getReceipt encode keys client receipts response).run network =
      (executeReceiptQuery encode keys client receipts response).run network := by
  rcases ran : (executeReceiptQuery encode keys client receipts response).run network with ⟨e | receipt, after⟩
  · rw [getReceipt, Method.run_bind_error ran]
  · have arrived := executeReceiptQuery_eq_ok_iff.mp (congrArg Prod.fst ran)
    obtain ⟨_, _, _, _, message, _, success, read⟩ := arrived
    obtain ⟨status, member, known⟩ := status_of_success success read
    have accepted : status ∈ [Status.Success, .FeeScheduleFilePartUploaded] := member
    rw [getReceipt, Method.run_bind_ok ran, known, Method.run_bind_ok (Method.run_ofExcept_ok _ _),
      if_neg (not_not_intro accepted)]
    rfl

/-- Where `getRecord` returns a record, `getVerboseRecord` returns it too. -/
theorem getVerboseRecord_of_getRecord
    (returned : ((getRecord encode keys client receipts records response).run network).1 = .ok record) :
    (getVerboseRecord encode keys client receipts records response).run network =
      (getRecord encode keys client receipts records response).run network := by
  have same := @getReceipt_eq encode keys client receipts response network
  rcases ran : (getReceipt encode keys client receipts response).run network with ⟨e | receipt, after⟩
  · rw [getRecord, Method.run_bind_error ran] at returned
    cases returned
  · rw [getRecord, Method.run_bind_ok ran]
    rw [ran] at same
    change (match (executeReceiptQuery encode keys client receipts response).run network with
      | (.ok _, network) => (executeRecordQuery encode keys client records response).run network
      | (.error _, network) => (executeRecordQuery encode keys client records response).run network) = _
    rw [← same]

end

end Transaction.TransactionResponse

end HederaSdk
