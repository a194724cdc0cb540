import HederaSdk.Record.TransactionRecord
import HederaSdk.Transaction.PrefixProto
import HederaSdk.Update.Keys

/-!
# Bytes of a receipt

A receipt is written with the receipts it comes with and read again. The rates are written as a set
also where there are none, and the reader takes the set for a set of two rates: a receipt that came
without its rates is written and never read.

The receipt of `TransactionRecord` has its rates only; this one has every field. What the
generated encoder and decoder do is `sent`: a scalar that is null is read as its default and a
64-bit number by its bits. The codes that are known are left open.
-/

namespace HederaSdk

open Js (Value)
open Library

structure ScheduleId where
  shard : Int
  realm : Int
  num : Int
  checksum : Option String := none
  deriving DecidableEq

namespace ScheduleId

def toProtobuf (id : ScheduleId) : Value := numbersMessage "scheduleNum" id.shard id.realm id.num

def fromProtobuf (id : Value) : ScheduleId where
  shard := readNumber "shardNum" id
  realm := readNumber "realmNum" id
  num := readNumber "scheduleNum" id

theorem fromProtobuf_toProtobuf (id : ScheduleId) :
    fromProtobuf id.toProtobuf = { id with checksum := none } := by
  obtain ⟨num, shard, realm⟩ :=
    @readNumber_numbersMessage "scheduleNum" (by decide) id.shard id.realm id.num
  rw [fromProtobuf, toProtobuf, num, shard, realm]

end ScheduleId

namespace ReceiptCodec

/-! ## Messages -/

/-- The fields `nanos` and `nonce` have 32 bits. -/
structure IsTransactionID (id : Value) : Prop where
  nanos : ∀ n ∈ ((id.get "transactionValidStart").get "nanos").toNumber?, Timestamp.toInt n = n
  nonce : ∀ n ∈ (id.get "nonce").toNumber?, Timestamp.toInt n = n

def TransactionID := { id : Value // IsTransactionID id }

/-- A receipt as it is decoded. -/
structure Message where
  status : Int := 0
  accountID : Option Value := none
  fileID : Option Value := none
  contractID : Option Value := none
  exchangeRate : Option Wire.ExchangeRateSet := none
  topicID : Option Value := none
  topicSequenceNumber : UInt64 := 0
  topicRunningHash : Bytes := []
  tokenID : Option Value := none
  newTotalSupply : UInt64 := 0
  scheduleID : Option Value := none
  scheduledTransactionID : Option TransactionID := none
  serialNumbers : List Int64 := []
  nodeId : UInt64 := 0

/-- A receipt as `_toProtobuf` returns it. -/
structure MessageObject where
  status : Int
  accountID : Option Value
  fileID : Option Value
  contractID : Option Value
  exchangeRate : Option Wire.ExchangeRateSet
  topicID : Option Value
  topicSequenceNumber : Option Int64
  topicRunningHash : Option Bytes
  tokenID : Option Value
  newTotalSupply : Option Int64
  scheduleID : Option Value
  scheduledTransactionID : Option TransactionID
  serialNumbers : List Int64
  nodeId : Option UInt64

/-- A `TransactionGetReceiptResponse` with its receipt, duplicates and children. -/
structure Response (μ : Type) where
  receipt : Option μ
  duplicateTransactionReceipts : List μ := []
  childTransactionReceipts : List μ := []

/-- The receipt that is decoded from the encoded one. -/
def MessageObject.sent (receipt : MessageObject) : Message where
  status := receipt.status
  accountID := receipt.accountID
  fileID := receipt.fileID
  contractID := receipt.contractID
  exchangeRate := receipt.exchangeRate
  topicID := receipt.topicID
  topicSequenceNumber := (receipt.topicSequenceNumber.map Int64.toUInt64).getD 0
  topicRunningHash := receipt.topicRunningHash.getD []
  tokenID := receipt.tokenID
  newTotalSupply := (receipt.newTotalSupply.map Int64.toUInt64).getD 0
  scheduleID := receipt.scheduleID
  scheduledTransactionID := receipt.scheduledTransactionID
  serialNumbers := receipt.serialNumbers
  nodeId := receipt.nodeId.getD 0

/-- `decode(encode(response).finish())` -/
def Response.sent (response : Response MessageObject) : Response Message where
  receipt := response.receipt.map (·.sent)
  duplicateTransactionReceipts := response.duplicateTransactionReceipts.map (·.sent)
  childTransactionReceipts := response.childTransactionReceipts.map (·.sent)

def Response.receipts {μ : Type} (response : Response μ) : List μ :=
  response.receipt.toList ++ response.duplicateTransactionReceipts ++ response.childTransactionReceipts

/-! ## The class -/

structure TransactionReceipt where
  status : Int
  accountId : Option AccountId
  fileId : Option FileId
  contractId : Option ContractId
  topicId : Option TopicId
  tokenId : Option TokenId
  scheduleId : Option ScheduleId
  exchangeRate : Option ExchangeRate
  nextExchangeRate : Option ExchangeRate
  topicSequenceNumber : Option Int64
  topicRunningHash : Option Bytes
  totalSupply : Option Int64
  scheduledTransactionId : Option TransactionId
  serials : List Int64
  duplicates : List TransactionReceipt
  children : List TransactionReceipt
  nodeId : Option UInt64

/-- A field that is read where it is there. -/
def readPresent {α β : Type} (read : α → Except JsError β) : Option α → Except JsError (Option β)
  | none => .ok none
  | some a => (read a).map some

theorem isTransactionID_toProtobuf (keys : KeyCodec) (id : TransactionId) :
    IsTransactionID (id.toProtobuf keys) := by
  have idem (n : Int) : Timestamp.toInt (Timestamp.toInt n) = Timestamp.toInt n := Int.bmod_bmod
  obtain ⟨accountId, validStart, scheduled, nonce⟩ := id
  constructor
  · intro n found
    cases found
    exact idem validStart.nanos
  · intro n found
    cases nonce with
    | none => cases found
    | some nonce =>
        cases found
        exact idem nonce

namespace TransactionReceipt

section

variable (keys : KeyCodec) (isStatus : Int → Bool)

/-- `_toProtobuf().receipt` -/
def message (receipt : TransactionReceipt) : MessageObject where
  status := receipt.status
  accountID := receipt.accountId.map (·.toProtobuf keys)
  fileID := receipt.fileId.map (·.toProtobuf)
  contractID := receipt.contractId.map (·.toValue)
  topicID := receipt.topicId.map (·.toProtobuf)
  tokenID := receipt.tokenId.map (·.toProtobuf)
  scheduleID := receipt.scheduleId.map (·.toProtobuf)
  topicRunningHash := receipt.topicRunningHash
  topicSequenceNumber := receipt.topicSequenceNumber
  exchangeRate := some
    { nextRate := receipt.nextExchangeRate.map ExchangeRate.toProtobuf
      currentRate := receipt.exchangeRate.map ExchangeRate.toProtobuf }
  scheduledTransactionID :=
    receipt.scheduledTransactionId.map fun id => ⟨id.toProtobuf keys, isTransactionID_toProtobuf keys id⟩
  serialNumbers := receipt.serials
  newTotalSupply := receipt.totalSupply
  nodeId := receipt.nodeId

def toProtobuf (receipt : TransactionReceipt) : Response MessageObject where
  duplicateTransactionReceipts := receipt.duplicates.map (message keys)
  childTransactionReceipts := receipt.children.map (message keys)
  receipt := some (receipt.message keys)

/-- `Status._fromCode` -/
def fromCode (code : Int) : Except JsError Int :=
  if isStatus code then .ok code
  else .error (.error s!"(BUG) Status.fromCode() does not handle code: {code}")

/-- One of the two rates, where the set is there. -/
def readRate (rate : Wire.ExchangeRateSet → Option Wire.ExchangeRate) :
    Option Wire.ExchangeRateSet → Except JsError (Option ExchangeRate) :=
  readPresent fun rates => ExchangeRate.fromProtobuf (rate rates)

/-- `_fromProtobuf` once the receipts beside the receipt are read. -/
def ofMessage (children duplicates : List TransactionReceipt) (receipt : Message) :
    Except JsError TransactionReceipt := do
  let status ← fromCode isStatus receipt.status
  let accountId ← readPresent (fun id => (AccountId.fromProtobuf keys id).mapError .error) receipt.accountID
  let exchangeRate ← readRate (·.currentRate) receipt.exchangeRate
  let nextExchangeRate ← readRate (·.nextRate) receipt.exchangeRate
  let scheduledTransactionId ←
    readPresent (fun id => (TransactionId.fromProtobuf keys id.1).mapError .error)
      receipt.scheduledTransactionID
  .ok
    { status
      accountId
      fileId := receipt.fileID.map FileId.fromProtobuf
      contractId := receipt.contractID.map ContractId.ofValue
      topicId := receipt.topicID.map TopicId.fromProtobuf
      tokenId := receipt.tokenID.map TokenId.fromProtobuf
      scheduleId := receipt.scheduleID.map ScheduleId.fromProtobuf
      exchangeRate
      nextExchangeRate
      topicSequenceNumber := some receipt.topicSequenceNumber.toInt64
      topicRunningHash := some receipt.topicRunningHash
      totalSupply := some receipt.newTotalSupply.toInt64
      scheduledTransactionId
      serials := receipt.serialNumbers
      children
      duplicates
      nodeId := some receipt.nodeId }

def fromProtobuf (response : Response Message) : Except JsError TransactionReceipt := do
  let children ← response.childTransactionReceipts.mapM (ofMessage keys isStatus [] [])
  let duplicates ← response.duplicateTransactionReceipts.mapM (ofMessage keys isStatus [] [])
  match response.receipt with
  | none => .error (.typeError "Cannot read properties of null (reading 'status')")
  | some receipt => ofMessage keys isStatus children duplicates receipt

/-- `fromBytes(receipt.toBytes())` -/
def throughBytes (receipt : TransactionReceipt) : Except JsError TransactionReceipt :=
  fromProtobuf keys isStatus (receipt.toProtobuf keys).sent

end

end TransactionReceipt

/-! ## What is read again -/

section Fields

variable {keys : KeyCodec}

theorem readPresent_map {α β : Type} {read : α → Except JsError β} {write : β → α} {value : Option β} :
    readPresent read (value.map write) = .ok value ↔ ∀ b ∈ value, read (write b) = .ok b := by
  cases value with
  | none => simp [readPresent]
  | some b =>
      rw [Option.map_some, readPresent, except_map_eq_ok]
      simp

/-- No alias that is a key stands beside an account number. -/
def NumberOrKey (keys : KeyCodec) (id : Value) : Prop :=
  ∀ key address, AccountId.readAlias keys (id.get "alias").toBytes? = .ok (some key, address) →
    (id.get "accountNum").toLong?.getD 0 = 0

theorem onWire_eq_iff {id : Value} {account : AccountId}
    (read : AccountId.fromProtobuf keys id = .ok account) : account.onWire = account ↔ NumberOrKey keys id := by
  obtain ⟨⟨aliasKey, address⟩, found, rfl⟩ := except_map_eq_ok.mp read
  cases aliasKey with
  | none =>
      refine iff_of_true rfl ?_
      intro key address' key_found
      rw [found] at key_found
      cases key_found
  | some key =>
      have noAddress : address = none := by
        unfold AccountId.readAlias at found
        split at found
        · cases found
        · split at found
          · cases found
          · obtain ⟨_, _, same⟩ := except_map_eq_ok.mp found
            cases same
            rfl
      subst noAddress
      constructor
      · intro same key' address' _
        exact (congrArg AccountId.num same).symm
      · intro zero
        have number := zero key none found
        simp only [AccountId.onWire, number]

theorem mapError_eq_ok {α : Type} {r : Except String α} {a : α} :
    r.mapError JsError.error = .ok a ↔ r = .ok a := by
  cases r with
  | error e => simp [Except.mapError]
  | ok b => simp [Except.mapError]

theorem accountId_again (faithful : keys.Faithful) {field : Option Value} {accountId : Option AccountId}
    (read : readPresent (fun id => (AccountId.fromProtobuf keys id).mapError .error) field = .ok accountId) :
    readPresent (fun id => (AccountId.fromProtobuf keys id).mapError .error)
        (accountId.map (·.toProtobuf keys)) = .ok accountId ↔
      ∀ id ∈ field, NumberOrKey keys id := by
  rw [readPresent_map]
  cases field with
  | none =>
      cases read
      simp
  | some id =>
      obtain ⟨account, found, rfl⟩ := except_map_eq_ok.mp read
      have first := mapError_eq_ok.mp found
      simp only [Option.mem_some_iff, forall_eq', AccountId.fromProtobuf_toProtobuf faithful,
        ← onWire_eq_iff first, Except.mapError, Except.ok.injEq]

theorem validStart_onWire {id : Value} (numbers : IsTransactionID id) :
    (Timestamp.fromProtobuf (id.get "transactionValidStart")).onWire =
      Timestamp.fromProtobuf (id.get "transactionValidStart") := by
  have nanos : Timestamp.toInt (((id.get "transactionValidStart").get "nanos").toNumber?.getD 0) =
      ((id.get "transactionValidStart").get "nanos").toNumber?.getD 0 := by
    have known := numbers.nanos
    generalize ((id.get "transactionValidStart").get "nanos").toNumber? = field at known ⊢
    cases field with
    | none => rfl
    | some n => exact known n rfl
  unfold Timestamp.fromProtobuf Timestamp.onWire
  simp only [nanos, Timestamp.mk.injEq, and_true]
  exact Int.bmod_bmod

theorem nonce_onWire {id : Value} (numbers : IsTransactionID id) :
    (((id.get "nonce").toNumber?.filter (· ≠ 0)).map Timestamp.toInt).filter (· ≠ 0) =
      (id.get "nonce").toNumber?.filter (· ≠ 0) := by
  have known := numbers.nonce
  generalize (id.get "nonce").toNumber? = field at known ⊢
  cases field with
  | none => rfl
  | some n =>
      have same : Timestamp.toInt n = n := known n rfl
      by_cases zero : n = 0
      · simp [zero, Option.filter]
      · simp [zero, same, Option.filter]

theorem transactionId_onWire_eq_iff {id : TransactionID} {transactionId : TransactionId}
    (read : TransactionId.fromProtobuf keys id.1 = .ok transactionId) :
    transactionId.onWire = transactionId ↔ NumberOrKey keys (id.1.get "accountID") := by
  unfold TransactionId.fromProtobuf at read
  split at read
  · cases read
  · obtain ⟨account, found, rfl⟩ := except_map_eq_ok.mp read
    rw [← onWire_eq_iff found]
    simp only [TransactionId.onWire, TransactionId.mk.injEq, validStart_onWire id.2, nonce_onWire id.2,
      and_true]

theorem transactionId_again (faithful : keys.Faithful) {field : Option TransactionID}
    {transactionId : Option TransactionId}
    (read : readPresent (fun id => (TransactionId.fromProtobuf keys id.1).mapError .error) field =
      .ok transactionId) :
    readPresent (fun id => (TransactionId.fromProtobuf keys id.1).mapError .error)
        (transactionId.map fun id =>
          (⟨id.toProtobuf keys, isTransactionID_toProtobuf keys id⟩ : TransactionID)) = .ok transactionId ↔
      ∀ id ∈ field, NumberOrKey keys (id.1.get "accountID") := by
  rw [readPresent_map]
  cases field with
  | none =>
      cases read
      simp
  | some id =>
      obtain ⟨given, found, rfl⟩ := except_map_eq_ok.mp read
      have first := mapError_eq_ok.mp found
      simp only [Option.mem_some_iff, forall_eq', TransactionId.fromProtobuf_toProtobuf faithful,
        ← transactionId_onWire_eq_iff first, Except.mapError, Except.ok.injEq]

theorem rate_again {message : Option Wire.ExchangeRate} {rate : ExchangeRate}
    (read : ExchangeRate.fromProtobuf message = .ok rate) :
    ExchangeRate.fromProtobuf (some rate.toProtobuf) = .ok rate := by
  cases message with
  | none => cases read
  | some message =>
      cases read
      have whole (seconds : Int) : Timestamp.toInt ((Timestamp.toInt seconds * 1000).tdiv 1000) * 1000 =
          Timestamp.toInt seconds * 1000 := by
        rw [Int.mul_tdiv_cancel _ (by decide)]
        exact congrArg (· * 1000) Int.bmod_bmod
      unfold ExchangeRate.fromProtobuf ExchangeRate.toProtobuf
      cases message.expirationTime with
      | none => rfl
      | some seconds => simp only [whole]

/-- The set is written with the rate that was read, if any. -/
theorem readRate_again {pick : Wire.ExchangeRateSet → Option Wire.ExchangeRate}
    {field : Option Wire.ExchangeRateSet} {rate : Option ExchangeRate}
    (read : TransactionReceipt.readRate pick field = .ok rate) {rates : Wire.ExchangeRateSet}
    (written : pick rates = rate.map ExchangeRate.toProtobuf) :
    TransactionReceipt.readRate pick (some rates) = .ok rate ↔ field.isSome := by
  unfold TransactionReceipt.readRate at read ⊢
  rw [readPresent, written]
  cases field with
  | none =>
      cases read
      exact iff_of_false nofun nofun
  | some set =>
      obtain ⟨rate, found, rfl⟩ := except_map_eq_ok.mp read
      rw [Option.map_some, rate_again found]
      exact iff_of_true rfl rfl

end Fields

/-- A receipt with its rates, whose accounts are a number or an alias. -/
structure Message.Rereadable (keys : KeyCodec) (receipt : Message) : Prop where
  rates : receipt.exchangeRate.isSome
  account : ∀ id ∈ receipt.accountID, NumberOrKey keys id
  payer : ∀ id ∈ receipt.scheduledTransactionID, NumberOrKey keys (id.1.get "accountID")

namespace TransactionReceipt

/-! ## Receipts that are read again -/

section Again

variable {keys : KeyCodec} {isStatus : Int → Bool}

/-- What a receipt has after it was read from a message. -/
structure ReadFrom (keys : KeyCodec) (isStatus : Int → Bool) (message : Message)
    (receipt : TransactionReceipt) : Prop where
  status : fromCode isStatus message.status = .ok receipt.status
  accountId : readPresent (fun id => (AccountId.fromProtobuf keys id).mapError .error) message.accountID =
    .ok receipt.accountId
  exchangeRate : readRate (·.currentRate) message.exchangeRate = .ok receipt.exchangeRate
  nextExchangeRate : readRate (·.nextRate) message.exchangeRate = .ok receipt.nextExchangeRate
  scheduledTransactionId :
    readPresent (fun id => (TransactionId.fromProtobuf keys id.1).mapError .error)
      message.scheduledTransactionID = .ok receipt.scheduledTransactionId
  fileId : message.fileID.map FileId.fromProtobuf = receipt.fileId
  contractId : message.contractID.map ContractId.ofValue = receipt.contractId
  topicId : message.topicID.map TopicId.fromProtobuf = receipt.topicId
  tokenId : message.tokenID.map TokenId.fromProtobuf = receipt.tokenId
  scheduleId : message.scheduleID.map ScheduleId.fromProtobuf = receipt.scheduleId
  topicSequenceNumber : some message.topicSequenceNumber.toInt64 = receipt.topicSequenceNumber
  topicRunningHash : some message.topicRunningHash = receipt.topicRunningHash
  totalSupply : some message.newTotalSupply.toInt64 = receipt.totalSupply
  serials : message.serialNumbers = receipt.serials
  nodeId : some message.nodeId = receipt.nodeId

theorem ofMessage_eq_ok {children duplicates : List TransactionReceipt} {message : Message}
    {receipt : TransactionReceipt} :
    ofMessage keys isStatus children duplicates message = .ok receipt ↔
      ReadFrom keys isStatus message receipt ∧ receipt.children = children ∧
        receipt.duplicates = duplicates := by
  constructor
  · intro read
    obtain ⟨status, readStatus, read⟩ := except_bind_eq_ok.mp read
    obtain ⟨accountId, readAccount, read⟩ := except_bind_eq_ok.mp read
    obtain ⟨exchangeRate, readRate, read⟩ := except_bind_eq_ok.mp read
    obtain ⟨nextExchangeRate, readNext, read⟩ := except_bind_eq_ok.mp read
    obtain ⟨scheduledTransactionId, readScheduled, read⟩ := except_bind_eq_ok.mp read
    cases read
    exact ⟨⟨readStatus, readAccount, readRate, readNext, readScheduled, rfl, rfl, rfl, rfl, rfl, rfl, rfl,
      rfl, rfl, rfl⟩, rfl, rfl⟩
  · rintro ⟨from_, rfl, rfl⟩
    obtain ⟨status, accountId, fileId, contractId, topicId, tokenId, scheduleId, exchangeRate,
      nextExchangeRate, topicSequenceNumber, topicRunningHash, totalSupply, scheduledTransactionId, serials,
      duplicates, children, nodeId⟩ := receipt
    obtain ⟨status, account, rate, next, scheduled, rfl, rfl, rfl, rfl, rfl, rfl, rfl, rfl, rfl, rfl⟩ := from_
    refine except_bind_eq_ok.mpr ⟨_, status, ?_⟩
    refine except_bind_eq_ok.mpr ⟨_, account, ?_⟩
    refine except_bind_eq_ok.mpr ⟨_, rate, ?_⟩
    refine except_bind_eq_ok.mpr ⟨_, next, ?_⟩
    exact except_bind_eq_ok.mpr ⟨_, scheduled, rfl⟩

theorem map_again {α : Type} {read : Value → α} {write : α → Value} {field : Option Value}
    {value : Option α} (known : field.map read = value) (again : ∀ v, read (write (read v)) = read v) :
    (value.map write).map read = value := by
  subst known
  cases field with
  | none => rfl
  | some v => exact congrArg some (again v)

theorem fromCode_again {code status : Int} (read : fromCode isStatus code = .ok status) :
    fromCode isStatus status = .ok status := by
  unfold fromCode at read ⊢
  split at read
  · rename_i known
    cases read
    rw [if_pos known]
  · cases read

/-- One receipt is read from what is written of it exactly when it came with its rates and its accounts
are a number or an alias. -/
theorem ReadFrom.again_iff (faithful : keys.Faithful) {message : Message} {receipt : TransactionReceipt}
    (origin : ReadFrom keys isStatus message receipt) :
    ReadFrom keys isStatus (receipt.message keys).sent receipt ↔ message.Rereadable keys := by
  have account := accountId_again faithful origin.accountId
  have scheduled := transactionId_again faithful origin.scheduledTransactionId
  have rate := @readRate_again _ _ _ origin.exchangeRate
    { nextRate := receipt.nextExchangeRate.map ExchangeRate.toProtobuf
      currentRate := receipt.exchangeRate.map ExchangeRate.toProtobuf } rfl
  have next := @readRate_again _ _ _ origin.nextExchangeRate
    { nextRate := receipt.nextExchangeRate.map ExchangeRate.toProtobuf
      currentRate := receipt.exchangeRate.map ExchangeRate.toProtobuf } rfl
  constructor
  · intro again
    exact ⟨rate.mp again.exchangeRate, account.mp again.accountId,
      scheduled.mp again.scheduledTransactionId⟩
  · intro rereadable
    refine
      { status := fromCode_again origin.status
        accountId := account.mpr rereadable.account
        exchangeRate := rate.mpr rereadable.rates
        nextExchangeRate := next.mpr rereadable.rates
        scheduledTransactionId := scheduled.mpr rereadable.payer
        fileId := ?_
        contractId := ?_
        topicId := ?_
        tokenId := ?_
        scheduleId := ?_
        topicSequenceNumber := ?_
        topicRunningHash := ?_
        totalSupply := ?_
        serials := rfl
        nodeId := ?_ }
    · exact map_again origin.fileId fun v => FileId.fromProtobuf_toProtobuf (.fromProtobuf v)
    · refine map_again origin.contractId fun v => ?_
      exact (congrArg ContractId.fromProtobuf (ContractIdMessage.ofValue_toValue _)).trans rfl
    · exact map_again origin.topicId fun v => TopicId.fromProtobuf_toProtobuf (.fromProtobuf v)
    · exact map_again origin.tokenId fun v => TokenId.fromProtobuf_toProtobuf (.fromProtobuf v)
    · exact map_again origin.scheduleId fun v => ScheduleId.fromProtobuf_toProtobuf (.fromProtobuf v)
    · unfold TransactionReceipt.message MessageObject.sent
      rw [← origin.topicSequenceNumber]
      rfl
    · unfold TransactionReceipt.message MessageObject.sent
      rw [← origin.topicRunningHash]
      rfl
    · unfold TransactionReceipt.message MessageObject.sent
      rw [← origin.totalSupply]
      rfl
    · unfold TransactionReceipt.message MessageObject.sent
      rw [← origin.nodeId]
      rfl

theorem mapM_again (faithful : keys.Faithful) {messages : List Message} {receipts : List TransactionReceipt}
    (read : messages.mapM (ofMessage keys isStatus [] []) = .ok receipts) :
    ((receipts.map (message keys)).map MessageObject.sent).mapM (ofMessage keys isStatus [] []) =
        .ok receipts ↔
      ∀ message ∈ messages, message.Rereadable keys := by
  induction messages generalizing receipts with
  | nil =>
      cases read
      simp [pure, Except.pure]
  | cons first rest inductionHypothesis =>
      rw [List.mapM_cons] at read
      obtain ⟨receipt, readFirst, read⟩ := except_bind_eq_ok.mp read
      obtain ⟨receipts, readRest, read⟩ := except_bind_eq_ok.mp read
      cases read
      obtain ⟨origin, children, duplicates⟩ := ofMessage_eq_ok.mp readFirst
      rw [List.forall_mem_cons, ← inductionHypothesis readRest, ← origin.again_iff faithful, List.map_cons,
        List.map_cons, List.mapM_cons]
      constructor
      · intro again
        obtain ⟨one, foundOne, again⟩ := except_bind_eq_ok.mp again
        obtain ⟨others, foundOthers, again⟩ := except_bind_eq_ok.mp again
        cases again
        exact ⟨(ofMessage_eq_ok.mp foundOne).1, foundOthers⟩
      · rintro ⟨one, others⟩
        refine except_bind_eq_ok.mpr ⟨receipt, ofMessage_eq_ok.mpr ⟨one, children, duplicates⟩, ?_⟩
        exact except_bind_eq_ok.mpr ⟨receipts, others, rfl⟩

theorem fromProtobuf_eq_ok {response : Response Message} {receipt : TransactionReceipt} :
    fromProtobuf keys isStatus response = .ok receipt ↔
      response.childTransactionReceipts.mapM (ofMessage keys isStatus [] []) = .ok receipt.children ∧
        response.duplicateTransactionReceipts.mapM (ofMessage keys isStatus [] []) =
            .ok receipt.duplicates ∧
          ∃ message, response.receipt = some message ∧ ReadFrom keys isStatus message receipt := by
  obtain ⟨named, duplicateReceipts, childReceipts⟩ := response
  constructor
  · intro read
    obtain ⟨children, readChildren, read⟩ := except_bind_eq_ok.mp read
    obtain ⟨duplicates, readDuplicates, read⟩ := except_bind_eq_ok.mp read
    cases named with
    | none => cases read
    | some message =>
        obtain ⟨origin, rfl, rfl⟩ := ofMessage_eq_ok.mp read
        exact ⟨readChildren, readDuplicates, message, rfl, origin⟩
  · rintro ⟨children, duplicates, message, rfl, origin⟩
    refine except_bind_eq_ok.mpr ⟨_, children, ?_⟩
    refine except_bind_eq_ok.mpr ⟨_, duplicates, ?_⟩
    exact ofMessage_eq_ok.mpr ⟨origin, rfl, rfl⟩

/-- A receipt that was read from a response is the one that is read from its bytes exactly when it and
every receipt beside it came with rates and with accounts that are a number or an alias. -/
theorem throughBytes_iff (faithful : keys.Faithful) {response : Response Message}
    {receipt : TransactionReceipt} (read : fromProtobuf keys isStatus response = .ok receipt) :
    receipt.throughBytes keys isStatus = .ok receipt ↔
      ∀ message ∈ response.receipts, message.Rereadable keys := by
  obtain ⟨children, duplicates, message, named, origin⟩ := fromProtobuf_eq_ok.mp read
  have receipts : response.receipts =
      message :: response.duplicateTransactionReceipts ++ response.childTransactionReceipts := by
    unfold Response.receipts
    rw [named]
    rfl
  rw [receipts, List.cons_append, List.forall_mem_cons, List.forall_mem_append,
    ← mapM_again faithful children, ← mapM_again faithful duplicates, ← origin.again_iff faithful]
  unfold throughBytes
  rw [fromProtobuf_eq_ok]
  constructor
  · rintro ⟨again, againDuplicates, written, same, own⟩
    cases same
    exact ⟨own, againDuplicates, again⟩
  · rintro ⟨own, againDuplicates, again⟩
    exact ⟨again, againDuplicates, _, rfl, own⟩

end Again

/-! ## Two responses -/

/-- The status 22 is `SUCCESS`. -/
def isSuccess (code : Int) : Bool := code = 22

/-- A response without rates. -/
def unrated : Response Message where
  receipt := some { status := 22, accountID := some ((AccountId.ofNum 5).toProtobuf prefixKeys) }

theorem unrated_not_read_again :
    ∃ receipt, fromProtobuf prefixKeys isSuccess unrated = .ok receipt ∧
      receipt.throughBytes prefixKeys isSuccess ≠ .ok receipt :=
  ⟨_, rfl, nofun⟩

def rate : Wire.ExchangeRate := { hbarEquiv := 30000, centEquiv := 580000, expirationTime := some 1700000000 }

def rates : Wire.ExchangeRateSet := { currentRate := some rate, nextRate := some rate }

/-- A response with rates, with a child and two duplicates. -/
def rated : Response Message where
  receipt := some
    { status := 22
      accountID := some ((AccountId.ofNum 5).toProtobuf prefixKeys)
      exchangeRate := some rates
      serialNumbers := [1, 2] }
  childTransactionReceipts := [{ status := 22, exchangeRate := some rates }]
  duplicateTransactionReceipts :=
    [{ status := 22, exchangeRate := some rates }, { status := 22, exchangeRate := some rates, nodeId := 3 }]

theorem rated_read_again :
    ∃ receipt, fromProtobuf prefixKeys isSuccess rated = .ok receipt ∧
      receipt.throughBytes prefixKeys isSuccess = .ok receipt := by
  refine ⟨_, rfl, (@throughBytes_iff _ _ prefixKeys_faithful rated _ rfl).mpr ?_⟩
  have noAlias : NumberOrKey prefixKeys ((AccountId.ofNum 5).toProtobuf prefixKeys) := by
    intro key address found
    cases found
  intro message inResponse
  simp only [rated, Response.receipts, Option.toList, List.cons_append, List.nil_append, List.mem_cons,
    List.not_mem_nil, or_false] at inResponse
  rcases inResponse with rfl | rfl | rfl | rfl
  · refine ⟨rfl, fun id given => ?_, nofun⟩
    cases given
    exact noAlias
  · exact ⟨rfl, nofun, nofun⟩
  · exact ⟨rfl, nofun, nofun⟩
  · exact ⟨rfl, nofun, nofun⟩

end TransactionReceipt

end ReceiptCodec

end HederaSdk
