import HederaSdk.Record.TransferMaps

/-!
# Transaction records

A record is written with its token transfers joined again from the two maps: for every
pair of a fungible list and an NFT list, either the fungible list under the common token
or both lists. So nothing is written when one of the maps is empty, and a list is written
once for each list on the other side.

Tokens are found to be the same by `===` on the `Long` objects of their numbers, which
are objects made for each map; whether two of them are one object is left open here. Of
the other fields of a record only the exchange rates of its receipt are modelled, since a
receipt without them cannot be read back.
-/

namespace HederaSdk

open Library
open Wire (TokenTransferList)

/-! ## Messages -/

namespace Wire

structure ExchangeRate where
  hbarEquiv : Int
  centEquiv : Int
  /-- In seconds. -/
  expirationTime : Option Int

structure ExchangeRateSet where
  currentRate : Option ExchangeRate
  nextRate : Option ExchangeRate

structure TransactionReceipt where
  exchangeRate : Option ExchangeRateSet

structure TransactionRecord where
  receipt : Option TransactionReceipt
  tokenTransferLists : List TokenTransferList := []

/-- Whether the receipt has its exchange rates. -/
def TransactionRecord.hasRates (record : TransactionRecord) : Bool :=
  record.receipt.any (·.exchangeRate.isSome)

structure TransactionGetRecordResponse where
  transactionRecord : Option TransactionRecord
  duplicateTransactionRecords : List TransactionRecord := []
  childTransactionRecords : List TransactionRecord := []

namespace TransactionGetRecordResponse

def tokenTransferLists (response : TransactionGetRecordResponse) : List TokenTransferList :=
  (response.transactionRecord.map (·.tokenTransferLists)).getD []

def records (response : TransactionGetRecordResponse) : List TransactionRecord :=
  response.transactionRecord.toList ++ response.childTransactionRecords ++
    response.duplicateTransactionRecords

end TransactionGetRecordResponse

end Wire

/-! ## Receipts -/

structure ExchangeRate where
  hbars : Int
  cents : Int
  /-- In milliseconds. -/
  expirationTime : Int

namespace ExchangeRate

def fromProtobuf : Option Wire.ExchangeRate → Except JsError ExchangeRate
  | none => .error (.typeError "Cannot read properties of null (reading 'hbarEquiv')")
  | some rate => .ok
      { hbars := rate.hbarEquiv
        cents := rate.centEquiv
        expirationTime :=
          match rate.expirationTime with
          | some seconds => Timestamp.toInt seconds * 1000
          | none => 0 }

def toProtobuf (rate : ExchangeRate) : Wire.ExchangeRate where
  hbarEquiv := rate.hbars
  centEquiv := rate.cents
  expirationTime := some (rate.expirationTime.tdiv 1000)

end ExchangeRate

structure TransactionReceipt where
  exchangeRate : Option ExchangeRate
  nextExchangeRate : Option ExchangeRate

namespace TransactionReceipt

def fromProtobuf : Option Wire.TransactionReceipt → Except JsError TransactionReceipt
  | none => .error (.typeError "Cannot read properties of null (reading 'status')")
  | some receipt =>
      match receipt.exchangeRate with
      | none => pure { exchangeRate := none, nextExchangeRate := none }
      | some rates => do
          let exchangeRate ← ExchangeRate.fromProtobuf rates.currentRate
          let nextExchangeRate ← ExchangeRate.fromProtobuf rates.nextRate
          pure { exchangeRate := some exchangeRate, nextExchangeRate := some nextExchangeRate }

/-- The set of rates is written also when there are no rates. -/
def toProtobuf (receipt : TransactionReceipt) : Wire.TransactionReceipt where
  exchangeRate := some
    { nextRate := receipt.nextExchangeRate.map ExchangeRate.toProtobuf
      currentRate := receipt.exchangeRate.map ExchangeRate.toProtobuf }

/-- A receipt that was read can be read again exactly when it came with exchange rates. -/
theorem fromProtobuf_toProtobuf {message : Option Wire.TransactionReceipt}
    {receipt : TransactionReceipt} (read : fromProtobuf message = .ok receipt) :
    (∃ again, fromProtobuf (some receipt.toProtobuf) = .ok again) ↔
      message.any (·.exchangeRate.isSome) = true := by
  cases message with
  | none => cases read
  | some message =>
      rw [fromProtobuf] at read
      cases field : message.exchangeRate with
      | none =>
          rw [field] at read
          cases read
          simp [fromProtobuf, toProtobuf, ExchangeRate.fromProtobuf, bind, Except.bind, field]
      | some rates =>
          rw [field] at read
          obtain ⟨current, _, read⟩ := except_bind_eq_ok.mp read
          obtain ⟨next, _, read⟩ := except_bind_eq_ok.mp read
          cases read
          simp [fromProtobuf, toProtobuf, ExchangeRate.fromProtobuf, bind, Except.bind, pure,
            Except.pure, field]

end TransactionReceipt

/-! ## Records -/

/-- The transfers that a record has and the records it comes with. -/
structure TransactionRecord where
  receipt : TransactionReceipt
  tokenTransfers : TokenTransferMap
  tokenTransfersList : List TokenTransfer
  nftTransfers : TokenNftTransferMap
  duplicates : List TransactionRecord
  children : List TransactionRecord

namespace TransactionRecord

/-- Whether the lists are found to be of one token. `identical` tells of two tokens whether their
shards, realms and numbers are the same objects. -/
def isSame (identical : Wire.TokenID → Wire.TokenID → Bool) (tokenTransfer nftTransfer : TokenTransferList) :
    Bool :=
  match tokenTransfer.token, nftTransfer.token with
  | some token, some nftToken => identical token nftToken
  | _, _ => false

/-- The lists that the loop of `_toProtobuf` writes. -/
def joinTransfers (identical : Wire.TokenID → Wire.TokenID → Bool)
    (tokenTransfers nftTransfers : List TokenTransferList) : List TokenTransferList :=
  tokenTransfers.flatMap fun tokenTransfer => nftTransfers.flatMap fun nftTransfer =>
    if isSame identical tokenTransfer nftTransfer then
      [{ token := tokenTransfer.token
         transfers := tokenTransfer.transfers
         -- the list of the fungible transfers, which has none
         nftTransfers := tokenTransfer.nftTransfers }]
    else [tokenTransfer, nftTransfer]

section

variable (keys : KeyCodec) (identical : Wire.TokenID → Wire.TokenID → Bool)

/-- `_toProtobuf().transactionRecord` -/
def message (record : TransactionRecord) : Wire.TransactionRecord where
  receipt := some record.receipt.toProtobuf
  tokenTransferLists :=
    joinTransfers identical (record.tokenTransfers.toProtobuf keys) (record.nftTransfers.toProtobuf keys)

def toProtobuf (record : TransactionRecord) : Wire.TransactionGetRecordResponse where
  transactionRecord := some (record.message keys identical)
  duplicateTransactionRecords := record.duplicates.map (message keys identical)
  childTransactionRecords := record.children.map (message keys identical)

/-- `_fromProtobuf` once the records beside the record are read. -/
def ofMessage (record : Wire.TransactionRecord) (duplicates children : List TransactionRecord) :
    Except JsError TransactionRecord := do
  let receipt ← TransactionReceipt.fromProtobuf record.receipt
  let tokenTransfers ← TokenTransferMap.fromProtobuf keys record.tokenTransferLists
  let tokenTransfersList ← TokenTransfer.fromProtobuf keys record.tokenTransferLists
  let nftTransfers ← TokenNftTransferMap.fromProtobuf keys record.tokenTransferLists
  pure { receipt, tokenTransfers, tokenTransfersList, nftTransfers, duplicates, children }

def fromProtobuf (response : Wire.TransactionGetRecordResponse) : Except JsError TransactionRecord :=
  match response.transactionRecord with
  | none => .error (.typeError "Cannot read properties of null (reading 'alias')")
  | some record => do
      let children ← response.childTransactionRecords.mapM fun child => ofMessage keys child [] []
      let duplicates ← response.duplicateTransactionRecords.mapM fun duplicate =>
        ofMessage keys duplicate [] []
      ofMessage keys record duplicates children

/-- The record that is read back is one with the same token transfers. -/
def KeepsTokenTransfers (record : TransactionRecord) : Prop :=
  ∃ again, fromProtobuf keys (record.toProtobuf keys identical) = .ok again ∧
    again.tokenTransfers = record.tokenTransfers ∧ again.nftTransfers = record.nftTransfers ∧
    again.tokenTransfersList = record.tokenTransfersList

end

/-! ## Reading a written record -/

section Again

variable {keys : KeyCodec} {identical : Wire.TokenID → Wire.TokenID → Bool}

theorem mem_joinTransfers {tokenTransfers nftTransfers : List TokenTransferList}
    {list : TokenTransferList} (member : list ∈ joinTransfers identical tokenTransfers nftTransfers) :
    (∃ tokenTransfer ∈ tokenTransfers, list = tokenTransfer ∨
      list = { tokenTransfer with expectedDecimals := none }) ∨ list ∈ nftTransfers := by
  obtain ⟨tokenTransfer, inTokens, member⟩ := List.mem_flatMap.mp member
  obtain ⟨nftTransfer, inNfts, member⟩ := List.mem_flatMap.mp member
  by_cases same : isSame identical tokenTransfer nftTransfer = true
  · rw [if_pos same, List.mem_singleton] at member
    exact Or.inl ⟨tokenTransfer, inTokens, Or.inr member⟩
  · rw [if_neg same, List.mem_pair] at member
    rcases member with rfl | rfl
    · exact Or.inl ⟨list, inTokens, Or.inl rfl⟩
    · exact Or.inr inNfts

theorem readable_message (faithful : keys.Faithful) (record : TransactionRecord) :
    ∀ list ∈ (record.message keys identical).tokenTransferLists, list.Readable keys := by
  have tokens : ∀ list ∈ record.tokenTransfers.toProtobuf keys, list.Readable keys := by
    intro list member
    obtain ⟨entry, _, rfl⟩ := List.mem_map.mp member
    refine ⟨⟨_, rfl⟩, fun aa inList => ?_, fun aa inList => absurd inList List.not_mem_nil⟩
    obtain ⟨transfer, _, rfl⟩ := List.mem_map.mp inList
    exact AccountId.ofField_eq_ok (AccountId.ofField_toProtobuf faithful _)
  have nfts : ∀ list ∈ record.nftTransfers.toProtobuf keys, list.Readable keys := by
    intro list member
    obtain ⟨entry, _, rfl⟩ := List.mem_map.mp member
    refine ⟨⟨_, rfl⟩, fun aa inList => absurd inList List.not_mem_nil, fun aa inList => ?_⟩
    obtain ⟨transfer, _, rfl⟩ := List.mem_map.mp inList
    rw [TokenNftTransferMap.readAccounts, AccountId.ofField_toProtobuf faithful,
      AccountId.ofField_toProtobuf faithful, AccountId.read_toProtobuf faithful,
      AccountId.read_toProtobuf faithful]
    rfl
  intro list member
  rcases mem_joinTransfers member with ⟨tokenTransfer, inTokens, rfl | rfl⟩ | inNfts
  · exact tokens _ inTokens
  · exact ⟨(tokens _ inTokens).token, (tokens _ inTokens).transfers, (tokens _ inTokens).nftTransfers⟩
  · exact nfts _ inNfts

/-- What the readers of the transfers make of lists they can read. -/
structure HasTransfers (keys : KeyCodec) (lists : List TokenTransferList) (record : TransactionRecord) :
    Prop where
  tokenTransfers : TokenTransferMap.fromProtobuf keys lists = .ok record.tokenTransfers
  tokenTransfersList : TokenTransfer.fromProtobuf keys lists = .ok record.tokenTransfersList
  nftTransfers : TokenNftTransferMap.fromProtobuf keys lists = .ok record.nftTransfers

theorem ofMessage_eq_ok {message : Wire.TransactionRecord} {duplicates children : List TransactionRecord}
    {record : TransactionRecord} (read : ofMessage keys message duplicates children = .ok record) :
    TransactionReceipt.fromProtobuf message.receipt = .ok record.receipt ∧
      HasTransfers keys message.tokenTransferLists record ∧
      record.duplicates = duplicates ∧ record.children = children := by
  obtain ⟨receipt, readReceipt, read⟩ := except_bind_eq_ok.mp read
  obtain ⟨tokenTransfers, readTokens, read⟩ := except_bind_eq_ok.mp read
  obtain ⟨tokenTransfersList, readList, read⟩ := except_bind_eq_ok.mp read
  obtain ⟨nftTransfers, readNfts, read⟩ := except_bind_eq_ok.mp read
  cases read
  exact ⟨readReceipt, ⟨readTokens, readList, readNfts⟩, rfl, rfl⟩

/-- Lists that can be read leave the receipt to decide. -/
theorem ofMessage_ok {message : Wire.TransactionRecord}
    (readable : ∀ list ∈ message.tokenTransferLists, list.Readable keys)
    (duplicates children : List TransactionRecord) :
    (∃ record, ofMessage keys message duplicates children = .ok record) ↔
      ∃ receipt, TransactionReceipt.fromProtobuf message.receipt = .ok receipt := by
  constructor
  · rintro ⟨record, read⟩
    exact ⟨_, (ofMessage_eq_ok read).1⟩
  · rintro ⟨receipt, read⟩
    rw [ofMessage, read, TokenTransferMap.fromProtobuf_ok readable,
      TokenTransfer.fromProtobuf_ok readable, TokenNftTransferMap.fromProtobuf_ok readable]
    exact ⟨_, rfl⟩

/-- A record can be read again exactly when its receipt came with exchange rates. -/
theorem ofMessage_message (faithful : keys.Faithful) {message : Wire.TransactionRecord}
    {duplicates children : List TransactionRecord} {record : TransactionRecord}
    (read : ofMessage keys message duplicates children = .ok record)
    (duplicates' children' : List TransactionRecord) :
    (∃ again, ofMessage keys (record.message keys identical) duplicates' children' = .ok again) ↔
      message.hasRates = true := by
  rw [ofMessage_ok (readable_message faithful record)]
  exact TransactionReceipt.fromProtobuf_toProtobuf (ofMessage_eq_ok read).1

theorem mapM_message (faithful : keys.Faithful) {messages : List Wire.TransactionRecord}
    {records : List TransactionRecord}
    (read : messages.mapM (fun child => ofMessage keys child [] []) = Except.ok records) :
    (∃ again, (records.map (message keys identical)).mapM (fun child => ofMessage keys child [] []) =
      Except.ok again) ↔ ∀ message ∈ messages, message.hasRates = true := by
  induction messages generalizing records with
  | nil =>
      cases read
      simp [pure, Except.pure]
  | cons first rest inductionHypothesis =>
      rw [List.mapM_cons] at read
      obtain ⟨record, readFirst, read⟩ := except_bind_eq_ok.mp read
      obtain ⟨restRecords, readRest, read⟩ := except_bind_eq_ok.mp read
      cases read
      rw [List.forall_mem_cons, ← inductionHypothesis readRest,
        ← @ofMessage_message _ identical faithful _ _ _ _ readFirst [] [], List.map_cons, List.mapM_cons]
      constructor
      · rintro ⟨again, found⟩
        obtain ⟨one, foundOne, found⟩ := except_bind_eq_ok.mp found
        obtain ⟨others, foundOthers, _⟩ := except_bind_eq_ok.mp found
        exact ⟨⟨one, foundOne⟩, ⟨others, foundOthers⟩⟩
      · rintro ⟨⟨one, foundOne⟩, ⟨others, foundOthers⟩⟩
        rw [foundOne]
        refine ⟨one :: others, ?_⟩
        change (List.mapM (fun child => ofMessage keys child [] []) _ >>= _) = _
        rw [foundOthers]
        rfl

/-- A response that was read, and the records it was read to. -/
structure ReadFrom (keys : KeyCodec) (response : Wire.TransactionGetRecordResponse)
    (record : TransactionRecord) (message : Wire.TransactionRecord) : Prop where
  named : response.transactionRecord = some message
  children : response.childTransactionRecords.mapM (fun child => ofMessage keys child [] []) =
    .ok record.children
  duplicates : response.duplicateTransactionRecords.mapM (fun child => ofMessage keys child [] []) =
    .ok record.duplicates
  read : ofMessage keys message record.duplicates record.children = .ok record

theorem fromProtobuf_eq_ok {response : Wire.TransactionGetRecordResponse} {record : TransactionRecord}
    (read : fromProtobuf keys response = .ok record) : ∃ message, ReadFrom keys response record message := by
  rw [fromProtobuf] at read
  cases named : response.transactionRecord with
  | none =>
      rw [named] at read
      cases read
  | some message =>
      rw [named] at read
      obtain ⟨children, readChildren, read⟩ := except_bind_eq_ok.mp read
      obtain ⟨duplicates, readDuplicates, read⟩ := except_bind_eq_ok.mp read
      obtain ⟨_, _, rfl, rfl⟩ := ofMessage_eq_ok read
      exact ⟨message, named, readChildren, readDuplicates, read⟩

/-- A record is kept when all receipts came with exchange rates and the lists that are written are
read as its own transfers. -/
theorem ReadFrom.keeps_iff (faithful : keys.Faithful) {response : Wire.TransactionGetRecordResponse}
    {record : TransactionRecord} {message : Wire.TransactionRecord}
    (origin : ReadFrom keys response record message) :
    KeepsTokenTransfers keys identical record ↔
      (∀ message ∈ response.records, message.hasRates = true) ∧
        HasTransfers keys (record.message keys identical).tokenTransferLists record := by
  have own := @ofMessage_message _ identical faithful _ _ _ _ origin.read
  have children := @mapM_message _ identical faithful _ _ origin.children
  have duplicates := @mapM_message _ identical faithful _ _ origin.duplicates
  have records : response.records =
      message :: response.childTransactionRecords ++ response.duplicateTransactionRecords := by
    rw [Wire.TransactionGetRecordResponse.records, origin.named]
    rfl
  rw [records, List.cons_append, List.forall_mem_cons, List.forall_mem_append, ← children, ← duplicates]
  constructor
  · rintro ⟨again, read, tokenTransfers, nftTransfers, tokenTransfersList⟩
    obtain ⟨readChildren, foundChildren, read⟩ := except_bind_eq_ok.mp read
    obtain ⟨readDuplicates, foundDuplicates, read⟩ := except_bind_eq_ok.mp read
    obtain ⟨_, transfers, _, _⟩ := ofMessage_eq_ok read
    refine ⟨⟨(own _ _).mp ⟨again, read⟩, ⟨_, foundChildren⟩, ⟨_, foundDuplicates⟩⟩, ?_, ?_, ?_⟩
    · rw [transfers.tokenTransfers, tokenTransfers]
    · rw [transfers.tokenTransfersList, tokenTransfersList]
    · rw [transfers.nftTransfers, nftTransfers]
  · rintro ⟨⟨rates, ⟨readChildren, foundChildren⟩, ⟨readDuplicates, foundDuplicates⟩⟩, transfers⟩
    obtain ⟨again, read⟩ := (own readDuplicates readChildren).mpr rates
    obtain ⟨_, found, _, _⟩ := ofMessage_eq_ok read
    refine ⟨again, ?_, ?_, ?_, ?_⟩
    · rw [fromProtobuf]
      change (List.mapM (fun child => ofMessage keys child [] [])
        (record.children.map (TransactionRecord.message keys identical)) >>= _) = _
      rw [foundChildren]
      change (List.mapM (fun child => ofMessage keys child [] [])
        (record.duplicates.map (TransactionRecord.message keys identical)) >>= _) = _
      rw [foundDuplicates]
      exact read
    · exact Except.ok.inj (found.tokenTransfers.symm.trans transfers.tokenTransfers)
    · exact Except.ok.inj (found.nftTransfers.symm.trans transfers.nftTransfers)
    · exact Except.ok.inj (found.tokenTransfersList.symm.trans transfers.tokenTransfersList)

end Again

end TransactionRecord

end HederaSdk
