import HederaSdk.IdText
import HederaSdk.Library.Grouped
import HederaSdk.Library.Method
import HederaSdk.Token.Transfers

/-!
# Token transfers of a record

The token transfers of a record are read three times from the same lists: into a map
of account amounts, into a map of NFT transfers and into one list that has everything
about each fungible transfer. Both maps are written again as lists, without the
approvals and the decimals.

A map compares tokens by their texts; the accounts of a token are keyed by the id
objects, so that each entry of a list is an entry of its own. Ids are not checked for
negative numbers.
-/

namespace HederaSdk

open Js (Value)
open Library

/-! ## Messages -/

namespace Wire

structure TokenID where
  shardNum : Int
  realmNum : Int
  tokenNum : Int
  deriving DecidableEq

structure AccountAmount where
  accountID : Value
  amount : Int
  isApproval : Bool := false

structure NftTransfer where
  senderAccountID : Value
  receiverAccountID : Value
  serialNumber : Int
  isApproval : Bool := false

structure TokenTransferList where
  token : Option TokenID
  transfers : List AccountAmount := []
  nftTransfers : List NftTransfer := []
  /-- The wrapper, with the value that is its own property. -/
  expectedDecimals : Option (Option Nat) := none

namespace TokenTransferList

def isFungible (list : TokenTransferList) : Bool := !list.transfers.isEmpty

def hasNfts (list : TokenTransferList) : Bool := !list.nftTransfers.isEmpty

end TokenTransferList

end Wire

namespace AccountId

/-- `_fromProtobuf` of a field that may be missing. -/
def ofField (keys : KeyCodec) (id : Value) : Except JsError AccountId :=
  if id.isNullish then .error (.typeError "Cannot read properties of null (reading 'alias')")
  else (fromProtobuf keys id).mapError .error

theorem ofField_toProtobuf {keys : KeyCodec} (faithful : keys.Faithful) (id : AccountId) :
    ofField keys (id.toProtobuf keys) = .ok id.onWire := by
  have present : (id.toProtobuf keys).isNullish = false := rfl
  simp [ofField, present, fromProtobuf_toProtobuf faithful, Except.mapError]

/-- The id that is read, where one is. -/
def read (keys : KeyCodec) (id : Value) : AccountId := (ofField keys id).toOption.getD (.ofNum 0)

@[simp] theorem read_toProtobuf {keys : KeyCodec} (faithful : keys.Faithful) (id : AccountId) :
    read keys (id.toProtobuf keys) = id.onWire := by
  rw [read, ofField_toProtobuf faithful]
  rfl

theorem ofField_eq_ok {keys : KeyCodec} {field : Value} {id : AccountId}
    (found : ofField keys field = .ok id) : ofField keys field = .ok (read keys field) := by
  rw [read, found]
  rfl

end AccountId

namespace TokenId

def toString (id : TokenId) : String := s!"{id.shard}.{id.realm}.{id.num}"

def ofMessage (id : Wire.TokenID) : TokenId where
  shard := id.shardNum
  realm := id.realmNum
  num := id.tokenNum

/-- `_fromProtobuf` of a field that may be missing. -/
def ofField : Option Wire.TokenID → Except JsError TokenId
  | some id => .ok (ofMessage id)
  | none => .error (.typeError "Cannot read properties of null (reading 'shardNum')")

def toMessage (id : TokenId) : Wire.TokenID where
  shardNum := id.shard
  realmNum := id.realm
  tokenNum := id.num

@[simp] theorem toMessage_ofMessage (id : Wire.TokenID) : (ofMessage id).toMessage = id := rfl

theorem toString_ofMessage_inj {a b : Wire.TokenID} :
    (ofMessage a).toString = (ofMessage b).toString ↔ a = b := by
  have toList (id : TokenId) : id.toString.toList =
      Text.decimal id.shard ++ '.' :: (Text.decimal id.realm ++ '.' :: Text.decimal id.num) := by
    simp [toString, Text.decimal, String.toList_append]
  have noDot := separator_not_mem_decimal (c := '.') (by decide) (by decide)
  refine ⟨fun same => ?_, fun same => same ▸ rfl⟩
  have lists := congrArg String.toList same
  rw [toList, toList] at lists
  obtain ⟨shards, rest⟩ := Text.separated_unique (noDot _) (noDot _) lists
  obtain ⟨realms, nums⟩ := Text.separated_unique (noDot _) (noDot _) rest
  cases a
  cases b
  simp only [ofMessage, Text.decimal_inj] at shards realms nums
  rw [shards, realms, nums]

end TokenId

/-! ## Reading -/

section Reading

open Wire

variable {σ α β : Type}

/-- The loops of the readers: over the lists and over the transfers of each. -/
def readTransfers (transfers : TokenTransferList → List α) (read : α → Except JsError β)
    (add : σ → TokenTransferList → TokenId → α → β → σ) (start : σ)
    (tokenTransfers : List TokenTransferList) : Except JsError σ :=
  tokenTransfers.foldlM (fun seen tokenTransfer => do
    let token ← TokenId.ofField tokenTransfer.token
    (transfers tokenTransfer).foldlM (fun seen transfer => do
      let accounts ← read transfer
      pure (add seen tokenTransfer token transfer accounts)) seen) start

end Reading

/-- The entries of a `TokenTransferAccountMap` by its key objects; of the amounts of one text the
last counts. -/
abbrev TokenTransferAccountMap := List (AccountId × Int)

abbrev TokenTransferMap := OrderedMap String (TokenId × TokenTransferAccountMap)

/-- What a `TokenNftTransferMap` holds. -/
structure NftTransferEntry where
  sender : AccountId
  recipient : AccountId
  serial : Int
  isApproved : Bool
  deriving DecidableEq

abbrev TokenNftTransferMap := OrderedMap String (TokenId × List NftTransferEntry)

namespace TokenTransferMap

/-- `__set` -/
def set (map : TokenTransferMap) (tokenId : TokenId) (accountId : AccountId) (amount : Int) :
    TokenTransferMap :=
  OrderedMap.file TokenId.toString map tokenId (accountId, amount)

def fromProtobuf (keys : KeyCodec) (transfers : List Wire.TokenTransferList) :
    Except JsError TokenTransferMap :=
  readTransfers (·.transfers) (fun aa => AccountId.ofField keys aa.accountID)
    (fun map _ token aa account => map.set token account aa.amount) .empty transfers

def toProtobuf (keys : KeyCodec) (map : TokenTransferMap) : List Wire.TokenTransferList :=
  map.values.map fun entry =>
    { token := some entry.1.toMessage
      transfers := entry.2.map fun transfer =>
        { accountID := transfer.1.toProtobuf keys, amount := transfer.2 } }

end TokenTransferMap

namespace TokenNftTransferMap

/-- `__set` -/
def set (map : TokenNftTransferMap) (tokenId : TokenId) (nftTransfer : NftTransferEntry) :
    TokenNftTransferMap :=
  OrderedMap.file TokenId.toString map tokenId nftTransfer

def readAccounts (keys : KeyCodec) (aa : Wire.NftTransfer) : Except JsError (AccountId × AccountId) := do
  let sender ← AccountId.ofField keys aa.senderAccountID
  let recipient ← AccountId.ofField keys aa.receiverAccountID
  pure (sender, recipient)

def fromProtobuf (keys : KeyCodec) (transfers : List Wire.TokenTransferList) :
    Except JsError TokenNftTransferMap :=
  readTransfers (·.nftTransfers) (readAccounts keys)
    (fun map _ token aa accounts => map.set token
      { sender := accounts.1, recipient := accounts.2, serial := aa.serialNumber, isApproved := false })
    .empty transfers

def toProtobuf (keys : KeyCodec) (map : TokenNftTransferMap) : List Wire.TokenTransferList :=
  map.values.map fun entry =>
    { token := some entry.1.toMessage
      nftTransfers := entry.2.map fun transfer =>
        { senderAccountID := transfer.sender.toProtobuf keys
          receiverAccountID := transfer.recipient.toProtobuf keys
          serialNumber := transfer.serial } }

end TokenNftTransferMap

namespace TokenTransfer

/-- A wrapper without a value of its own and the value 0 both count as no decimals. -/
def readDecimals (tokenTransfer : Wire.TokenTransferList) : Option Nat :=
  match tokenTransfer.expectedDecimals with
  | some (some (decimals + 1)) => some (decimals + 1)
  | _ => none

def fromProtobuf (keys : KeyCodec) (tokenTransfers : List Wire.TokenTransferList) :
    Except JsError (List TokenTransfer) :=
  readTransfers (·.transfers) (fun transfer => AccountId.ofField keys transfer.accountID)
    (fun transfers tokenTransfer tokenId transfer accountId => transfers ++
      [{ tokenId
         accountId
         expectedDecimals := readDecimals tokenTransfer
         amount := transfer.amount
         isApproved := transfer.isApproval }])
    [] tokenTransfers

end TokenTransfer

/-! ## What is read -/

namespace Wire.TokenTransferList

/-- The token, where one is named. -/
def tokenId (list : TokenTransferList) : TokenId :=
  match list.token with
  | some id => .ofMessage id
  | none => .ofNum 0

def amounts (keys : KeyCodec) (list : TokenTransferList) : TokenTransferAccountMap :=
  list.transfers.map fun aa => (AccountId.read keys aa.accountID, aa.amount)

def nfts (keys : KeyCodec) (list : TokenTransferList) : List NftTransferEntry :=
  list.nftTransfers.map fun aa =>
    { sender := AccountId.read keys aa.senderAccountID
      recipient := AccountId.read keys aa.receiverAccountID
      serial := aa.serialNumber
      isApproved := false }

def tokenTransfer (keys : KeyCodec) (list : TokenTransferList) (transfer : AccountAmount) :
    TokenTransfer where
  tokenId := list.tokenId
  accountId := AccountId.read keys transfer.accountID
  expectedDecimals := TokenTransfer.readDecimals list
  amount := transfer.amount
  isApproved := transfer.isApproval

/-- A list that no reader throws at. -/
structure Readable (keys : KeyCodec) (list : TokenTransferList) : Prop where
  token : ∃ id, list.token = some id
  transfers : ∀ aa ∈ list.transfers,
    AccountId.ofField keys aa.accountID = .ok (AccountId.read keys aa.accountID)
  nftTransfers : ∀ aa ∈ list.nftTransfers,
    TokenNftTransferMap.readAccounts keys aa =
      .ok (AccountId.read keys aa.senderAccountID, AccountId.read keys aa.receiverAccountID)

end Wire.TokenTransferList

open Wire (TokenTransferList)

section Loops

variable {σ α β : Type} {transfers : TokenTransferList → List α} {read : α → Except JsError β}
  {add : σ → TokenTransferList → TokenId → α → β → σ} {lists : List TokenTransferList}

theorem foldlM_read_ok {read : α → Except JsError β} {value : α → β} {step : σ → α → β → σ}
    {items : List α} (reads : ∀ a ∈ items, read a = .ok (value a)) (start : σ) :
    items.foldlM (fun s a => do let b ← read a; pure (step s a b)) start =
      Except.ok (items.foldl (fun s a => step s a (value a)) start) := by
  induction items generalizing start with
  | nil => rfl
  | cons a rest inductionHypothesis =>
      rw [List.foldlM_cons, reads a List.mem_cons_self]
      exact inductionHypothesis (fun b inRest => reads b (List.mem_cons_of_mem _ inRest)) _

theorem foldlM_read_eq_ok {read : α → Except JsError β} {step : σ → α → β → σ} {items : List α}
    {start last : σ}
    (found : items.foldlM (fun s a => do let b ← read a; pure (step s a b)) start = Except.ok last) :
    ∀ a ∈ items, ∃ b, read a = .ok b := by
  induction items generalizing start with
  | nil => simp
  | cons a rest inductionHypothesis =>
      rw [List.foldlM_cons, bind_assoc] at found
      obtain ⟨b, here, found⟩ := except_bind_eq_ok.mp found
      rw [pure_bind] at found
      exact List.forall_mem_cons.mpr ⟨⟨b, here⟩, inductionHypothesis found⟩

/-- The loops, when nothing throws. -/
theorem readTransfers_ok {value : α → β} (tokens : ∀ list ∈ lists, ∃ id, list.token = some id)
    (reads : ∀ list ∈ lists, ∀ a ∈ transfers list, read a = .ok (value a)) (start : σ) :
    readTransfers transfers read add start lists = .ok (lists.foldl (fun seen list =>
      (transfers list).foldl (fun seen a => add seen list list.tokenId a (value a)) seen) start) := by
  induction lists generalizing start with
  | nil => rfl
  | cons list rest inductionHypothesis =>
      obtain ⟨⟨id, named⟩, namedRest⟩ := List.forall_mem_cons.mp tokens
      obtain ⟨here, readsRest⟩ := List.forall_mem_cons.mp reads
      have found : TokenId.ofField list.token = .ok list.tokenId := by
        rw [Wire.TokenTransferList.tokenId, named]
        rfl
      rw [readTransfers, List.foldlM_cons, found]
      change ((transfers list).foldlM _ start >>= fun seen => readTransfers transfers read add seen rest) = _
      rw [foldlM_read_ok here]
      exact inductionHypothesis namedRest readsRest _

/-- What has been read was there. -/
theorem readTransfers_eq_ok {start last : σ}
    (found : readTransfers transfers read add start lists = .ok last) :
    ∀ list ∈ lists, (∃ id, list.token = some id) ∧ ∀ a ∈ transfers list, ∃ b, read a = .ok b := by
  induction lists generalizing start with
  | nil => simp
  | cons list rest inductionHypothesis =>
      rw [readTransfers, List.foldlM_cons] at found
      obtain ⟨seen, here, found⟩ := except_bind_eq_ok.mp found
      obtain ⟨token, named, here⟩ := except_bind_eq_ok.mp here
      refine List.forall_mem_cons.mpr ⟨⟨?_, foldlM_read_eq_ok here⟩, inductionHypothesis found⟩
      cases field : list.token with
      | none =>
          rw [field] at named
          cases named
      | some id => exact ⟨id, rfl⟩

end Loops

section Read

variable {keys : KeyCodec} {lists : List TokenTransferList}

theorem TokenTransferMap.fromProtobuf_ok (readable : ∀ list ∈ lists, list.Readable keys) :
    TokenTransferMap.fromProtobuf keys lists = .ok (OrderedMap.fileAll TokenId.toString .empty
      (OrderedMap.ungroup (lists.map fun list => (list.tokenId, list.amounts keys)))) := by
  rw [fromProtobuf, readTransfers_ok (fun list member => (readable list member).token)
    fun list member => (readable list member).transfers]
  simp only [OrderedMap.fileAll, OrderedMap.ungroup, List.flatMap_map, List.foldl_flatMap,
    List.foldl_map, Wire.TokenTransferList.amounts, TokenTransferMap.set]

theorem TokenNftTransferMap.fromProtobuf_ok (readable : ∀ list ∈ lists, list.Readable keys) :
    TokenNftTransferMap.fromProtobuf keys lists = .ok (OrderedMap.fileAll TokenId.toString .empty
      (OrderedMap.ungroup (lists.map fun list => (list.tokenId, list.nfts keys)))) := by
  rw [fromProtobuf, readTransfers_ok (fun list member => (readable list member).token)
    fun list member => (readable list member).nftTransfers]
  simp only [OrderedMap.fileAll, OrderedMap.ungroup, List.flatMap_map, List.foldl_flatMap,
    List.foldl_map, Wire.TokenTransferList.nfts, TokenNftTransferMap.set]

theorem TokenTransfer.fromProtobuf_ok (readable : ∀ list ∈ lists, list.Readable keys) :
    TokenTransfer.fromProtobuf keys lists =
      .ok (lists.flatMap fun list => list.transfers.map (list.tokenTransfer keys)) := by
  rw [fromProtobuf, readTransfers_ok (fun list member => (readable list member).token)
    fun list member => (readable list member).transfers]
  simp only [List.foldl_append_eq_append, List.nil_append, ← List.flatMap_def, ← List.map_eq_flatMap]
  rfl

/-- A reader of the transfers and one of the NFT transfers leave nothing unread. -/
theorem readable_of_ok {map : TokenTransferMap} {nftMap : TokenNftTransferMap}
    (transfers : TokenTransferMap.fromProtobuf keys lists = .ok map)
    (nftTransfers : TokenNftTransferMap.fromProtobuf keys lists = .ok nftMap) :
    ∀ list ∈ lists, list.Readable keys := by
  intro list member
  obtain ⟨named, accounts⟩ := readTransfers_eq_ok transfers list member
  obtain ⟨_, pairs⟩ := readTransfers_eq_ok nftTransfers list member
  refine ⟨named, fun aa inList => ?_, fun aa inList => ?_⟩
  · obtain ⟨id, found⟩ := accounts aa inList
    exact AccountId.ofField_eq_ok found
  · obtain ⟨ids, found⟩ := pairs aa inList
    obtain ⟨sender, foundSender, found⟩ := except_bind_eq_ok.mp found
    obtain ⟨recipient, foundRecipient, _⟩ := except_bind_eq_ok.mp found
    rw [TokenNftTransferMap.readAccounts, AccountId.ofField_eq_ok foundSender,
      AccountId.ofField_eq_ok foundRecipient]
    rfl

end Read

end HederaSdk
