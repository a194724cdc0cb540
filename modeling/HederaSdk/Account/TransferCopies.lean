import HederaSdk.Account.Conservation
import HederaSdk.Account.Independence
import HederaSdk.Account.TransferOrder
import HederaSdk.EntityId.Ordering
import HederaSdk.Record.TransferMaps
import HederaSdk.Token.Regrouping
import HederaSdk.Transaction.Getters
import HederaSdk.Transaction.PrefixProto

/-!
# Transfers that are read back

The transfers of a body are read list by list, each with the token and the decimals of its list. They
build the body again where sorting tells them apart, unless a list expects 0 decimals: that is read as
not set.

The getters show the transfers by the texts of the ids. A new transaction shows what it moves. A copy may
have two entries of one account, and shows the last.
-/

namespace HederaSdk

open Library

/-! ## Messages -/

namespace Wire

structure CryptoTransferTransactionBody where
  /-- The account amounts of `transfers`. -/
  accountAmounts : List AccountAmount := []
  tokenTransfers : List TokenTransferList := []

end Wire

section Messages

variable (keys : KeyCodec)

/-- The message as a decoder returns it. -/
def AccountAmount.toMessage (transfer : AccountAmount) : Wire.AccountAmount where
  accountID := transfer.accountID.toProtobuf keys
  amount := transfer.amount
  isApproval := transfer.isApproval

def NftTransfer.toMessage (transfer : NftTransfer) : Wire.NftTransfer where
  senderAccountID := transfer.senderAccountID.toProtobuf keys
  receiverAccountID := transfer.receiverAccountID.toProtobuf keys
  serialNumber := transfer.serialNumber
  isApproval := transfer.isApproval

def TokenTransferList.toMessage (list : TokenTransferList) : Wire.TokenTransferList where
  token := some list.token.toMessage
  transfers := list.transfers.map (AccountAmount.toMessage keys)
  nftTransfers := list.nftTransfers.map (NftTransfer.toMessage keys)
  expectedDecimals := list.expectedDecimals.map some

def CryptoTransferBody.toMessage (cryptoTransfer : CryptoTransferBody) : Wire.CryptoTransferTransactionBody where
  accountAmounts := cryptoTransfer.accountAmounts.map (AccountAmount.toMessage keys)
  tokenTransfers := cryptoTransfer.tokenTransfers.map (TokenTransferList.toMessage keys)

/-! ## Reading -/

def TokenNftTransfer.fromProtobuf (tokenTransfers : List Wire.TokenTransferList) :
    Except JsError (List TokenNftTransfer) :=
  readTransfers (·.nftTransfers) (TokenNftTransferMap.readAccounts keys)
    (fun transfers _ tokenId transfer accounts => transfers ++
      [{ tokenId
         senderAccountId := accounts.1
         receiverAccountId := accounts.2
         serialNumber := transfer.serialNumber
         isApproved := transfer.isApproval }])
    [] tokenTransfers

def Transfer.fromProtobuf (accountAmounts : List Wire.AccountAmount) : Except JsError (List Transfer) :=
  accountAmounts.mapM fun transfer => do
    let accountId ← AccountId.ofField keys transfer.accountID
    pure { accountId, amount := transfer.amount, isApproved := transfer.isApproval }

/-- `_fromProtobuf`, before the transaction around the transfers is read. -/
def TransferTransaction.fromProtobuf (cryptoTransfer : Wire.CryptoTransferTransactionBody) :
    Except JsError TransferTransaction := do
  let tokenTransfers ← TokenTransfer.fromProtobuf keys cryptoTransfer.tokenTransfers
  let hbarTransfers ← Transfer.fromProtobuf keys cryptoTransfer.accountAmounts
  let nftTransfers ← TokenNftTransfer.fromProtobuf keys cryptoTransfer.tokenTransfers
  pure { TransferTransaction.new {} with tokenTransfers, hbarTransfers, nftTransfers }

end Messages

/-! ## What is read of a body -/

def TokenTransfer.ofLists (lists : List TokenTransferList) : List TokenTransfer :=
  lists.flatMap fun list => list.transfers.map fun transfer =>
    { tokenId := list.token.onWire
      accountId := transfer.accountID.onWire
      expectedDecimals := list.expectedDecimals.filter (· ≠ 0)
      amount := transfer.amount
      isApproved := transfer.isApproval }

def TokenNftTransfer.ofLists (lists : List TokenTransferList) : List TokenNftTransfer :=
  lists.flatMap fun list => list.nftTransfers.map fun transfer =>
    { tokenId := list.token.onWire
      senderAccountId := transfer.senderAccountID.onWire
      receiverAccountId := transfer.receiverAccountID.onWire
      serialNumber := transfer.serialNumber
      isApproved := transfer.isApproval }

def Transfer.ofAmounts (amounts : List AccountAmount) : List Transfer :=
  amounts.map fun transfer =>
    { accountId := transfer.accountID.onWire, amount := transfer.amount, isApproved := transfer.isApproval }

/-- The transaction that is read of a body. -/
def CryptoTransferBody.copy (cryptoTransfer : CryptoTransferBody) : TransferTransaction :=
  { TransferTransaction.new {} with
    tokenTransfers := TokenTransfer.ofLists cryptoTransfer.tokenTransfers
    hbarTransfers := Transfer.ofAmounts cryptoTransfer.accountAmounts
    nftTransfers := TokenNftTransfer.ofLists cryptoTransfer.tokenTransfers }

section Read

variable {keys : KeyCodec} (faithful : keys.Faithful)
include faithful

theorem TokenTransferList.readable_toMessage (list : TokenTransferList) : (list.toMessage keys).Readable keys where
  token := ⟨_, rfl⟩
  transfers := List.forall_mem_map.mpr fun transfer _ => by
    rw [AccountAmount.toMessage, AccountId.ofField_toProtobuf faithful, AccountId.read_toProtobuf faithful]
  nftTransfers := List.forall_mem_map.mpr fun transfer _ => by
    rw [NftTransfer.toMessage, TokenNftTransferMap.readAccounts, AccountId.ofField_toProtobuf faithful,
      AccountId.ofField_toProtobuf faithful, AccountId.read_toProtobuf faithful,
      AccountId.read_toProtobuf faithful]
    rfl

theorem TokenTransfer.fromProtobuf_toMessage (lists : List TokenTransferList) :
    TokenTransfer.fromProtobuf keys (lists.map (TokenTransferList.toMessage keys)) = .ok (ofLists lists) := by
  rw [fromProtobuf_ok (List.forall_mem_map.mpr fun list _ => list.readable_toMessage faithful), ofLists,
    List.flatMap_map]
  refine congrArg Except.ok (List.flatMap_congr fun list _ => ?_)
  rw [TokenTransferList.toMessage, List.map_map]
  refine List.map_congr_left fun transfer _ => ?_
  have decimals : readDecimals (list.toMessage keys) = list.expectedDecimals.filter (· ≠ 0) := by
    rw [readDecimals, TokenTransferList.toMessage]
    rcases list.expectedDecimals with _ | _ | decimals <;> rfl
  simp only [Function.comp_apply, Wire.TokenTransferList.tokenTransfer, AccountAmount.toMessage,
    AccountId.read_toProtobuf faithful]
  rw [← decimals]
  rfl

theorem TokenNftTransfer.fromProtobuf_toMessage (lists : List TokenTransferList) :
    TokenNftTransfer.fromProtobuf keys (lists.map (TokenTransferList.toMessage keys)) = .ok (ofLists lists) := by
  have readable : ∀ list ∈ lists.map (TokenTransferList.toMessage keys), list.Readable keys :=
    List.forall_mem_map.mpr fun list _ => list.readable_toMessage faithful
  rw [fromProtobuf, readTransfers_ok (fun list member => (readable list member).token)
    fun list member => (readable list member).nftTransfers]
  simp only [List.foldl_append_eq_append, List.nil_append, ← List.flatMap_def, ← List.map_eq_flatMap]
  rw [List.flatMap_map]
  refine congrArg Except.ok (List.flatMap_congr fun list _ => ?_)
  rw [TokenTransferList.toMessage, List.map_map]
  refine List.map_congr_left fun transfer _ => ?_
  simp only [Function.comp_apply, NftTransfer.toMessage, AccountId.read_toProtobuf faithful]
  rfl

theorem Transfer.fromProtobuf_toMessage (amounts : List AccountAmount) :
    Transfer.fromProtobuf keys (amounts.map (AccountAmount.toMessage keys)) = .ok (ofAmounts amounts) := by
  rw [fromProtobuf, List.mapM_map]
  refine except_mapM_ok fun transfer _ => ?_
  rw [Function.comp_apply, AccountAmount.toMessage, AccountId.ofField_toProtobuf faithful]
  rfl

theorem TransferTransaction.fromProtobuf_toMessage (cryptoTransfer : CryptoTransferBody) :
    TransferTransaction.fromProtobuf keys (cryptoTransfer.toMessage keys) = .ok cryptoTransfer.copy := by
  rw [fromProtobuf, CryptoTransferBody.toMessage, TokenTransfer.fromProtobuf_toMessage faithful,
    Transfer.fromProtobuf_toMessage faithful, TokenNftTransfer.fromProtobuf_toMessage faithful]
  rfl

end Read

/-! ## Accounts that are read back -/

namespace AccountId

theorem shard_onWire (id : AccountId) : id.onWire.shard = id.shard := by
  rw [onWire]
  split <;> rfl

theorem realm_onWire (id : AccountId) : id.onWire.realm = id.realm := by
  rw [onWire]
  split <;> rfl

variable {id other id' other' : AccountId}

/-- Ids with one message are compared as the same. -/
theorem Comparable.of_onWire (comparable : id.Comparable other) (same : id.onWire = id'.onWire)
    (same' : other.onWire = other'.onWire) : id'.Comparable other' := by
  intro shards realms
  rw [← kind_onWire id', ← same, kind_onWire, ← kind_onWire other', ← same', kind_onWire]
  apply comparable
  · rw [← shard_onWire id, same, shard_onWire, ← shard_onWire other, same', shard_onWire, shards]
  · rw [← realm_onWire id, same, realm_onWire, ← realm_onWire other, same', realm_onWire, realms]

theorem compare_eq_zero_iff_place (comparable : id.Comparable other) :
    id.compare other = 0 ↔ id.place = other.place := by
  refine ⟨fun same => ?_, compare_eq_zero_of_place comparable⟩
  rcases lt_trichotomy id.place other.place with less | equal | greater
  · exact absurd same (compare_of_lt comparable less).1.ne
  · exact equal
  · exact absurd same (compare_of_lt comparable.symm greater).2.ne'

end AccountId

/-! ## Entries of their own -/

section Upsert

variable {α β : Type} {look : α → β} {R : β → β → Prop} {wanted : α → Bool} {change : α → α} {fresh : α}

/-- What tells the entries apart still does when an entry changes or a new one comes. -/
theorem pairwise_upsert (keeps : ∀ a, look (change a) = look a) {items : List α}
    (apart : ∀ a ∈ items, wanted a = false → R (look a) (look fresh))
    (pairs : (items.map look).Pairwise R) : ((upsert wanted change fresh items).map look).Pairwise R := by
  cases found : items.find? wanted with
  | none =>
      rw [upsert_of_none found, List.map_append, List.map_singleton]
      refine List.pairwise_append.mpr ⟨pairs, List.pairwise_singleton _ _, ?_⟩
      rw [List.forall_mem_map]
      intro a member q last
      obtain rfl := List.mem_singleton.mp last
      exact apart a member (by simpa using List.find?_eq_none.mp found a member)
  | some a =>
      obtain ⟨before, after, rfl, changed⟩ := upsert_of_some change fresh found
      rw [changed]
      simpa [keeps] using pairs

end Upsert

/-- Two entries that a transfer could be merged into. -/
def SameEntry (p q : TokenId × AccountId) : Prop := p.1.compare q.1 = 0 ∧ p.2.compare q.2 = 0

def TokenTransfer.entry (transfer : TokenTransfer) : TokenId × AccountId := (transfer.tokenId, transfer.accountId)

namespace TransferTransaction

/-- Every transfer has its own entry. -/
structure Entered (tx : TransferTransaction) : Prop where
  tokens : (tx.tokenTransfers.map TokenTransfer.entry).Pairwise fun p q => ¬SameEntry p q
  hbars : (tx.hbarTransfers.map Transfer.accountId).Pairwise fun p q => p.compare q ≠ 0

theorem sameEntry_iff {transfer : TokenTransfer} {token : TokenId} {account : AccountId} :
    transfer.isFor token account = true ↔ SameEntry transfer.entry (token, account) := by
  simp [TokenTransfer.isFor, SameEntry, TokenTransfer.entry]

theorem entry_withDecimals (token : TokenId) (account : AccountId) (value : Int) (decimals : Nat)
    (transfer : TokenTransfer) : (transfer.withDecimals token account value decimals).entry = transfer.entry := by
  rw [TokenTransfer.withDecimals]
  split_ifs <;> rfl

end TransferTransaction

namespace AbstractTokenTransferTransaction

theorem entered_step {tx : AbstractTokenTransferTransaction}
    (unfrozen : tx.transaction.isFrozenOrOnDemand = false) (call : Call)
    (entered : (tx.tokenTransfers.map TokenTransfer.entry).Pairwise fun p q => ¬SameEntry p q) :
    ((tx.step call).tokenTransfers.map TokenTransfer.entry).Pairwise fun p q => ¬SameEntry p q := by
  have merged (token : TokenId) (account : AccountId) (value : Int) (isApproved : Bool) :
      ((upsert (TokenTransfer.isFor token account)
        (fun transfer => { transfer with amount := addLong transfer.amount value, expectedDecimals := none })
        { tokenId := token, accountId := account, expectedDecimals := none, amount := value, isApproved }
        tx.tokenTransfers).map TokenTransfer.entry).Pairwise fun p q => ¬SameEntry p q := by
    refine pairwise_upsert ?_ (fun transfer _ other same => ?_) entered
    · exact fun _ => rfl
    · rw [TransferTransaction.sameEntry_iff.mpr same] at other
      cases other
  cases call with
  | addTokenTransfer token account value =>
      rw [step, Call.method, addTokenTransfer, run_mergeTokenTransfer unfrozen]
      exact merged token account value false
  | addApprovedTokenTransfer token account value =>
      rw [step, Call.method, addApprovedTokenTransfer, run_mergeTokenTransfer unfrozen]
      exact merged token account value true
  | addNftTransfer nftId sender receiver =>
      rw [step, Call.method, addNftTransfer, run_mergeNftTransfer unfrozen]
      exact entered
  | addApprovedNftTransfer nftId sender receiver =>
      rw [step, Call.method, addApprovedNftTransfer, run_mergeNftTransfer unfrozen]
      exact entered
  | addTokenTransferWithDecimals token account value decimals =>
      have kept (list : List TokenTransfer) :
          (list.map (TokenTransfer.withDecimals token account value decimals)).map TokenTransfer.entry =
            list.map TokenTransfer.entry := by
        rw [List.map_map]
        exact List.map_congr_left fun transfer _ =>
          TransferTransaction.entry_withDecimals token account value decimals transfer
      rw [step, Call.method]
      cases other : tx.tokenTransfers.any (TokenTransfer.contradicts token decimals) with
      | true =>
          rw [run_addTokenTransferWithDecimals_of_contradicts token account value decimals unfrozen other]
          simp only [List.map_append, kept]
          rw [← List.map_append, List.takeWhile_append_dropWhile]
          exact entered
      | false =>
          cases found : tx.tokenTransfers.any (TokenTransfer.isFor token account) with
          | true =>
              rw [run_addTokenTransferWithDecimals_of_found token account value decimals unfrozen other found]
              simp only [kept]
              exact entered
          | false =>
              rw [run_addTokenTransferWithDecimals_of_new token account value decimals unfrozen other found]
              simp only [List.map_append, kept, List.map_singleton]
              refine List.pairwise_append.mpr ⟨entered, List.pairwise_singleton _ _, ?_⟩
              rw [List.forall_mem_map]
              intro transfer member q last same
              obtain rfl := List.mem_singleton.mp last
              have isFor := TransferTransaction.sameEntry_iff.mpr same
              exact absurd isFor (List.any_eq_false.mp found transfer member)

end AbstractTokenTransferTransaction

namespace TransferTransaction

theorem entered_hbars {account : AccountId} {hbars : Int} {isApproved : Bool} {transfers : List Transfer}
    (entered : (transfers.map Transfer.accountId).Pairwise fun p q => p.compare q ≠ 0) :
    ((upsert (Transfer.isFor account)
      (fun transfer => { transfer with amount := addLong transfer.tinybars (toInt64 hbars) })
      { accountId := account, amount := hbars, isApproved } transfers).map Transfer.accountId).Pairwise
        fun p q => p.compare q ≠ 0 := by
  refine pairwise_upsert ?_ (fun transfer _ other same => ?_) entered
  · exact fun _ => rfl
  · rw [Transfer.isFor, beq_eq_false_iff_ne] at other
    exact other same

theorem entered_step (tx : TransferTransaction) (call : Call) (entered : tx.Entered) : (tx.step call).Entered := by
  cases mode : tx.transaction.isFrozenOrOnDemand with
  | true => rwa [step_of_frozen mode]
  | false =>
      cases call with
      | token call =>
          rw [step, Call.method, ofSuper, Method.run_zoom]
          exact ⟨AbstractTokenTransferTransaction.entered_step mode call entered.tokens, entered.hbars⟩
      | addHbarTransfer account hbars =>
          rw [step, Call.method, addHbarTransfer, run_mergeHbarTransfer mode]
          exact ⟨entered.tokens, entered_hbars entered.hbars⟩
      | addApprovedHbarTransfer account hbars =>
          rw [step, Call.method, addApprovedHbarTransfer, run_mergeHbarTransfer mode]
          exact ⟨entered.tokens, entered_hbars entered.hbars⟩

theorem entered_runAll (transaction : Transaction) (calls : List Call) :
    (runAll step { transaction } calls).Entered :=
  runAll_invariant_all entered_step calls ⟨.nil, .nil⟩

/-- Sorting tells the transfers apart: accounts that are compared are of one kind, and no two NFT
transfers agree in sender, receiver and serial number. -/
structure Sortable (tx : TransferTransaction) : Prop where
  tokens : TokenTransfer.Comparable tx.tokenTransfers
  hbars : ∀ a ∈ tx.hbarTransfers, ∀ b ∈ tx.hbarTransfers, a.accountId.Comparable b.accountId
  nfts : ∀ a ∈ tx.nftTransfers, ∀ b ∈ tx.nftTransfers, TokenNftTransfer.Comparable a b
  untied : tx.nftTransfers.Pairwise fun a b => a.compare b ≠ 0

variable {tx : TransferTransaction}

/-! ## Sorted again -/

theorem tokens_told (entered : tx.Entered) (sortable : tx.Sortable) :
    (tx.tokenTransfers.map TokenTransfer.sortKey).Nodup := by
  refine List.pairwise_map.mpr ((List.pairwise_map.mp entered.tokens).imp_of_mem ?_)
  intro a b member member' differ same
  obtain ⟨tokens, accounts⟩ := Prod.mk.inj (toLex_inj.mp same)
  exact differ ⟨TokenId.compare_eq_zero_iff_key.mpr tokens,
    AccountId.compare_eq_zero_of_place (sortable.tokens a member b member' tokens) accounts⟩

theorem hbars_told (entered : tx.Entered) (sortable : tx.Sortable) :
    (tx.hbarTransfers.map fun transfer => transfer.accountId.place).Nodup := by
  refine List.pairwise_map.mpr ((List.pairwise_map.mp entered.hbars).imp_of_mem ?_)
  intro a b member member' differ same
  exact differ (AccountId.compare_eq_zero_of_place (sortable.hbars a member b member') same)

theorem nfts_told (sortable : tx.Sortable) : (tx.nftTransfers.map TokenNftTransfer.sortKey).Nodup := by
  refine List.pairwise_map.mpr (sortable.untied.imp_of_mem ?_)
  intro a b member member' differ same
  obtain ⟨senders, rest⟩ := Prod.mk.inj (toLex_inj.mp same)
  obtain ⟨receivers, serials⟩ := Prod.mk.inj (toLex_inj.mp rest)
  have comparable := sortable.nfts a member b member'
  have sender := AccountId.compare_eq_zero_of_place comparable.senders senders
  have receiver := AccountId.compare_eq_zero_of_place (comparable.receivers sender) receivers
  refine differ ?_
  rw [TokenNftTransfer.compare, if_neg (not_not.mpr sender), if_neg (not_not.mpr receiver)]
  exact compareLong_eq_zero.mpr serials

/-- The hbar transfers that are read are sorted as they were. -/
theorem hbars_again (entered : tx.Entered) (sortable : tx.Sortable) :
    (Js.sort Transfer.compare (Transfer.ofAmounts tx.body.accountAmounts)).map Transfer.toProtobuf =
      tx.body.accountAmounts := by
  have amounts : tx.body.accountAmounts = (Js.sort Transfer.compare tx.hbarTransfers).map Transfer.toProtobuf := rfl
  have shown : (Transfer.ofAmounts tx.body.accountAmounts).map (fun a => (a.accountId.place, a.toProtobuf)) =
      (Js.sort Transfer.compare tx.hbarTransfers).map fun a => (a.accountId.place, a.toProtobuf) := by
    rw [amounts, Transfer.ofAmounts, List.map_map, List.map_map]
    refine List.map_congr_left fun transfer _ => ?_
    simp only [Function.comp_apply, Transfer.toProtobuf, AccountId.place_onWire, AccountId.onWire_onWire,
      Transfer.tinybars, toInt64, Int.bmod_bmod]
  conv_rhs => rw [amounts]
  refine (Transfer.map_sort_eq sortable.hbars ?_ ?_ ?_).symm
  · intro a member b member'
    rw [amounts, Transfer.ofAmounts, List.map_map] at member member'
    obtain ⟨own, inOwn, rfl⟩ := List.mem_map.mp member
    obtain ⟨other, inOther, rfl⟩ := List.mem_map.mp member'
    have comparable := sortable.hbars own ((Js.sort_perm _ _).mem_iff.mp inOwn) other
      ((Js.sort_perm _ _).mem_iff.mp inOther)
    exact AccountId.comparable_onWire (AccountId.comparable_onWire comparable)
  · rw [shown]
    exact ((Js.sort_perm _ _).map _).symm
  · intro a member b member' same
    rw [List.inj_on_of_nodup_map (tx.hbars_told entered sortable) member member' same]

/-! ## Filed under their tokens -/

/-- What a fungible transfer is filed as. -/
def filed (transfer : TokenTransfer) : TokenId × AccountAmount := (transfer.tokenId.onWire, transfer.toProtobuf)

def filedNft (nft : TokenNftTransfer) : TokenId × NftTransfer := (nft.tokenId.onWire, nft.toProtobuf)

/-- The lists have ids as they are read. -/
structure OnWire (list : TokenTransferList) : Prop where
  token : list.token.onWire = list.token
  accounts : ∀ transfer ∈ list.transfers, transfer.accountID.onWire = transfer.accountID
  nfts : ∀ nft ∈ list.nftTransfers, nft.senderAccountID.onWire = nft.senderAccountID ∧
    nft.receiverAccountID.onWire = nft.receiverAccountID

theorem onWire_toProtobuf (group : TransferGroup) : OnWire group.toProtobuf where
  token := rfl
  accounts := List.forall_mem_map.mpr fun transfer _ => transfer.accountId.onWire_onWire
  nfts := List.forall_mem_map.mpr fun nft _ =>
    ⟨nft.senderAccountId.onWire_onWire, nft.receiverAccountId.onWire_onWire⟩

variable {lists : List TokenTransferList}

theorem filed_ofLists (onWire : ∀ list ∈ lists, OnWire list) :
    (TokenTransfer.ofLists lists).map filed =
      lists.flatMap fun list => list.transfers.map (Prod.mk list.token) := by
  rw [TokenTransfer.ofLists, List.map_flatMap]
  refine List.flatMap_congr fun list member => ?_
  obtain ⟨token, accounts, _⟩ := onWire list member
  rw [List.map_map]
  refine List.map_congr_left fun transfer inList => ?_
  simp only [Function.comp_apply, filed, TokenTransfer.toProtobuf, token, accounts transfer inList]

theorem filedNft_ofLists (onWire : ∀ list ∈ lists, OnWire list) :
    (TokenNftTransfer.ofLists lists).map filedNft =
      lists.flatMap fun list => list.nftTransfers.map (Prod.mk list.token) := by
  rw [TokenNftTransfer.ofLists, List.map_flatMap]
  refine List.flatMap_congr fun list member => ?_
  obtain ⟨token, _, nfts⟩ := onWire list member
  rw [List.map_map]
  refine List.map_congr_left fun nft inList => ?_
  obtain ⟨sender, receiver⟩ := nfts nft inList
  simp only [Function.comp_apply, filedNft, TokenNftTransfer.toProtobuf, token, sender, receiver]

theorem onWire_tokenTransferLists (tx : AbstractTokenTransferTransaction) :
    ∀ list ∈ tx.tokenTransferLists, OnWire list :=
  List.forall_mem_map.mpr fun group _ => onWire_toProtobuf group

/-- The transfers that are read are those that were written. -/
theorem perm_filed (tx : AbstractTokenTransferTransaction) :
    ((TokenTransfer.ofLists tx.tokenTransferLists).map filed).Perm (tx.tokenTransfers.map filed) := by
  rw [filed_ofLists (onWire_tokenTransferLists tx)]
  exact tx.perm_transfers

theorem perm_filedNft (tx : AbstractTokenTransferTransaction) :
    ((TokenNftTransfer.ofLists tx.tokenTransferLists).map filedNft).Perm (tx.nftTransfers.map filedNft) := by
  rw [filedNft_ofLists (onWire_tokenTransferLists tx)]
  exact tx.perm_nftTransfers

/-- The fungible transfers that are read are sorted as they were. -/
theorem tokens_again (entered : tx.Entered) (sortable : tx.Sortable) :
    (Js.sort TokenTransfer.compare tx.tokenTransfers).map filed =
      (Js.sort TokenTransfer.compare (TokenTransfer.ofLists tx.tokenTransferLists)).map filed := by
  have shown (transfers : List TokenTransfer) : transfers.map (fun a => (a.sortKey, filed a)) =
      (transfers.map filed).map fun p => (toLex (p.1.key, p.2.accountID.place), p) := by
    rw [List.map_map]
    refine List.map_congr_left fun transfer _ => ?_
    simp only [Function.comp_apply, TokenTransfer.sortKey, filed, TokenTransfer.toProtobuf,
      AccountId.place_onWire]
    rfl
  have kept := perm_filed tx.toAbstractTokenTransferTransaction
  refine TokenTransfer.map_sort_eq sortable.tokens ?_ ?_ ?_
  · intro a member b member' tokens
    obtain ⟨own, inOwn, same⟩ := List.mem_map.mp (kept.mem_iff.mp (List.mem_map_of_mem member))
    obtain ⟨other, inOther, same'⟩ := List.mem_map.mp (kept.mem_iff.mp (List.mem_map_of_mem member'))
    obtain ⟨token, message⟩ := Prod.mk.inj same
    obtain ⟨token', message'⟩ := Prod.mk.inj same'
    refine (sortable.tokens own inOwn other inOther ?_).of_onWire (congrArg AccountAmount.accountID message)
      (congrArg AccountAmount.accountID message')
    rw [TokenId.onWire_eq_iff.mp token, TokenId.onWire_eq_iff.mp token', tokens]
  · rw [shown, shown]
    exact (kept.map _).symm
  · intro a member b member' same
    rw [List.inj_on_of_nodup_map (tx.tokens_told entered sortable) member member' same]

theorem comparable_of_filedNft {a b own other : TokenNftTransfer} (comparable : TokenNftTransfer.Comparable own other)
    (same : filedNft own = filedNft a) (same' : filedNft other = filedNft b) :
    TokenNftTransfer.Comparable a b := by
  have message := (Prod.mk.inj same).2
  have message' := (Prod.mk.inj same').2
  have sender := congrArg NftTransfer.senderAccountID message
  have sender' := congrArg NftTransfer.senderAccountID message'
  have senders := comparable.senders.of_onWire sender sender'
  refine ⟨senders, fun equal => ?_⟩
  have places {id other : AccountId} (wire : id.onWire = other.onWire) : id.place = other.place := by
    rw [← AccountId.place_onWire id, wire, AccountId.place_onWire]
  refine (comparable.receivers ?_).of_onWire (congrArg NftTransfer.receiverAccountID message)
    (congrArg NftTransfer.receiverAccountID message')
  rw [AccountId.compare_eq_zero_iff_place comparable.senders, places sender, places sender']
  exact (AccountId.compare_eq_zero_iff_place senders).mp equal

/-- The NFT transfers that are read are sorted as they were. -/
theorem nfts_again (sortable : tx.Sortable) :
    (Js.sort TokenNftTransfer.compare tx.nftTransfers).map filedNft =
      (Js.sort TokenNftTransfer.compare (TokenNftTransfer.ofLists tx.tokenTransferLists)).map filedNft := by
  have shown (nfts : List TokenNftTransfer) : nfts.map (fun a => (a.sortKey, filedNft a)) =
      (nfts.map filedNft).map fun p =>
        (toLex (p.2.senderAccountID.place, toLex (p.2.receiverAccountID.place, p.2.serialNumber)), p) := by
    rw [List.map_map]
    refine List.map_congr_left fun nft _ => ?_
    simp only [Function.comp_apply, TokenNftTransfer.sortKey, filedNft, TokenNftTransfer.toProtobuf,
      AccountId.place_onWire]
  have kept := perm_filedNft tx.toAbstractTokenTransferTransaction
  refine TokenNftTransfer.map_sort_eq sortable.nfts ?_ ?_ ?_
  · intro a member b member'
    obtain ⟨own, inOwn, same⟩ := List.mem_map.mp (kept.mem_iff.mp (List.mem_map_of_mem member))
    obtain ⟨other, inOther, same'⟩ := List.mem_map.mp (kept.mem_iff.mp (List.mem_map_of_mem member'))
    exact comparable_of_filedNft (sortable.nfts own inOwn other inOther) same same'
  · rw [shown, shown]
    exact (kept.map _).symm
  · intro a member b member' same
    rw [List.inj_on_of_nodup_map (tx.nfts_told sortable) member member' same]

/-! ## Decimals -/

/-- The fungible transfers of a token end in one list. -/
theorem once_groups (tx : TransferTransaction) : TransferGroup.Once tx.groups := by
  have sorted := List.pairwise_map.mp (Js.pairwise_sort TokenTransfer.rightAbout tx.tokenTransfers)
  refine TransferGroup.once_groupTransfers sorted ?_
  rw [AbstractTokenTransferTransaction.sortTransfers]
  generalize Js.sort TokenTransfer.compare tx.tokenTransfers = transfers
  cases transfers with
  | nil => exact List.Pairwise.nil
  | cons transfer rest => exact ⟨⟨.nil, by simp⟩, by simp⟩

/-- The decimals that are read are those of the list, where these are not 0. -/
theorem decimals_ofLists {decimals : ℤ ×ₗ ℤ ×ₗ ℤ → Option Nat}
    (expects : TransferGroup.Expects decimals tx.groups)
    (set : ∀ list ∈ tx.tokenTransferLists, list.expectedDecimals ≠ some 0) :
    ∀ transfer ∈ TokenTransfer.ofLists tx.tokenTransferLists,
      transfer.expectedDecimals = decimals transfer.tokenId.key := by
  intro transfer member
  obtain ⟨list, inLists, inList⟩ := List.mem_flatMap.mp member
  obtain ⟨amount, inAmounts, rfl⟩ := List.mem_map.mp inList
  obtain ⟨group, inGroups, rfl⟩ := List.mem_map.mp inLists
  have some : group.HasTransfers := by
    intro none
    rw [TransferGroup.toProtobuf, none] at inAmounts
    cases inAmounts
  have kept : group.expectedDecimals.filter (· ≠ 0) = group.expectedDecimals := by
    have other := set _ inLists
    rw [TransferGroup.toProtobuf] at other
    cases decimals : group.expectedDecimals with
    | none => rfl
    | some n =>
        rw [decimals] at other
        simpa [Option.filter] using other
  exact kept.trans (expects group inGroups some)

/-- The lists that are built of what is read are the same. -/
theorem lists_again (entered : tx.Entered) (sortable : tx.Sortable)
    (set : ∀ list ∈ tx.tokenTransferLists, list.expectedDecimals ≠ some 0) :
    tx.body.copy.tokenTransferLists = tx.tokenTransferLists := by
  obtain ⟨decimals, expects⟩ := (once_groups tx).exists_expects
  have read := decimals_ofLists expects set
  have tokens := forall₂_of_map_eq (tokens_again entered sortable)
  have retold : List.Forall₂ (TransferGroup.Retold decimals) (Js.sort TokenTransfer.compare tx.tokenTransfers)
      (Js.sort TokenTransfer.compare (TokenTransfer.ofLists tx.tokenTransferLists)) := by
    have own : ∀ transfer ∈ Js.sort TokenTransfer.compare (TokenTransfer.ofLists tx.tokenTransferLists),
        transfer.expectedDecimals = decimals transfer.tokenId.key :=
      fun transfer member => read transfer ((Js.sort_perm _ _).mem_iff.mp member)
    refine ((List.forall₂_and_left _ _).mpr ⟨own, tokens.flip⟩).flip.imp ?_
    rintro a b ⟨expected, same⟩
    exact ⟨⟨TokenId.onWire_eq_iff.mp (Prod.mk.inj same).1, (Prod.mk.inj same).2⟩, expected⟩
  have nfts : List.Forall₂ TokenNftTransfer.SameMessage (Js.sort TokenNftTransfer.compare tx.nftTransfers)
      (Js.sort TokenNftTransfer.compare (TokenNftTransfer.ofLists tx.tokenTransferLists)) :=
    (forall₂_of_map_eq (nfts_again sortable)).imp fun a b same =>
      ⟨TokenId.onWire_eq_iff.mp (Prod.mk.inj same).1, (Prod.mk.inj same).2⟩
  have again := TransferGroup.SameMessages.groupTransfers_again retold nfts .nil expects
  refine Eq.symm ?_
  rw [← List.forall₂_eq_eq_eq]
  exact List.forall₂_map_left_iff.mpr (List.forall₂_map_right_iff.mpr again)

/-- A list that is built of what is read does not expect 0 decimals. -/
theorem decimals_ne_zero (cryptoTransfer : CryptoTransferBody) :
    ∀ list ∈ cryptoTransfer.copy.body.tokenTransfers, list.expectedDecimals ≠ some 0 := by
  refine List.forall_mem_map.mpr fun group member => ?_
  refine TransferGroup.decimals_groupTransfers (P := (· ≠ some 0)) (by simp) (by simp) ?_ group member
  intro transfer inSorted
  obtain ⟨list, _, inList⟩ := List.mem_flatMap.mp ((Js.sort_perm _ _).mem_iff.mp inSorted)
  obtain ⟨amount, _, rfl⟩ := List.mem_map.mp inList
  intro zero
  simp at zero

/-- The transfers that are read of a body build it again exactly when no list expects 0 decimals. -/
theorem body_again_iff {keys : KeyCodec} (faithful : keys.Faithful) (transaction : Transaction) (calls : List Call)
    (sortable : (runAll step { transaction } calls).Sortable) :
    ∃ copy, fromProtobuf keys ((runAll step { transaction } calls).body.toMessage keys) = .ok copy ∧
      (copy.body = (runAll step { transaction } calls).body ↔
        ∀ list ∈ (runAll step { transaction } calls).body.tokenTransfers, list.expectedDecimals ≠ some 0) := by
  have entered := entered_runAll transaction calls
  generalize runAll step { transaction } calls = tx at entered sortable
  refine ⟨tx.body.copy, fromProtobuf_toMessage faithful tx.body, ?_, ?_⟩
  · intro same
    rw [← same]
    exact decimals_ne_zero tx.body
  · intro set
    have lists := lists_again entered sortable set
    have amounts := hbars_again entered sortable
    exact congrArg₂ CryptoTransferBody.mk amounts lists

instance decidableComparable (a b : TokenNftTransfer) : Decidable (TokenNftTransfer.Comparable a b) :=
  decidable_of_iff (a.senderAccountId.Comparable b.senderAccountId ∧
      (a.senderAccountId.compare b.senderAccountId = 0 → a.receiverAccountId.Comparable b.receiverAccountId))
    ⟨fun h => ⟨h.1, h.2⟩, fun h => ⟨h.1, h.2⟩⟩

/-- Hbars, tokens with 2 decimals and an NFT of another token change hands. -/
def purchase : List Call :=
  [.addHbarTransfer (.ofNum 8) (-10), .addApprovedHbarTransfer (.ofNum 7) 10,
    .token (.addTokenTransferWithDecimals (.ofNum 3) (.ofNum 7) 5 2),
    .token (.addTokenTransferWithDecimals (.ofNum 3) (.ofNum 8) (-5) 2),
    .token (.addNftTransfer ⟨.ofNum 2, 1⟩ (.ofNum 7) (.ofNum 8))]

theorem purchase_again :
    ∃ copy, fromProtobuf prefixKeys ((runAll step blank purchase).body.toMessage prefixKeys) = .ok copy ∧
      (copy.body = (runAll step blank purchase).body ↔
        ∀ list ∈ (runAll step blank purchase).body.tokenTransfers, list.expectedDecimals ≠ some 0) := by
  refine body_again_iff prefixKeys_faithful _ purchase ⟨?_, ?_, ?_, ?_⟩
  · unfold TokenTransfer.Comparable
    decide +kernel
  · decide +kernel
  · decide +kernel
  · decide +kernel

/-- NFT transfers that agree in sender, receiver and serial number are read token by token. The walk over
the copy then meets another token between two transfers of token 1 and lists it twice. -/
theorem tied_nfts_again :
    let tx := runAll step blank
      [.token (.addTokenTransfer (.ofNum 3) (.ofNum 7) 5), .token (.addNftTransfer ⟨.ofNum 1, 1⟩ (.ofNum 7) (.ofNum 8)),
        .token (.addNftTransfer ⟨.ofNum 2, 1⟩ (.ofNum 7) (.ofNum 8)),
        .token (.addNftTransfer ⟨.ofNum 3, 2⟩ (.ofNum 7) (.ofNum 8)),
        .token (.addNftTransfer ⟨.ofNum 1, 2⟩ (.ofNum 7) (.ofNum 8))]
    tx.body.tokenTransfers.length = 3 ∧ tx.body.copy.body.tokenTransfers.length = 4 := by
  decide +kernel

end TransferTransaction

/-! ## What the getters show -/

namespace AbstractTokenTransferTransaction

/-- The getter `tokenTransfers`, by the texts of the ids. -/
def getTokenTransfers (tx : AbstractTokenTransferTransaction) : ObjectMap (ObjectMap Int) :=
  tx.tokenTransfers.foldl (fun map transfer =>
    let transferMap := (map.get? transfer.tokenId.toString).getD .empty
    map.set transfer.tokenId.toString (transferMap.set transfer.accountId.toString transfer.amount)) .empty

def entryOf (transfer : TokenNftTransfer) : NftTransferEntry where
  sender := transfer.senderAccountId
  recipient := transfer.receiverAccountId
  serial := transfer.serialNumber
  isApproved := transfer.isApproved

/-- The getter `nftTransfers`. -/
def getNftTransfers (tx : AbstractTokenTransferTransaction) : ObjectMap (List NftTransferEntry) :=
  tx.nftTransfers.foldl (fun map transfer =>
    let transferList := (map.get? transfer.tokenId.toString).getD []
    map.set transfer.tokenId.toString (transferList ++ [entryOf transfer])) .empty

end AbstractTokenTransferTransaction

/-- The getter `hbarTransfers`, in tinybars. -/
def TransferTransaction.getHbarTransfers (tx : TransferTransaction) : ObjectMap Int :=
  tx.hbarTransfers.foldl (fun map transfer => map.set transfer.accountId.toString transfer.tinybars) .empty

/-- The message of what is shown of an NFT. -/
def NftTransferEntry.toProtobuf (entry : NftTransferEntry) : NftTransfer where
  senderAccountID := entry.sender.onWire
  receiverAccountID := entry.recipient.onWire
  serialNumber := entry.serial
  isApproval := entry.isApproved

theorem TokenId.toString_inj {a b : TokenId} : a.toString = b.toString ↔ a.onWire = b.onWire := by
  have texts : a.toString = b.toString ↔ a.toMessage = b.toMessage :=
    @toString_ofMessage_inj a.toMessage b.toMessage
  rw [texts]
  simp [toMessage, onWire]

namespace CryptoTransferBody

/-- What is moved of an account, approved or not. -/
def hbarsOf (body : CryptoTransferBody) (account : AccountId) : Int :=
  body.hbars (account.identity, false) + body.hbars (account.identity, true)

def tokensOf (body : CryptoTransferBody) (token : TokenId) (account : AccountId) : Int :=
  body.fungible (token.onWire, account.identity, false) + body.fungible (token.onWire, account.identity, true)

def nftsOf (body : CryptoTransferBody) (token : TokenId) : List NftTransfer :=
  ((body.tokenTransfers.flatMap fun list => list.nftTransfers.map (Prod.mk list.token)).filter
    fun entry => entry.1 = token.onWire).map Prod.snd

end CryptoTransferBody

namespace TransferTransaction

/-- What is found under the texts of a token and an account is what the body moves, 0 where nothing is found. -/
structure Shows (tx : TransferTransaction) : Prop where
  hbars : ∀ account : AccountId, account.OneName →
    (tx.getHbarTransfers.get? account.toString).getD 0 = tx.body.hbarsOf account
  tokens : ∀ (token : TokenId) (account : AccountId), account.OneName →
    ((tx.getTokenTransfers.get? token.toString).bind fun map => map.get? account.toString).getD 0 =
      tx.body.tokensOf token account
  nfts : ∀ token : TokenId,
    (((tx.getNftTransfers.get? token.toString).getD []).map NftTransferEntry.toProtobuf).Perm (tx.body.nftsOf token)

/-- Every account has one name. -/
structure Named (tx : TransferTransaction) : Prop where
  tokens : ∀ transfer ∈ tx.tokenTransfers, transfer.accountId.OneName
  hbars : ∀ transfer ∈ tx.hbarTransfers, transfer.accountId.OneName

section Shown

variable (tx : TransferTransaction) (token : TokenId) (account : AccountId)

/-- Of the transfers of an account the last one is shown. -/
theorem shown_hbars :
    (tx.getHbarTransfers.get? account.toString).getD 0 = lastWeight Transfer.tinybars
      (tx.hbarTransfers.filter fun transfer => transfer.accountId.toString = account.toString) :=
  OrderedMap.getD_foldl_set (fun transfer : Transfer => transfer.accountId.toString)
    (fun _ transfer => transfer.tinybars) 0 tx.hbarTransfers .empty account.toString

/-- All of them are moved. -/
theorem moved_hbars :
    tx.body.hbarsOf account =
      ((tx.hbarTransfers.filter fun transfer =>
        transfer.accountId.identity = account.identity).map Transfer.tinybars).sum := by
  rw [CryptoTransferBody.hbarsOf, body_hbars, hbars]
  induction tx.hbarTransfers with
  | nil => rfl
  | cons transfer rest inductionHypothesis =>
      rw [List.map_cons, List.sum_cons, Pi.add_apply, Pi.add_apply, Transfer.moves, Transfer.spend]
      by_cases same : transfer.accountId.identity = account.identity
      · rw [List.filter_cons_of_pos (by simp [same]), List.map_cons, List.sum_cons, ← inductionHypothesis, same]
        cases transfer.isApproved <;> simp <;> omega
      · rw [List.filter_cons_of_neg (by simp [same]), ← inductionHypothesis]
        simp [Ne.symm same]

theorem shown_tokens :
    ((tx.getTokenTransfers.get? token.toString).bind fun map => map.get? account.toString).getD 0 =
      lastWeight TokenTransfer.amount ((tx.tokenTransfers.filter fun transfer =>
        transfer.tokenId.toString = token.toString).filter fun transfer =>
          transfer.accountId.toString = account.toString) := by
  have ofToken : (tx.getTokenTransfers.get? token.toString).getD .empty =
      (tx.tokenTransfers.filter fun transfer => transfer.tokenId.toString = token.toString).foldl
        (fun map transfer => map.set transfer.accountId.toString transfer.amount) .empty :=
    OrderedMap.getD_foldl_set (fun transfer : TokenTransfer => transfer.tokenId.toString)
      (fun (map : ObjectMap Int) transfer => map.set transfer.accountId.toString transfer.amount) .empty
      tx.tokenTransfers .empty token.toString
  have bound : (tx.getTokenTransfers.get? token.toString).bind (fun map => map.get? account.toString) =
      ((tx.getTokenTransfers.get? token.toString).getD .empty).get? account.toString := by
    cases tx.getTokenTransfers.get? token.toString <;> rfl
  rw [bound, ofToken]
  exact OrderedMap.getD_foldl_set (fun transfer : TokenTransfer => transfer.accountId.toString)
    (fun _ transfer => transfer.amount) 0 _ .empty account.toString

theorem moved_tokens :
    tx.body.tokensOf token account =
      ((tx.tokenTransfers.filter fun transfer => transfer.tokenId.onWire = token.onWire ∧
        transfer.accountId.identity = account.identity).map TokenTransfer.amount).sum := by
  rw [CryptoTransferBody.tokensOf, body_fungible, fungible]
  induction tx.tokenTransfers with
  | nil => rfl
  | cons transfer rest inductionHypothesis =>
      rw [List.map_cons, List.sum_cons, Pi.add_apply, Pi.add_apply, TokenTransfer.moves, TokenTransfer.spend]
      by_cases same : transfer.tokenId.onWire = token.onWire ∧ transfer.accountId.identity = account.identity
      · rw [List.filter_cons_of_pos (by simp [same]), List.map_cons, List.sum_cons, ← inductionHypothesis,
          same.1, same.2]
        cases transfer.isApproved <;> simp <;> omega
      · rw [List.filter_cons_of_neg (by simpa using same), ← inductionHypothesis]
        have other (approved : Bool) : (token.onWire, account.identity, approved) ≠
            (transfer.tokenId.onWire, transfer.accountId.identity, transfer.isApproved) := by
          intro equal
          simp only [Prod.mk.injEq] at equal
          exact same ⟨equal.1.symm, equal.2.1.symm⟩
        rw [Pi.single_eq_of_ne (other false), Pi.single_eq_of_ne (other true)]
        omega

/-- The NFT transfers of a token are shown in the order of the calls and moved in the order of sorting. -/
theorem shown_nfts :
    (((tx.getNftTransfers.get? token.toString).getD []).map NftTransferEntry.toProtobuf).Perm
      (tx.body.nftsOf token) := by
  have shown : (tx.getNftTransfers.get? token.toString).getD [] =
      (tx.nftTransfers.filter fun transfer => transfer.tokenId.toString = token.toString).map
        AbstractTokenTransferTransaction.entryOf := by
    refine (OrderedMap.getD_foldl_set (fun transfer : TokenNftTransfer => transfer.tokenId.toString)
      (fun list transfer => list ++ [AbstractTokenTransferTransaction.entryOf transfer]) []
      tx.nftTransfers .empty token.toString).trans ?_
    rw [List.foldl_append_eq_append, ← List.flatMap_def, ← List.map_eq_flatMap]
    rfl
  have ofToken : (tx.nftTransfers.filter fun transfer => transfer.tokenId.toString = token.toString) =
      tx.nftTransfers.filter ((fun entry => decide (entry.1 = token.onWire)) ∘ filedNft) :=
    List.filter_congr fun transfer _ => decide_eq_decide.mpr TokenId.toString_inj
  have moved : (tx.body.nftsOf token).Perm
      (((tx.nftTransfers.map filedNft).filter fun entry => entry.1 = token.onWire).map Prod.snd) :=
    (tx.perm_nftTransfers.filter fun entry : TokenId × NftTransfer => entry.1 = token.onWire).map Prod.snd
  rw [List.filter_map, ← ofToken, List.map_map] at moved
  rw [shown, List.map_map]
  exact moved.symm

end Shown

section Texts

variable {tx : TransferTransaction} {token : TokenId} {account : AccountId}

theorem isFor_iff_toString {transfer : Transfer} (one : transfer.accountId.OneName) (named : account.OneName) :
    transfer.isFor account = true ↔ transfer.accountId.toString = account.toString := by
  rw [Transfer.isFor, beq_iff_eq, AccountId.compare_eq_zero, AccountId.equals_iff_toString one named]

theorem isForToken_iff_toString {transfer : TokenTransfer} (one : transfer.accountId.OneName)
    (named : account.OneName) : transfer.isFor token account = true ↔
      transfer.tokenId.toString = token.toString ∧ transfer.accountId.toString = account.toString := by
  rw [TokenTransfer.isFor, Bool.and_eq_true, beq_iff_eq, beq_iff_eq, AccountId.compare_eq_zero,
    AccountId.equals_iff_toString one named, TokenId.compare_eq_zero, TokenId.toString_inj]
  simp [TokenId.numbers, TokenId.onWire]

/-- The entries that hbars of the account could be added to. -/
def hbarsFor (tx : TransferTransaction) (account : AccountId) : List Transfer :=
  tx.hbarTransfers.filter (Transfer.isFor account)

def tokensFor (tx : TransferTransaction) (token : TokenId) (account : AccountId) : List TokenTransfer :=
  tx.tokenTransfers.filter (TokenTransfer.isFor token account)

theorem hbarsFor_eq (named : tx.Named) (one : account.OneName) : tx.hbarsFor account =
    tx.hbarTransfers.filter fun transfer => transfer.accountId.toString = account.toString := by
  refine List.filter_congr fun transfer member => ?_
  rw [Bool.eq_iff_iff, isFor_iff_toString (named.hbars transfer member) one, decide_eq_true_iff]

theorem tokensFor_eq (named : tx.Named) (token : TokenId) (one : account.OneName) : tx.tokensFor token account =
    tx.tokenTransfers.filter fun transfer => transfer.tokenId.toString = token.toString ∧
      transfer.accountId.toString = account.toString := by
  refine List.filter_congr fun transfer member => ?_
  rw [Bool.eq_iff_iff, isForToken_iff_toString (named.tokens transfer member) one, decide_eq_true_iff]

/-- Hbars are shown as they are moved when the last of the entries is all of them. -/
theorem hbars_shown_iff (named : tx.Named) (one : account.OneName) :
    (tx.getHbarTransfers.get? account.toString).getD 0 = tx.body.hbarsOf account ↔
      lastWeight Transfer.tinybars (tx.hbarsFor account) =
        ((tx.hbarsFor account).map Transfer.tinybars).sum := by
  have identities : (tx.hbarTransfers.filter fun transfer => transfer.accountId.identity = account.identity) =
      tx.hbarsFor account := by
    rw [hbarsFor_eq named one]
    refine List.filter_congr fun transfer member => ?_
    rw [decide_eq_decide, AccountId.toString_inj (named.hbars transfer member).long one.long]
  rw [shown_hbars, moved_hbars, identities, ← hbarsFor_eq named one]

theorem tokens_shown_iff (named : tx.Named) (token : TokenId) (one : account.OneName) :
    ((tx.getTokenTransfers.get? token.toString).bind fun map => map.get? account.toString).getD 0 =
        tx.body.tokensOf token account ↔
      lastWeight TokenTransfer.amount (tx.tokensFor token account) =
        ((tx.tokensFor token account).map TokenTransfer.amount).sum := by
  have identities : (tx.tokenTransfers.filter fun transfer => transfer.tokenId.onWire = token.onWire ∧
      transfer.accountId.identity = account.identity) = tx.tokensFor token account := by
    rw [tokensFor_eq named token one]
    refine List.filter_congr fun transfer member => ?_
    rw [decide_eq_decide, AccountId.toString_inj (named.tokens transfer member).long one.long, TokenId.toString_inj]
  have texts : ((tx.tokenTransfers.filter fun transfer => transfer.tokenId.toString = token.toString).filter
      fun transfer => transfer.accountId.toString = account.toString) = tx.tokensFor token account := by
    rw [tokensFor_eq named token one, List.filter_filter]
    refine List.filter_congr fun transfer _ => ?_
    rw [Bool.decide_and, Bool.and_comm]
  rw [shown_tokens, moved_tokens, identities, texts]

end Texts

section Entries

variable {tx : TransferTransaction}

theorem entered_iff (named : tx.Named) : tx.Entered ↔
    (∀ transfer ∈ tx.tokenTransfers, (tx.tokensFor transfer.tokenId transfer.accountId).length ≤ 1) ∧
      ∀ transfer ∈ tx.hbarTransfers, (tx.hbarsFor transfer.accountId).length ≤ 1 := by
  have tokens : (tx.tokenTransfers.Pairwise fun a b => ¬SameEntry a.entry b.entry) ↔
      ∀ transfer ∈ tx.tokenTransfers, (tx.tokensFor transfer.tokenId transfer.accountId).length ≤ 1 := by
    rw [pairwise_iff_filter
      (fun transfer : TokenTransfer => (transfer.tokenId.toString, transfer.accountId.toString))
      fun a first b second => ?_]
    · refine forall₂_congr fun a first => ?_
      rw [tokensFor_eq named a.tokenId (named.tokens a first)]
      simp only [Prod.mk.injEq]
    · rw [Prod.mk.injEq, ← isForToken_iff_toString (named.tokens a first) (named.tokens b second), sameEntry_iff]
      rfl
  have hbars : (tx.hbarTransfers.Pairwise fun a b => ¬a.accountId.compare b.accountId = 0) ↔
      ∀ transfer ∈ tx.hbarTransfers, (tx.hbarsFor transfer.accountId).length ≤ 1 := by
    rw [pairwise_iff_filter (fun transfer : Transfer => transfer.accountId.toString)
      fun a first b second => ?_]
    · refine forall₂_congr fun a first => ?_
      rw [hbarsFor_eq named (named.hbars a first)]
    · rw [← isFor_iff_toString (named.hbars a first) (named.hbars b second), Transfer.isFor, beq_iff_eq]
  rw [← tokens, ← hbars]
  exact ⟨fun entered => ⟨List.pairwise_map.mp entered.tokens, List.pairwise_map.mp entered.hbars⟩,
    fun each => ⟨List.pairwise_map.mpr each.1, List.pairwise_map.mpr each.2⟩⟩

theorem shows_of_entered (named : tx.Named) (entered : tx.Entered) : tx.Shows := by
  obtain ⟨tokens, hbars⟩ := (entered_iff named).mp entered
  refine ⟨fun account one => ?_, fun token account one => ?_, shown_nfts tx⟩
  · rw [hbars_shown_iff named one]
    refine lastWeight_eq_sum _ (length_le_one_of_mem fun transfer found => ?_)
    obtain ⟨member, isFor⟩ := List.mem_filter.mp found
    have text := (isFor_iff_toString (named.hbars transfer member) one).mp isFor
    have once := hbars transfer member
    rwa [hbarsFor_eq named (named.hbars transfer member), text, ← hbarsFor_eq named one] at once
  · rw [tokens_shown_iff named token one]
    refine lastWeight_eq_sum _ (length_le_one_of_mem fun transfer found => ?_)
    obtain ⟨member, isFor⟩ := List.mem_filter.mp found
    have texts := (isForToken_iff_toString (named.tokens transfer member) one).mp isFor
    have once := tokens transfer member
    rwa [tokensFor_eq named transfer.tokenId (named.tokens transfer member), texts.1, texts.2,
      ← tokensFor_eq named token one] at once

end Entries

/-! ## One more tinybar -/

theorem toInt64_add_one_ne (n : Int) : toInt64 (n + 1) ≠ n := by
  intro same
  have rest : (n + 1).bmod (2 ^ 64) % (2 ^ 64 : Nat) = (n + 1) % (2 ^ 64 : Nat) := Int.bmod_emod
  rw [toInt64] at same
  rw [same] at rest
  omega

section More

variable {tx : TransferTransaction}

/-- Of two entries of an account the first takes another tinybar, and the last is shown. -/
theorem hbars_once (unfrozen : tx.transaction.isFrozenOrOnDemand = false) (named : tx.Named) (shows : tx.Shows)
    (more : ∀ account : AccountId, (tx.step (.addHbarTransfer account 1)).Named →
      (tx.step (.addHbarTransfer account 1)).Shows) :
    ∀ transfer ∈ tx.hbarTransfers, (tx.hbarsFor transfer.accountId).length ≤ 1 := by
  intro transfer member
  have one := named.hbars transfer member
  have stepped : tx.step (.addHbarTransfer transfer.accountId 1) =
      { tx with
        hbarTransfers := upsert (Transfer.isFor transfer.accountId)
          (fun transfer => { transfer with amount := addLong transfer.tinybars (toInt64 1) })
          { accountId := transfer.accountId, amount := 1, isApproved := false } tx.hbarTransfers } := by
    rw [step, Call.method, addHbarTransfer, run_mergeHbarTransfer unfrozen]
  have namedNext : (tx.step (.addHbarTransfer transfer.accountId 1)).Named := by
    rw [stepped]
    refine ⟨named.tokens, forall_upsert (P := fun transfer : Transfer => transfer.accountId.OneName) ?_ ?_
      named.hbars⟩
    · exact fun _ given => given
    · exact one
  have before := (hbars_shown_iff named one).mp (shows.hbars transfer.accountId one)
  have after := (hbars_shown_iff namedNext one).mp
    ((more transfer.accountId namedNext).hbars transfer.accountId one)
  rw [stepped] at after
  refine length_filter_of_lastWeight Transfer.tinybars (fun _ => ?_) (fun entry => ?_) before after
  · rfl
  · rw [Transfer.tinybars, toInt64_addLong]
    exact toInt64_add_one_ne entry.tinybars

theorem tokens_once (unfrozen : tx.transaction.isFrozenOrOnDemand = false) (named : tx.Named) (shows : tx.Shows)
    (more : ∀ (token : TokenId) (account : AccountId),
      (tx.step (.token (.addTokenTransfer token account 1))).Named →
        (tx.step (.token (.addTokenTransfer token account 1))).Shows) :
    ∀ transfer ∈ tx.tokenTransfers, (tx.tokensFor transfer.tokenId transfer.accountId).length ≤ 1 := by
  intro transfer member
  have one := named.tokens transfer member
  have stepped : tx.step (.token (.addTokenTransfer transfer.tokenId transfer.accountId 1)) =
      { tx with
        tokenTransfers := upsert (TokenTransfer.isFor transfer.tokenId transfer.accountId)
          (fun transfer => { transfer with amount := addLong transfer.amount 1, expectedDecimals := none })
          { tokenId := transfer.tokenId
            accountId := transfer.accountId
            expectedDecimals := none
            amount := 1
            isApproved := false }
          tx.tokenTransfers } := by
    rw [step, Call.method, ofSuper, Method.run_zoom, AbstractTokenTransferTransaction.Call.method,
      AbstractTokenTransferTransaction.addTokenTransfer,
      AbstractTokenTransferTransaction.run_mergeTokenTransfer unfrozen]
  have namedNext : (tx.step (.token (.addTokenTransfer transfer.tokenId transfer.accountId 1))).Named := by
    rw [stepped]
    refine ⟨forall_upsert (P := fun transfer : TokenTransfer => transfer.accountId.OneName) ?_ ?_
      named.tokens, named.hbars⟩
    · exact fun _ given => given
    · exact one
  have before := (tokens_shown_iff named transfer.tokenId one).mp
    (shows.tokens transfer.tokenId transfer.accountId one)
  have after := (tokens_shown_iff namedNext transfer.tokenId one).mp
    ((more transfer.tokenId transfer.accountId namedNext).tokens transfer.tokenId transfer.accountId one)
  rw [stepped] at after
  refine length_filter_of_lastWeight TokenTransfer.amount (fun _ => ?_) (fun entry => ?_) before after
  · rfl
  · exact toInt64_add_one_ne entry.amount

end More

/-- The getters show what the body moves after all calls exactly where no account has two entries at first. A new
transaction has none; a copy can have an approved entry and another one, of which the getters show the last. -/
theorem getters_show_iff (tx : TransferTransaction) (unfrozen : tx.transaction.isFrozenOrOnDemand = false)
    (named : tx.Named) :
    (∀ calls, (runAll step tx calls).Named → (runAll step tx calls).Shows) ↔ tx.Entered := by
  constructor
  · intro always
    have shows := always [] named
    exact (entered_iff named).mpr
      ⟨tokens_once unfrozen named shows fun token account => always [.token (.addTokenTransfer token account 1)],
        hbars_once unfrozen named shows fun account => always [.addHbarTransfer account 1]⟩
  · intro entered calls namedThen
    exact shows_of_entered namedThen (runAll_invariant_all entered_step calls entered)

/-- An approved and a plain amount of account 8. -/
def approvedAndPlain : CryptoTransferBody where
  accountAmounts :=
    [{ accountID := .ofNum 8, amount := -3, isApproval := true },
      { accountID := .ofNum 8, amount := -5, isApproval := false },
      { accountID := .ofNum 7, amount := 8, isApproval := false }]
  tokenTransfers := []

theorem approved_entry_is_hidden :
    (∀ calls, (runAll step blank calls).Named → (runAll step blank calls).Shows) ∧
      ¬∀ calls, (runAll step approvedAndPlain.copy calls).Named →
        (runAll step approvedAndPlain.copy calls).Shows := by
  constructor
  · have named : blank.Named := ⟨List.forall_mem_nil _, List.forall_mem_nil _⟩
    exact (getters_show_iff blank rfl named).mpr ⟨.nil, .nil⟩
  · have eight : (AccountId.ofNum 8).OneName := ⟨⟨by decide, by decide, by decide⟩, .inl rfl⟩
    have seven : (AccountId.ofNum 7).OneName := ⟨⟨by decide, by decide, by decide⟩, .inl rfl⟩
    have named : approvedAndPlain.copy.Named := by
      refine ⟨List.forall_mem_nil _, ?_⟩
      simpa [approvedAndPlain, CryptoTransferBody.copy, Transfer.ofAmounts] using ⟨eight, seven⟩
    intro always
    have entered := (getters_show_iff approvedAndPlain.copy rfl named).mp always
    exact absurd entered.hbars (by decide)

end TransferTransaction

end HederaSdk
