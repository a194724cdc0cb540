import HederaSdk.Record.TransactionRecord
import HederaSdk.Transaction.PrefixProto
import Mathlib.Algebra.BigOperators.Ring.List

/-!
# Which records keep their token transfers

The loop writes a fungible list as often as there are NFT lists, and an NFT list as often
as there are fungible lists that are not found to be of its token. So the transfers are
kept when there are none, or when there is one NFT list and one such fungible list, and
the maps have everything that was read.
-/

namespace HederaSdk

open Library
open Wire (TokenTransferList)

/-! ## Lists of lists -/

section Lists

variable {α β γ : Type}

theorem flatMap_filter_of_silent {p : α → Bool} {g : α → List β} {items : List α}
    (silent : ∀ a ∈ items, p a = false → g a = []) : (items.filter p).flatMap g = items.flatMap g := by
  induction items with
  | nil => rfl
  | cons a rest inductionHypothesis =>
      obtain ⟨here, later⟩ := List.forall_mem_cons.mp silent
      cases picked : p a with
      | false => simp [picked, here picked, inductionHypothesis later]
      | true => simp [picked, inductionHypothesis later]

theorem flatMap_map_inj {items : α → List β} {g h : α → β → γ} {l : List α} :
    (l.flatMap fun a => (items a).map (g a)) = (l.flatMap fun a => (items a).map (h a)) ↔
      ∀ a ∈ l, ∀ b ∈ items a, g a b = h a b := by
  induction l with
  | nil => simp
  | cons a rest inductionHypothesis =>
      rw [List.flatMap_cons, List.flatMap_cons, List.forall_mem_cons, ← inductionHypothesis,
        ← List.map_inj_left]
      constructor
      · intro same
        exact List.append_inj same (by simp)
      · rintro ⟨here, later⟩
        rw [here, later]

theorem length_flatMap_const (l : List α) (items : List β) :
    (l.flatMap fun _ => items).length = l.length * items.length := by
  simp [List.length_flatMap]

end Lists

/-! ## What is written -/

namespace Wire.TokenTransferList

variable (keys : KeyCodec)

/-- The list that the account amounts of a list are written to. -/
def fungiblePart (list : TokenTransferList) : TokenTransferList where
  token := some list.tokenId.toMessage
  transfers := list.transfers.map fun aa =>
    { accountID := (AccountId.read keys aa.accountID).toProtobuf keys, amount := aa.amount }

/-- The list that the NFT transfers of a list are written to. -/
def nftPart (list : TokenTransferList) : TokenTransferList where
  token := some list.tokenId.toMessage
  nftTransfers := list.nftTransfers.map fun aa =>
    { senderAccountID := (AccountId.read keys aa.senderAccountID).toProtobuf keys
      receiverAccountID := (AccountId.read keys aa.receiverAccountID).toProtobuf keys
      serialNumber := aa.serialNumber }

/-- A list of which everything that was read is written: no approvals, no decimals and no account
with a number beside a key. -/
structure IsPlain (list : TokenTransferList) : Prop where
  transfers : ∀ aa ∈ list.transfers, TokenTransfer.readDecimals list = none ∧ aa.isApproval = false ∧
    (AccountId.read keys aa.accountID).onWire = AccountId.read keys aa.accountID
  nftTransfers : ∀ aa ∈ list.nftTransfers,
    (AccountId.read keys aa.senderAccountID).onWire = AccountId.read keys aa.senderAccountID ∧
      (AccountId.read keys aa.receiverAccountID).onWire = AccountId.read keys aa.receiverAccountID

/-- What is read of a fungible transfer that was written. -/
def writtenTransfer (list : TokenTransferList) (aa : AccountAmount) : TokenTransfer where
  tokenId := list.tokenId
  accountId := (AccountId.read keys aa.accountID).onWire
  expectedDecimals := none
  amount := aa.amount
  isApproved := false

/-- What is read of an NFT transfer that was written. -/
def writtenNft (aa : NftTransfer) : NftTransferEntry where
  sender := (AccountId.read keys aa.senderAccountID).onWire
  recipient := (AccountId.read keys aa.receiverAccountID).onWire
  serial := aa.serialNumber
  isApproved := false

variable {keys}

theorem tokenId_toMessage {list : TokenTransferList} (named : ∃ id, list.token = some id) :
    some list.tokenId.toMessage = list.token := by
  obtain ⟨id, named⟩ := named
  rw [tokenId, named]
  rfl

@[simp] theorem ofMessage_toMessage_tokenId (list : TokenTransferList) :
    TokenId.ofMessage list.tokenId.toMessage = list.tokenId := by
  rw [tokenId]
  cases list.token <;> rfl

@[simp] theorem tokenId_fungiblePart (list : TokenTransferList) :
    (list.fungiblePart keys).tokenId = list.tokenId := ofMessage_toMessage_tokenId list

@[simp] theorem tokenId_nftPart (list : TokenTransferList) : (list.nftPart keys).tokenId = list.tokenId :=
  ofMessage_toMessage_tokenId list

theorem map_tokenTransfer_fungiblePart (faithful : keys.Faithful) (list : TokenTransferList) :
    (list.fungiblePart keys).transfers.map ((list.fungiblePart keys).tokenTransfer keys) =
      list.transfers.map (list.writtenTransfer keys) := by
  simp only [fungiblePart, List.map_map]
  apply List.map_congr_left
  intro aa _
  simp only [Function.comp_apply, tokenTransfer, AccountId.read_toProtobuf faithful]
  change ({ tokenId := (list.fungiblePart keys).tokenId, .. } : TokenTransfer) = _
  rw [tokenId_fungiblePart]
  rfl

theorem nfts_nftPart (faithful : keys.Faithful) (list : TokenTransferList) :
    (list.nftPart keys).nfts keys = list.nftTransfers.map (writtenNft keys) := by
  simp only [nfts, nftPart, List.map_map]
  apply List.map_congr_left
  intro aa _
  simp only [Function.comp_apply, AccountId.read_toProtobuf faithful, writtenNft]

theorem writtenTransfer_eq {list : TokenTransferList} {aa : AccountAmount} :
    list.writtenTransfer keys aa = list.tokenTransfer keys aa ↔
      TokenTransfer.readDecimals list = none ∧ aa.isApproval = false ∧
        (AccountId.read keys aa.accountID).onWire = AccountId.read keys aa.accountID := by
  simp only [writtenTransfer, tokenTransfer, TokenTransfer.mk.injEq, true_and]
  constructor
  · rintro ⟨account, decimals, approval⟩
    exact ⟨decimals.symm, approval.symm, account⟩
  · rintro ⟨decimals, approval, account⟩
    exact ⟨account, decimals.symm, approval.symm⟩

theorem isFungible_eq_false {list : TokenTransferList} : list.isFungible = false ↔ list.transfers = [] := by
  simp [isFungible]

theorem hasNfts_eq_false {list : TokenTransferList} : list.hasNfts = false ↔ list.nftTransfers = [] := by
  simp [hasNfts]

end Wire.TokenTransferList

namespace TransactionRecord

variable {keys : KeyCodec} {identical : Wire.TokenID → Wire.TokenID → Bool}
  {lists : List TokenTransferList} {record : TransactionRecord}

/-! ## What is read of all lists -/

def tokenTransfersOf (keys : KeyCodec) (lists : List TokenTransferList) : List TokenTransfer :=
  lists.flatMap fun list => list.transfers.map (list.tokenTransfer keys)

def amountsOf (keys : KeyCodec) (lists : List TokenTransferList) : List (TokenId × AccountId × Int) :=
  lists.flatMap fun list => (list.amounts keys).map fun transfer => (list.tokenId, transfer)

def nftsOf (keys : KeyCodec) (lists : List TokenTransferList) : List (TokenId × NftTransferEntry) :=
  lists.flatMap fun list => (list.nfts keys).map fun transfer => (list.tokenId, transfer)

theorem hasTransfers_iff (readable : ∀ list ∈ lists, list.Readable keys) :
    HasTransfers keys lists record ↔
      OrderedMap.fileAll TokenId.toString .empty (amountsOf keys lists) = record.tokenTransfers ∧
        tokenTransfersOf keys lists = record.tokenTransfersList ∧
        OrderedMap.fileAll TokenId.toString .empty (nftsOf keys lists) = record.nftTransfers := by
  have amounts := TokenTransferMap.fromProtobuf_ok readable
  have details := TokenTransfer.fromProtobuf_ok readable
  have nfts := TokenNftTransferMap.fromProtobuf_ok readable
  simp only [OrderedMap.ungroup, List.flatMap_map] at amounts nfts
  constructor
  · rintro ⟨tokenTransfers, tokenTransfersList, nftTransfers⟩
    exact ⟨Except.ok.inj (amounts.symm.trans tokenTransfers),
      Except.ok.inj (details.symm.trans tokenTransfersList),
      Except.ok.inj (nfts.symm.trans nftTransfers)⟩
  · rintro ⟨tokenTransfers, tokenTransfersList, nftTransfers⟩
    exact ⟨amounts.trans (congrArg _ tokenTransfers), details.trans (congrArg _ tokenTransfersList),
      nfts.trans (congrArg _ nftTransfers)⟩

/-- The account amounts say less than the list of transfers. -/
theorem amountsOf_eq (lists : List TokenTransferList) : amountsOf keys lists =
    (tokenTransfersOf keys lists).map fun transfer =>
      (transfer.tokenId, transfer.accountId, transfer.amount) := by
  simp only [amountsOf, tokenTransfersOf, List.map_flatMap, TokenTransferList.amounts, List.map_map]
  rfl

theorem different_tokens (readable : ∀ list ∈ lists, list.Readable keys)
    (distinct : (lists.map (·.token)).Nodup) : (lists.map fun list => list.tokenId.toString).Nodup := by
  rw [List.Nodup, List.pairwise_map] at distinct ⊢
  refine distinct.imp_of_mem fun {first second} inFirst inSecond apart same => apart ?_
  obtain ⟨id, named⟩ := (readable first inFirst).token
  obtain ⟨id', named'⟩ := (readable second inSecond).token
  rw [TokenTransferList.tokenId, TokenTransferList.tokenId, named, named'] at same
  rw [named, named', TokenId.toString_ofMessage_inj.mp same]

theorem toProtobuf_tokenTransfers (readable : ∀ list ∈ lists, list.Readable keys)
    (distinct : (lists.map (·.token)).Nodup) (has : HasTransfers keys lists record) :
    record.tokenTransfers.toProtobuf keys =
      (lists.filter TokenTransferList.isFungible).map (TokenTransferList.fungiblePart keys) := by
  have read := Except.ok.inj
    (has.tokenTransfers.symm.trans (TokenTransferMap.fromProtobuf_ok readable))
  have different : ((lists.map fun list => (list.tokenId, list.amounts keys)).map fun group =>
      group.1.toString).Nodup := by
    rw [List.map_map]
    exact different_tokens readable distinct
  rw [read, TokenTransferMap.toProtobuf, OrderedMap.values_fileAll_ungroup different, List.filter_map,
    List.map_map]
  have filled : ((fun group : TokenId × TokenTransferAccountMap => !group.2.isEmpty) ∘
      fun list => (list.tokenId, list.amounts keys)) = TokenTransferList.isFungible := by
    funext list
    simp [TokenTransferList.amounts, TokenTransferList.isFungible]
  rw [filled]
  apply List.map_congr_left
  intro list _
  simp [TokenTransferList.fungiblePart, TokenTransferList.amounts]

theorem values_nftTransfers (readable : ∀ list ∈ lists, list.Readable keys)
    (distinct : (lists.map (·.token)).Nodup) (has : HasTransfers keys lists record) :
    record.nftTransfers.values =
      (lists.filter TokenTransferList.hasNfts).map fun list => (list.tokenId, list.nfts keys) := by
  have read := Except.ok.inj
    (has.nftTransfers.symm.trans (TokenNftTransferMap.fromProtobuf_ok readable))
  have different : ((lists.map fun list => (list.tokenId, list.nfts keys)).map fun group =>
      group.1.toString).Nodup := by
    rw [List.map_map]
    exact different_tokens readable distinct
  have filled : ((fun group : TokenId × List NftTransferEntry => !group.2.isEmpty) ∘
      fun list => (list.tokenId, list.nfts keys)) = TokenTransferList.hasNfts := by
    funext list
    simp [TokenTransferList.nfts, TokenTransferList.hasNfts]
  rw [read, OrderedMap.values_fileAll_ungroup different, List.filter_map, filled]

theorem toProtobuf_nftTransfers (readable : ∀ list ∈ lists, list.Readable keys)
    (distinct : (lists.map (·.token)).Nodup) (has : HasTransfers keys lists record) :
    record.nftTransfers.toProtobuf keys =
      (lists.filter TokenTransferList.hasNfts).map (TokenTransferList.nftPart keys) := by
  rw [TokenNftTransferMap.toProtobuf, values_nftTransfers readable distinct has, List.map_map]
  apply List.map_congr_left
  intro list _
  simp [TokenTransferList.nftPart, TokenTransferList.nfts]

/-! ## What the loop does -/

section Join

variable {γ : Type} {φ : TokenTransferList → List γ} {tokenTransfers nftTransfers : List TokenTransferList}

theorem merged_eq {list : TokenTransferList} (plain : list.expectedDecimals = none) :
    ({ token := list.token, transfers := list.transfers, nftTransfers := list.nftTransfers } :
      TokenTransferList) = list := by
  cases list
  simp_all

/-- What only fungible lists have is written for each NFT list. -/
theorem flatMap_join_fungible (plain : ∀ list ∈ tokenTransfers, list.expectedDecimals = none)
    (silent : ∀ list ∈ nftTransfers, φ list = []) :
    (joinTransfers identical tokenTransfers nftTransfers).flatMap φ =
      tokenTransfers.flatMap fun list => nftTransfers.flatMap fun _ => φ list := by
  rw [joinTransfers, List.flatMap_assoc]
  apply List.flatMap_congr
  intro list inTokens
  rw [List.flatMap_assoc]
  apply List.flatMap_congr
  intro nfts inNfts
  split
  · simp [merged_eq (plain list inTokens)]
  · simp [silent nfts inNfts]

/-- What only NFT lists have is written for each fungible list of another token. -/
theorem flatMap_join_nft (plain : ∀ list ∈ tokenTransfers, list.expectedDecimals = none)
    (silent : ∀ list ∈ tokenTransfers, φ list = []) :
    (joinTransfers identical tokenTransfers nftTransfers).flatMap φ =
      tokenTransfers.flatMap fun list =>
        (nftTransfers.filter fun nfts => !isSame identical list nfts).flatMap φ := by
  rw [joinTransfers, List.flatMap_assoc]
  apply List.flatMap_congr
  intro list inTokens
  rw [List.flatMap_assoc]
  induction nftTransfers with
  | nil => rfl
  | cons nfts rest inductionHypothesis =>
      rw [List.flatMap_cons, inductionHypothesis]
      by_cases same : isSame identical list nfts = true
      · simp [same, merged_eq (plain list inTokens), silent list inTokens]
      · simp [same, silent list inTokens]

end Join

/-- Nothing is to be written, or there is one list of NFT transfers and one list of account amounts
that is not found to be of its token. -/
def IsJoinable (identical : Wire.TokenID → Wire.TokenID → Bool) (lists : List TokenTransferList) : Prop :=
  (∀ list ∈ lists, list.isFungible = false ∧ list.hasNfts = false) ∨
    ∃ nfts, lists.filter TokenTransferList.hasNfts = [nfts] ∧
      (lists.filter fun list => list.isFungible && !isSame identical list nfts).length = 1

/-- The response the lists of a record are written to. -/
def rejoined (keys : KeyCodec) (identical : Wire.TokenID → Wire.TokenID → Bool)
    (lists : List TokenTransferList) : List TokenTransferList :=
  joinTransfers identical
    ((lists.filter TokenTransferList.isFungible).map (TokenTransferList.fungiblePart keys))
    ((lists.filter TokenTransferList.hasNfts).map (TokenTransferList.nftPart keys))

theorem tokenTransfersOf_rejoined (faithful : keys.Faithful) (lists : List TokenTransferList) :
    tokenTransfersOf keys (rejoined keys identical lists) = lists.flatMap fun list =>
      (lists.filter TokenTransferList.hasNfts).flatMap fun _ =>
        list.transfers.map (list.writtenTransfer keys) := by
  rw [tokenTransfersOf, rejoined, flatMap_join_fungible]
  · simp only [List.flatMap_map, TokenTransferList.map_tokenTransfer_fungiblePart faithful]
    apply flatMap_filter_of_silent
    intro list _ bare
    simp [TokenTransferList.isFungible_eq_false.mp bare]
  · intro list member
    obtain ⟨_, _, rfl⟩ := List.mem_map.mp member
    rfl
  · intro list member
    obtain ⟨_, _, rfl⟩ := List.mem_map.mp member
    rfl

theorem nftsOf_rejoined (faithful : keys.Faithful) (readable : ∀ list ∈ lists, list.Readable keys)
    {nfts : TokenTransferList} (one : lists.filter TokenTransferList.hasNfts = [nfts]) :
    nftsOf keys (rejoined keys identical lists) =
      ((lists.filter fun list => list.isFungible && !isSame identical list nfts).flatMap fun _ =>
        nfts.nftTransfers.map (TokenTransferList.writtenNft keys)).map fun transfer =>
          (nfts.tokenId, transfer) := by
  have inLists : nfts ∈ lists := (List.mem_filter.mp (one ▸ List.mem_singleton_self nfts)).1
  have sameParts : ∀ list ∈ lists,
      isSame identical (list.fungiblePart keys) (nfts.nftPart keys) = isSame identical list nfts := by
    intro list member
    rw [isSame, isSame, ← TokenTransferList.tokenId_toMessage (readable list member).token,
      ← TokenTransferList.tokenId_toMessage (readable nfts inLists).token]
    rfl
  have written := TokenTransferList.nfts_nftPart faithful nfts
  have chosen : lists.filter (fun list => list.isFungible && !isSame identical list nfts) =
      (lists.filter TokenTransferList.isFungible).filter fun list => !isSame identical list nfts := by
    simp only [List.filter_filter, Bool.and_comm]
  rw [nftsOf, rejoined, one, flatMap_join_nft, chosen, List.map_flatMap, List.flatMap_map]
  · rw [← flatMap_filter_of_silent (p := fun list => !isSame identical list nfts)]
    · apply List.flatMap_congr
      intro list member
      obtain ⟨inFungible, other⟩ := List.mem_filter.mp member
      have apart := sameParts list (List.mem_filter.mp inFungible).1
      simp only [Bool.not_eq_true'] at other
      simp [apart, other, written]
    · intro list inFungible same
      have apart := sameParts list (List.mem_filter.mp inFungible).1
      simp only [Bool.not_eq_false'] at same
      simp [apart, same]
  · intro list member
    obtain ⟨_, _, rfl⟩ := List.mem_map.mp member
    rfl
  · intro list member
    obtain ⟨_, _, rfl⟩ := List.mem_map.mp member
    rfl

theorem length_tokenTransfersOf_rejoined (faithful : keys.Faithful) (lists : List TokenTransferList) :
    (tokenTransfersOf keys (rejoined keys identical lists)).length =
      (lists.filter TokenTransferList.hasNfts).length * (tokenTransfersOf keys lists).length := by
  rw [tokenTransfersOf_rejoined faithful, List.length_flatMap]
  simp only [length_flatMap_const, List.length_map]
  rw [List.sum_map_mul_left, tokenTransfersOf, List.length_flatMap]
  simp only [List.length_map]

theorem rejoined_eq_nil (none : ∀ list ∈ lists, list.isFungible = false) :
    rejoined keys identical lists = [] := by
  have noList : lists.filter TokenTransferList.isFungible = [] := by
    rw [List.filter_eq_nil_iff]
    intro list member
    rw [none list member]
    decide
  rw [rejoined, noList]
  rfl

theorem nftsOf_eq {nfts : TokenTransferList} (one : lists.filter TokenTransferList.hasNfts = [nfts]) :
    nftsOf keys lists = (nfts.nfts keys).map fun transfer => (nfts.tokenId, transfer) := by
  rw [nftsOf, ← flatMap_filter_of_silent (p := TokenTransferList.hasNfts), one]
  · exact List.flatMap_singleton _ _
  · intro list _ bare
    simp [TokenTransferList.nfts, TokenTransferList.hasNfts_eq_false.mp bare]

/-- Lists that are joinable and plain are read as they were. -/
theorem readings_rejoined (faithful : keys.Faithful) (readable : ∀ list ∈ lists, list.Readable keys)
    (joinable : IsJoinable identical lists) (plain : ∀ list ∈ lists, list.IsPlain keys) :
    tokenTransfersOf keys (rejoined keys identical lists) = tokenTransfersOf keys lists ∧
      nftsOf keys (rejoined keys identical lists) = nftsOf keys lists := by
  rcases joinable with none | ⟨nfts, one, chosen⟩
  · rw [rejoined_eq_nil fun list member => (none list member).1]
    constructor
    · symm
      apply List.flatMap_eq_nil_iff.mpr
      intro list member
      rw [TokenTransferList.isFungible_eq_false.mp (none list member).1]
      rfl
    · symm
      apply List.flatMap_eq_nil_iff.mpr
      intro list member
      rw [TokenTransferList.nfts, TokenTransferList.hasNfts_eq_false.mp (none list member).2]
      rfl
  · have inLists : nfts ∈ lists := (List.mem_filter.mp (one ▸ List.mem_singleton_self nfts)).1
    constructor
    · rw [tokenTransfersOf_rejoined faithful, one]
      simp only [List.flatMap_cons, List.flatMap_nil, List.append_nil]
      apply flatMap_map_inj.mpr
      intro list member aa inList
      exact TokenTransferList.writtenTransfer_eq.mpr ((plain list member).transfers aa inList)
    · obtain ⟨list, only⟩ := List.length_eq_one_iff.mp chosen
      rw [nftsOf_rejoined faithful readable one, only, nftsOf_eq one, List.flatMap_singleton]
      congr 1
      apply List.map_congr_left
      intro aa inNfts
      obtain ⟨sender, recipient⟩ := (plain nfts inLists).nftTransfers aa inNfts
      rw [TokenTransferList.writtenNft, sender, recipient]

/-- NFT transfers that are filed as those of one list were written once, with nothing lost. -/
theorem nfts_of_one {chosen : List TokenTransferList} {nfts : TokenTransferList}
    {map : TokenNftTransferMap}
    (filed : OrderedMap.fileAll TokenId.toString .empty
      ((chosen.flatMap fun _ => nfts.nftTransfers.map (TokenTransferList.writtenNft keys)).map
        fun transfer => (nfts.tokenId, transfer)) = map)
    (values : map.values = [nfts].map fun list => (list.tokenId, list.nfts keys)) :
    chosen.length = 1 ∧ ∀ aa ∈ nfts.nftTransfers,
      (AccountId.read keys aa.senderAccountID).onWire = AccountId.read keys aa.senderAccountID ∧
        (AccountId.read keys aa.receiverAccountID).onWire = AccountId.read keys aa.receiverAccountID := by
  have filled : (chosen.flatMap fun _ =>
      nfts.nftTransfers.map (TokenTransferList.writtenNft keys)) ≠ [] := by
    intro nothing
    rw [nothing, List.map_nil, OrderedMap.fileAll_nil] at filed
    rw [← filed] at values
    cases values
  have new : nfts.tokenId.toString ∉
      (OrderedMap.empty : TokenNftTransferMap).keys := List.not_mem_nil
  have entries := OrderedMap.entries_fileAll_new new filled
  rw [filed] at entries
  rw [OrderedMap.values, entries] at values
  have items : (chosen.flatMap fun _ => nfts.nftTransfers.map (TokenTransferList.writtenNft keys)) =
      nfts.nfts keys := by
    simpa [OrderedMap.empty] using values
  have lengths := congrArg List.length items
  rw [length_flatMap_const, List.length_map, TokenTransferList.nfts, List.length_map] at lengths
  have written : 0 < nfts.nftTransfers.length := by
    rw [List.length_pos_iff]
    rintro bare
    rw [bare, List.map_nil] at filled
    exact filled (List.flatMap_eq_nil_iff.mpr fun _ _ => rfl)
  have single : chosen.length = 1 := Nat.eq_of_mul_eq_mul_right written (by omega)
  refine ⟨single, fun aa inNfts => ?_⟩
  obtain ⟨list, only⟩ := List.length_eq_one_iff.mp single
  rw [only, List.flatMap_singleton, TokenTransferList.nfts] at items
  have same := List.map_inj_left.mp items aa inNfts
  simp only [TokenTransferList.writtenNft, NftTransferEntry.mk.injEq] at same
  exact ⟨same.1, same.2.1⟩

/-- Lists that are read as they were are joinable and plain. -/
theorem isJoinable_of_hasTransfers (faithful : keys.Faithful)
    (readable : ∀ list ∈ lists, list.Readable keys) (distinct : (lists.map (·.token)).Nodup)
    (has : HasTransfers keys lists record)
    (details : tokenTransfersOf keys (rejoined keys identical lists) = tokenTransfersOf keys lists)
    (nfts : OrderedMap.fileAll TokenId.toString .empty (nftsOf keys (rejoined keys identical lists)) =
      record.nftTransfers) :
    IsJoinable identical lists ∧ ∀ list ∈ lists, list.IsPlain keys := by
  have values := values_nftTransfers readable distinct has
  by_cases fungible : ∀ list ∈ lists, list.isFungible = false
  · rw [rejoined_eq_nil fungible] at nfts
    have noNfts : lists.filter TokenTransferList.hasNfts = [] := by
      rw [← nfts] at values
      exact List.map_eq_nil_iff.mp values.symm
    have bare : ∀ list ∈ lists, list.hasNfts = false := by
      intro list member
      have silent := List.filter_eq_nil_iff.mp noNfts list member
      simpa using silent
    refine ⟨Or.inl fun list member => ⟨fungible list member, bare list member⟩, fun list member => ?_⟩
    constructor
    · rw [TokenTransferList.isFungible_eq_false.mp (fungible list member)]
      simp
    · rw [TokenTransferList.hasNfts_eq_false.mp (bare list member)]
      simp
  · have listed : 0 < (tokenTransfersOf keys lists).length := by
      obtain ⟨list, filled⟩ := not_forall.mp fungible
      obtain ⟨member, filled⟩ := Classical.not_imp.mp filled
      rw [List.length_pos_iff]
      intro nothing
      have silent := List.flatMap_eq_nil_iff.mp nothing list member
      rw [List.map_eq_nil_iff] at silent
      exact filled (TokenTransferList.isFungible_eq_false.mpr silent)
    have counts := @length_tokenTransfersOf_rejoined _ identical faithful lists
    rw [details] at counts
    have single : (lists.filter TokenTransferList.hasNfts).length = 1 :=
      Nat.eq_of_mul_eq_mul_right listed (by omega)
    obtain ⟨nftList, one⟩ := List.length_eq_one_iff.mp single
    rw [nftsOf_rejoined faithful readable one] at nfts
    rw [one] at values
    obtain ⟨chosen, plainNfts⟩ := nfts_of_one nfts values
    refine ⟨Or.inr ⟨nftList, one, chosen⟩, fun list member => ⟨fun aa inList => ?_, fun aa inList => ?_⟩⟩
    · rw [tokenTransfersOf_rejoined faithful, one] at details
      simp only [List.flatMap_cons, List.flatMap_nil, List.append_nil] at details
      exact TokenTransferList.writtenTransfer_eq.mp (flatMap_map_inj.mp details list member aa inList)
    · have hasNfts : list.hasNfts = true := by
        rw [TokenTransferList.hasNfts, Bool.not_eq_true', List.isEmpty_eq_false_iff]
        exact List.ne_nil_of_mem inList
      have only : list = nftList := by
        rw [← List.mem_singleton, ← one]
        exact List.mem_filter.mpr ⟨member, hasNfts⟩
      subst only
      exact plainNfts aa inList

/-- A record keeps its token transfers exactly when all receipts came with exchange rates, the lists
are joinable and everything in them is written. -/
theorem keepsTokenTransfers_iff (faithful : keys.Faithful)
    {response : Wire.TransactionGetRecordResponse} {record : TransactionRecord}
    (decoded : fromProtobuf keys response = .ok record)
    (distinct : (response.tokenTransferLists.map (·.token)).Nodup) :
    KeepsTokenTransfers keys identical record ↔
      (∀ message ∈ response.records, message.hasRates = true) ∧
        IsJoinable identical response.tokenTransferLists ∧
          ∀ list ∈ response.tokenTransferLists, list.IsPlain keys := by
  obtain ⟨message, origin⟩ := fromProtobuf_eq_ok decoded
  have lists : response.tokenTransferLists = message.tokenTransferLists := by
    rw [Wire.TransactionGetRecordResponse.tokenTransferLists, origin.named]
    rfl
  rw [lists] at distinct ⊢
  obtain ⟨_, has, _, _⟩ := ofMessage_eq_ok origin.read
  have readable := readable_of_ok has.tokenTransfers has.nftTransfers
  have written : (record.message keys identical).tokenTransferLists =
      rejoined keys identical message.tokenTransferLists := by
    rw [TransactionRecord.message, toProtobuf_tokenTransfers readable distinct has,
      toProtobuf_nftTransfers readable distinct has]
    rfl
  have readableAgain := @readable_message _ identical faithful record
  rw [origin.keeps_iff faithful, and_congr_right_iff]
  intro _
  rw [written] at readableAgain ⊢
  have own := (hasTransfers_iff readable).mp has
  rw [hasTransfers_iff readableAgain]
  constructor
  · rintro ⟨_, details, nfts⟩
    exact isJoinable_of_hasTransfers faithful readable distinct has (details.trans own.2.1.symm) nfts
  · rintro ⟨joinable, plain⟩
    obtain ⟨details, nfts⟩ := readings_rejoined faithful readable joinable plain
    rw [amountsOf_eq, details, nfts, ← amountsOf_eq]
    exact own

/-! ## Two responses -/

/-- A response with a receipt that has its rates. -/
def sampleResponse (tokenTransferLists : List TokenTransferList) : Wire.TransactionGetRecordResponse where
  transactionRecord := some
    { receipt := some
        { exchangeRate := some
            { currentRate := some { hbarEquiv := 1, centEquiv := 12, expirationTime := some 1700000000 }
              nextRate := some { hbarEquiv := 1, centEquiv := 15, expirationTime := none } } }
      tokenTransferLists }

/-- Account 0.0.`num` in a message. -/
def sampleAccount (num : Int) : Js.Value := (AccountId.ofNum num).toProtobuf prefixKeys

/-- Amounts of token 0.0.5 and NFTs of token 0.0.6. -/
def apartResponse : Wire.TransactionGetRecordResponse :=
  sampleResponse
    [{ token := some ⟨0, 0, 5⟩
       transfers := [⟨sampleAccount 2, -10, false⟩, ⟨sampleAccount 3, 10, false⟩] },
     { token := some ⟨0, 0, 6⟩, nftTransfers := [⟨sampleAccount 2, sampleAccount 3, 1, false⟩] }]

theorem apart_is_kept : ∃ record, fromProtobuf prefixKeys apartResponse = .ok record ∧
    KeepsTokenTransfers prefixKeys (fun _ _ => false) record := by
  have returns : (fromProtobuf prefixKeys apartResponse).isOk = true := by decide +kernel
  cases decoded : fromProtobuf prefixKeys apartResponse with
  | error e =>
      rw [decoded] at returns
      cases returns
  | ok record =>
      refine ⟨record, rfl, (keepsTokenTransfers_iff prefixKeys_faithful decoded (by decide)).mpr ?_⟩
      refine ⟨by decide, Or.inr ⟨_, rfl, rfl⟩, fun list member => ?_⟩
      have lists : list ∈ apartResponse.tokenTransferLists := member
      simp only [apartResponse, sampleResponse, Wire.TransactionGetRecordResponse.tokenTransferLists,
        Option.map_some, Option.getD_some, List.mem_cons, List.not_mem_nil, or_false] at lists
      rcases lists with rfl | rfl
      · exact ⟨by decide +kernel, by decide⟩
      · exact ⟨by decide, by decide +kernel⟩

/-- Amounts of token 0.0.5 and nothing else. -/
def fungibleResponse : Wire.TransactionGetRecordResponse :=
  sampleResponse
    [{ token := some ⟨0, 0, 5⟩
       transfers := [⟨sampleAccount 2, -10, false⟩, ⟨sampleAccount 3, 10, false⟩] }]

/-- Without NFT transfers all amounts are lost, whichever objects are the same. -/
theorem fungible_is_lost : ∃ record, fromProtobuf prefixKeys fungibleResponse = .ok record ∧
    ¬ KeepsTokenTransfers prefixKeys (fun _ _ => false) record ∧
      ¬ KeepsTokenTransfers prefixKeys (fun a b => decide (a = b)) record := by
  have lengths (same : Bool) : ((fromProtobuf prefixKeys fungibleResponse).bind fun record =>
      (fromProtobuf prefixKeys (record.toProtobuf prefixKeys fun a b => same && decide (a = b))).map
        fun again => (record.tokenTransfersList.length, again.tokenTransfersList.length)).toOption =
      some (2, 0) := by
    cases same <;> decide +kernel
  cases decoded : fromProtobuf prefixKeys fungibleResponse with
  | error e =>
      have nothing := lengths true
      rw [decoded] at nothing
      cases nothing
  | ok record =>
      have lost (same : Bool) :
          ¬ KeepsTokenTransfers prefixKeys (fun a b => same && decide (a = b)) record := by
        rintro ⟨again, read, _, _, lists⟩
        have lengths := lengths same
        rw [decoded, Except.bind, read] at lengths
        have counts := Prod.mk.inj (Option.some.inj lengths)
        rw [lists] at counts
        omega
      exact ⟨record, rfl, lost false, lost true⟩

end TransactionRecord

end HederaSdk
