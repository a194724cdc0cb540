import HederaSdk.Account.TransferCopies
import HederaSdk.Hbar.Amounts
import HederaSdk.Library.Posting

/-!
# Airdrops that are read back

A crypto transfer that is read gets the entries as they are listed. An airdrop adds them one by one, and so
merges those of one token and account, whether approved or not, and those of one NFT.
-/

namespace HederaSdk

open Library

namespace TokenAirdropTransaction

open AbstractTokenTransferTransaction

def blank : AbstractTokenTransferTransaction where
  transaction := { data := .plain .tokenAirdrop (.object .nil) }

/-- What the constructor does to a new object. -/
def construct (tokenTransfers : List TokenTransfer) (nftTransfers : List TokenNftTransfer) :
    Method JsError AbstractTokenTransferTransaction Unit := do
  AbstractTokenTransferTransaction.construct {}
  Method.forEach
    (fun tokenTransfer => mergeTokenTransfer tokenTransfer.tokenId tokenTransfer.accountId tokenTransfer.amount
      tokenTransfer.isApproved tokenTransfer.expectedDecimals)
    tokenTransfers
  Method.update fun tx => { tx with nftTransfers := [] }
  Method.forEach
    (fun nftTransfer => mergeNftTransfer nftTransfer.isApproved ⟨nftTransfer.tokenId, nftTransfer.serialNumber⟩
      nftTransfer.senderAccountId nftTransfer.receiverAccountId)
    nftTransfers

/-- `new TokenAirdropTransaction(props)` -/
def new (tokenTransfers : List TokenTransfer) (nftTransfers : List TokenNftTransfer) :
    AbstractTokenTransferTransaction :=
  ((construct tokenTransfers nftTransfers).run blank).2

def addApprovedTokenTransferWithDecimals (token : TokenId) (account : AccountId) (amount : Int)
    (expectedDecimals : Nat) : Method JsError AbstractTokenTransferTransaction Unit := do
  requireNotFrozen
  mergeTokenTransfer token account amount true (some expectedDecimals)

/-- `_fromProtobuf`, before the transaction around the transfers is read. -/
def fromProtobuf (keys : KeyCodec) (tokenTransfers : List Wire.TokenTransferList) :
    Except JsError AbstractTokenTransferTransaction := do
  let tokens ← TokenTransfer.fromProtobuf keys tokenTransfers
  let nfts ← TokenNftTransfer.fromProtobuf keys tokenTransfers
  pure (new tokens nfts)

/-! ## What the constructor enters -/

/-- What the entry of the token and the account becomes. -/
def mergeInto (transfer entry : TokenTransfer) : TokenTransfer :=
  { entry with
    amount := addLong entry.amount transfer.amount
    expectedDecimals := transfer.expectedDecimals }

/-- What the entry of the NFT becomes. -/
def moveInto (nft entry : TokenNftTransfer) : TokenNftTransfer :=
  { entry with senderAccountId := nft.senderAccountId, receiverAccountId := nft.receiverAccountId }

def enterTokens (entries : List TokenTransfer) : List TokenTransfer :=
  enterAll (fun transfer => TokenTransfer.isFor transfer.tokenId transfer.accountId) mergeInto id entries

def enterNfts (entries : List TokenNftTransfer) : List TokenNftTransfer :=
  enterAll (fun nft => TokenNftTransfer.isFor ⟨nft.tokenId, nft.serialNumber⟩) moveInto id entries

section Runs

variable {tx : AbstractTokenTransferTransaction} (unfrozen : tx.transaction.isFrozenOrOnDemand = false)
include unfrozen

theorem run_forEach_tokens (entries : List TokenTransfer) :
    (Method.forEach
      (fun tokenTransfer : TokenTransfer => mergeTokenTransfer tokenTransfer.tokenId tokenTransfer.accountId
        tokenTransfer.amount tokenTransfer.isApproved tokenTransfer.expectedDecimals) entries).run tx =
      (.ok (), { tx with
        tokenTransfers := entries.foldl (fun entries transfer =>
          upsert (TokenTransfer.isFor transfer.tokenId transfer.accountId) (mergeInto transfer) transfer entries)
          tx.tokenTransfers }) := by
  induction entries generalizing tx with
  | nil => rfl
  | cons transfer rest inductionHypothesis =>
      rw [Method.forEach_cons, Method.run_bind_ok (run_mergeTokenTransfer unfrozen _ _ _ _ _)]
      exact inductionHypothesis unfrozen

theorem run_forEach_nfts (entries : List TokenNftTransfer) :
    (Method.forEach
      (fun nftTransfer : TokenNftTransfer => mergeNftTransfer nftTransfer.isApproved
        ⟨nftTransfer.tokenId, nftTransfer.serialNumber⟩ nftTransfer.senderAccountId
        nftTransfer.receiverAccountId) entries).run tx =
      (.ok (), { tx with
        nftTransfers := entries.foldl (fun entries nft =>
          upsert (TokenNftTransfer.isFor ⟨nft.tokenId, nft.serialNumber⟩) (moveInto nft) nft entries)
          tx.nftTransfers }) := by
  induction entries generalizing tx with
  | nil => rfl
  | cons nft rest inductionHypothesis =>
      rw [Method.forEach_cons, Method.run_bind_ok (run_mergeNftTransfer unfrozen _ _ _ _)]
      exact inductionHypothesis unfrozen

end Runs

theorem new_eq (tokenTransfers : List TokenTransfer) (nftTransfers : List TokenNftTransfer) :
    new tokenTransfers nftTransfers =
      { blank with tokenTransfers := enterTokens tokenTransfers, nftTransfers := enterNfts nftTransfers } := by
  have start : (AbstractTokenTransferTransaction.construct {}).run blank = (.ok (), blank) := rfl
  have unfrozen : blank.transaction.isFrozenOrOnDemand = false := rfl
  rw [new, construct, Method.run_bind_ok start, Method.run_bind_ok (run_forEach_tokens unfrozen tokenTransfers),
    Method.run_update_bind, run_forEach_nfts]
  · rfl
  · rfl

/-! ## What lists say -/

/-- What lists of transfers move, the ids as they are read. -/
def said (lists : List TokenTransferList) : Spend → ℤ := ((TokenTransfer.ofLists lists).map TokenTransfer.moves).sum

def saidNfts (lists : List TokenTransferList) : List (TokenId × NftTransfer) :=
  (TokenNftTransfer.ofLists lists).map TransferTransaction.filedNft

/-- The lists of a transaction say what these lists say. -/
structure Says (tx : AbstractTokenTransferTransaction) (lists : List TokenTransferList) : Prop where
  tokens : said tx.tokenTransferLists = said lists
  nfts : (saidNfts tx.tokenTransferLists).Perm (saidNfts lists)

/-- The token and the account of a transfer. -/
def name (transfer : TokenTransfer) : TokenId × (Int × Int × AccountName) :=
  (transfer.tokenId.onWire, transfer.accountId.identity)

def nftName (nft : TokenNftTransfer) : TokenId × Int := (nft.tokenId.onWire, nft.serialNumber)

/-- Nothing is lost when transfers are merged: what is approved otherwise than the first transfer of its token and
account adds up to nothing, the amounts of several transfers add up to a 64-bit integer, and no NFT is moved twice. -/
structure Mergeable (lists : List TokenTransferList) : Prop where
  tokens : ∀ (token : TokenId) (account : Int × Int × AccountName) (first : TokenTransfer) (rest : List TokenTransfer),
    ((TokenTransfer.ofLists lists).filter fun transfer => name transfer = (token, account)) = first :: rest →
      said lists (token, account, !first.isApproved) = 0 ∧
        (rest ≠ [] → FitsInt64 (said lists (token, account, first.isApproved)))
  nfts : ((TokenNftTransfer.ofLists lists).map nftName).Nodup

/-- What some transfers move that are approved in one way. -/
def approvedSum (isApproved : Bool) (transfers : List TokenTransfer) : Int :=
  (transfers.map fun transfer => if transfer.isApproved = isApproved then transfer.amount else 0).sum

section Entries

theorem said_tokenTransferLists (tx : AbstractTokenTransferTransaction) :
    said tx.tokenTransferLists = (tx.tokenTransfers.map TokenTransfer.moves).sum := by
  have moves (transfers : List TokenTransfer) : transfers.map TokenTransfer.moves =
      (transfers.map TransferTransaction.filed).map fun entry =>
        Pi.single (entry.1, entry.2.accountID.identity, entry.2.isApproval) entry.2.amount := by
    rw [List.map_map]
    refine List.map_congr_left fun transfer _ => ?_
    rw [Function.comp_apply, TransferTransaction.filed, TokenTransfer.toProtobuf, AccountId.identity_onWire]
    rfl
  rw [said, moves, moves]
  exact ((TransferTransaction.perm_filed tx).map _).sum_eq

theorem perm_saidNfts (tx : AbstractTokenTransferTransaction) :
    (saidNfts tx.tokenTransferLists).Perm (tx.nftTransfers.map TransferTransaction.filedNft) :=
  TransferTransaction.perm_filedNft tx

/-- What is moved of a token and an account is found in the transfers of that name. -/
theorem sum_moves_apply (transfers : List TokenTransfer) (token : TokenId) (account : Int × Int × AccountName)
    (isApproved : Bool) :
    (transfers.map TokenTransfer.moves).sum (token, account, isApproved) =
      approvedSum isApproved (transfers.filter fun transfer => name transfer = (token, account)) := by
  rw [approvedSum]
  induction transfers with
  | nil => rfl
  | cons transfer rest inductionHypothesis =>
      rw [List.map_cons, List.sum_cons, Pi.add_apply, inductionHypothesis, TokenTransfer.moves, TokenTransfer.spend]
      by_cases own : name transfer = (token, account)
      · obtain ⟨ofToken, ofAccount⟩ := Prod.mk.inj own
        rw [List.filter_cons_of_pos (by simp [own]), List.map_cons, List.sum_cons, ofToken, ofAccount]
        by_cases same : transfer.isApproved = isApproved
        · rw [if_pos same, same, Pi.single_eq_same]
        · rw [if_neg same, Pi.single_eq_of_ne (by simp [Ne.symm same])]
      · rw [List.filter_cons_of_neg (by simp [own]), Pi.single_eq_of_ne ?_, zero_add]
        intro equal
        simp only [Prod.mk.injEq] at equal
        exact own (Prod.ext equal.1.symm equal.2.1.symm)

end Entries

/-! ## The entries of the copy -/

theorem compare_eq_zero_iff_identity {id other : AccountId} (read : id.onWire = id) (readOther : other.onWire = other) :
    id.compare other = 0 ↔ id.identity = other.identity := by
  rw [AccountId.compare_eq_zero]
  obtain ⟨shard, realm, num, aliasKey, evmAddress, checksum⟩ := id
  obtain ⟨shard', realm', num', aliasKey', evmAddress', checksum'⟩ := other
  cases aliasKey <;> cases aliasKey' <;> cases evmAddress <;> cases evmAddress' <;>
    simp_all [AccountId.onWire, AccountId.equals, AccountId.identity, AccountId.name, PublicKey.equals_iff, and_assoc]

section Tokens

variable {entries : List TokenTransfer} (read : ∀ entry ∈ entries, entry.accountId.onWire = entry.accountId)
include read

theorem isFor_iff_name : ∀ transfer ∈ entries, ∀ entry : TokenTransfer, entry.accountId.onWire = entry.accountId →
    (entry.isFor transfer.tokenId transfer.accountId = true ↔ name entry = name transfer) := by
  intro transfer member entry given
  rw [TokenTransfer.isFor, Bool.and_eq_true, beq_iff_eq, beq_iff_eq,
    compare_eq_zero_iff_identity given (read transfer member), TokenId.compare_eq_zero_iff_key, ← TokenId.onWire_eq_iff]
  exact Prod.mk_inj.symm

theorem filter_enterTokens (named : TokenId × (Int × Int × AccountName)) :
    (enterTokens entries).filter (fun transfer => name transfer = named) =
      opened mergeInto id (entries.filter fun transfer => name transfer = named) :=
  @filter_enterAll TokenTransfer TokenTransfer _ _ mergeInto id (fun entry => entry.accountId.onWire = entry.accountId)
    name name entries _ (fun _ => rfl) (fun _ _ => rfl) read (fun _ _ given => given) (isFor_iff_name read) named

theorem nodup_enterTokens : ((enterTokens entries).map name).Nodup :=
  @nodup_enterAll TokenTransfer TokenTransfer _ _ mergeInto id (fun entry => entry.accountId.onWire = entry.accountId)
    name name entries _ (fun _ => rfl) (fun _ _ => rfl) read (fun _ _ given => given) (isFor_iff_name read)

end Tokens

theorem isApproved_foldl_mergeInto (entry : TokenTransfer) (rest : List TokenTransfer) :
    (rest.foldl (fun entry transfer => mergeInto transfer entry) entry).isApproved = entry.isApproved := by
  induction rest generalizing entry with
  | nil => rfl
  | cons transfer rest inductionHypothesis => exact inductionHypothesis (mergeInto transfer entry)

theorem amount_foldl_mergeInto (entry : TokenTransfer) {rest : List TokenTransfer} (several : rest ≠ []) :
    (rest.foldl (fun entry transfer => mergeInto transfer entry) entry).amount =
      toInt64 ((entry :: rest).map TokenTransfer.amount).sum := by
  induction rest using List.reverseRecOn with
  | nil => exact absurd rfl several
  | append_singleton rest transfer inductionHypothesis =>
      rw [List.foldl_append, List.foldl_cons, List.foldl_nil, mergeInto, ← List.cons_append, List.map_append,
        List.sum_append, List.map_singleton, List.sum_singleton]
      by_cases first : rest = []
      · subst first
        simp [addLong]
      · change addLong (rest.foldl (fun entry transfer => mergeInto transfer entry) entry).amount transfer.amount = _
        rw [inductionHypothesis first, addLong, toInt64_toInt64_add]

/-- The amounts of a list, those approved in one way and those approved in the other. -/
theorem sum_amounts (transfers : List TokenTransfer) (isApproved : Bool) :
    (transfers.map TokenTransfer.amount).sum =
      approvedSum isApproved transfers + approvedSum (!isApproved) transfers := by
  rw [approvedSum, approvedSum]
  induction transfers with
  | nil => rfl
  | cons transfer rest inductionHypothesis =>
      simp only [List.map_cons, List.sum_cons, inductionHypothesis]
      cases transfer.isApproved <;> cases isApproved <;> simp <;> omega

/-- Transfers of one name make one entry, which moves as much exactly where nothing is lost. -/
theorem approvedSum_opened_iff (first : TokenTransfer) (rest : List TokenTransfer) :
    (∀ isApproved, approvedSum isApproved (opened mergeInto id (first :: rest)) =
        approvedSum isApproved (first :: rest)) ↔
      approvedSum (!first.isApproved) (first :: rest) = 0 ∧
        (rest ≠ [] → FitsInt64 (approvedSum first.isApproved (first :: rest))) := by
  have merged (isApproved : Bool) : approvedSum isApproved (opened mergeInto id (first :: rest)) =
      if first.isApproved = isApproved then
        (rest.foldl (fun entry transfer => mergeInto transfer entry) first).amount else 0 := by
    rw [opened, approvedSum, List.map_singleton, List.sum_singleton, id, isApproved_foldl_mergeInto]
  have amounts := sum_amounts (first :: rest) first.isApproved
  have split : (∀ isApproved, approvedSum isApproved (opened mergeInto id (first :: rest)) =
      approvedSum isApproved (first :: rest)) ↔
        approvedSum (!first.isApproved) (first :: rest) = 0 ∧
          (rest.foldl (fun entry transfer => mergeInto transfer entry) first).amount =
            approvedSum first.isApproved (first :: rest) := by
    rw [Bool.forall_bool' first.isApproved, merged, merged, if_pos rfl, if_neg (by simp),
      eq_comm (a := (0 : Int)), and_comm]
  rw [split]
  refine and_congr_right fun other => ?_
  by_cases alone : rest = []
  · subst alone
    simp [approvedSum]
  · rw [amount_foldl_mergeInto first alone, amounts, other, add_zero, toInt64_eq_iff, forall_prop_of_true alone]

theorem said_apply (lists : List TokenTransferList) (token : TokenId) (account : Int × Int × AccountName)
    (isApproved : Bool) : said lists (token, account, isApproved) =
      approvedSum isApproved ((TokenTransfer.ofLists lists).filter fun transfer => name transfer = (token, account)) :=
  sum_moves_apply _ token account isApproved

theorem onWire_ofLists (lists : List TokenTransferList) :
    ∀ entry ∈ TokenTransfer.ofLists lists, entry.accountId.onWire = entry.accountId := by
  intro entry member
  obtain ⟨list, _, inList⟩ := List.mem_flatMap.mp member
  obtain ⟨transfer, _, rfl⟩ := List.mem_map.mp inList
  exact transfer.accountID.onWire_onWire

theorem said_new_iff (lists : List TokenTransferList) (nfts : List TokenNftTransfer) :
    said (new (TokenTransfer.ofLists lists) nfts).tokenTransferLists = said lists ↔
      ∀ (token : TokenId) (account : Int × Int × AccountName) (first : TokenTransfer) (rest : List TokenTransfer),
        ((TokenTransfer.ofLists lists).filter fun transfer => name transfer = (token, account)) = first :: rest →
          said lists (token, account, !first.isApproved) = 0 ∧
            (rest ≠ [] → FitsInt64 (said lists (token, account, first.isApproved))) := by
  have copied (token : TokenId) (account : Int × Int × AccountName) (isApproved : Bool) :
      said (new (TokenTransfer.ofLists lists) nfts).tokenTransferLists (token, account, isApproved) =
        approvedSum isApproved (opened mergeInto id
          ((TokenTransfer.ofLists lists).filter fun transfer => name transfer = (token, account))) := by
    rw [said_tokenTransferLists, new_eq, sum_moves_apply, filter_enterTokens (onWire_ofLists lists)]
  constructor
  · intro same token account first rest found
    rw [said_apply, said_apply, found]
    refine (approvedSum_opened_iff first rest).mp fun isApproved => ?_
    rw [← found, ← copied, same, said_apply]
  · intro kept
    funext ⟨token, account, isApproved⟩
    rw [copied, said_apply]
    cases found : (TokenTransfer.ofLists lists).filter fun transfer => name transfer = (token, account) with
    | nil => rfl
    | cons first rest =>
        have keeps := kept token account first rest found
        rw [said_apply, said_apply, found] at keeps
        exact (approvedSum_opened_iff first rest).mpr keeps isApproved

theorem isFor_iff_nftName (nft entry : TokenNftTransfer) :
    entry.isFor ⟨nft.tokenId, nft.serialNumber⟩ = true ↔ nftName entry = nftName nft := by
  rw [TransferTransaction.isFor_iff_isNft]
  simp [TransferTransaction.isNft, nftName]

theorem nodup_enterNfts (entries : List TokenNftTransfer) : ((enterNfts entries).map nftName).Nodup :=
  @nodup_enterAll TokenNftTransfer TokenNftTransfer _ _ moveInto id (fun _ => True) nftName nftName entries _
    (fun _ => rfl) (fun _ _ => rfl) (fun _ _ => trivial) (fun _ _ given => given)
    fun nft _ entry _ => isFor_iff_nftName nft entry

theorem perm_names {nfts others : List TokenNftTransfer}
    (same : (nfts.map TransferTransaction.filedNft).Perm (others.map TransferTransaction.filedNft)) :
    (nfts.map nftName).Perm (others.map nftName) := by
  have names := same.map fun entry => (entry.1, entry.2.serialNumber)
  rwa [List.map_map, List.map_map] at names

/-- NFTs that are merged are moved once only. -/
theorem saidNfts_new_iff (lists : List TokenTransferList) (tokens : List TokenTransfer) :
    (saidNfts (new tokens (TokenNftTransfer.ofLists lists)).tokenTransferLists).Perm (saidNfts lists) ↔
      ((TokenNftTransfer.ofLists lists).map nftName).Nodup := by
  have copied := perm_saidNfts (new tokens (TokenNftTransfer.ofLists lists))
  rw [new_eq] at copied ⊢
  constructor
  · intro same
    exact (perm_names (copied.symm.trans same)).nodup_iff.mp (nodup_enterNfts _)
  · intro differ
    have entered : enterNfts (TokenNftTransfer.ofLists lists) = TokenNftTransfer.ofLists lists :=
      (@enterAll_of_nodup TokenNftTransfer TokenNftTransfer _ _ moveInto id (fun _ => True) nftName nftName _
        (fun _ => rfl) (fun _ => trivial) (fun nft entry _ => isFor_iff_nftName nft entry) differ).trans
          (List.map_id _)
    rw [entered] at copied ⊢
    exact copied

theorem says_new_iff (lists : List TokenTransferList) :
    Says (new (TokenTransfer.ofLists lists) (TokenNftTransfer.ofLists lists)) lists ↔ Mergeable lists := by
  have tokens := said_new_iff lists (TokenNftTransfer.ofLists lists)
  have nfts := saidNfts_new_iff lists (TokenTransfer.ofLists lists)
  exact ⟨fun same => ⟨tokens.mp same.tokens, nfts.mp same.nfts⟩,
    fun mergeable => ⟨tokens.mpr mergeable.tokens, nfts.mpr mergeable.nfts⟩⟩

/-! ## Further copies -/

/-- Lists in which every token and account and every NFT is named once. -/
theorem mergeable_of_nodup {lists : List TokenTransferList} (tokens : ((TokenTransfer.ofLists lists).map name).Nodup)
    (nfts : ((TokenNftTransfer.ofLists lists).map nftName).Nodup) : Mergeable lists := by
  refine ⟨fun token account first rest found => ?_, nfts⟩
  have once := (nodup_map_iff_filter name _).mp tokens (token, account)
  rw [found] at once
  obtain rfl : rest = [] := List.length_eq_zero_iff.mp (by simpa using once)
  rw [said_apply, found]
  exact ⟨by simp [approvedSum], fun several => absurd rfl several⟩

theorem mergeable_copy (lists : List TokenTransferList) :
    Mergeable (new (TokenTransfer.ofLists lists) (TokenNftTransfer.ofLists lists)).tokenTransferLists := by
  generalize made : new (TokenTransfer.ofLists lists) (TokenNftTransfer.ofLists lists) = copy
  have tokens : (copy.tokenTransfers.map name).Nodup := by
    rw [← made, new_eq]
    exact nodup_enterTokens (onWire_ofLists lists)
  have nfts : (copy.nftTransfers.map nftName).Nodup := by
    rw [← made, new_eq]
    exact nodup_enterNfts _
  have named (transfers : List TokenTransfer) : (transfers.map TransferTransaction.filed).map (fun entry =>
      (entry.1, entry.2.accountID.identity)) = transfers.map name := by
    rw [List.map_map]
    refine List.map_congr_left fun transfer _ => ?_
    rw [Function.comp_apply, TransferTransaction.filed, TokenTransfer.toProtobuf, AccountId.identity_onWire, name]
  have listed : ((TokenTransfer.ofLists copy.tokenTransferLists).map name).Perm (copy.tokenTransfers.map name) := by
    rw [← named, ← named]
    exact (TransferTransaction.perm_filed copy).map _
  exact mergeable_of_nodup (listed.nodup_iff.mpr tokens) ((perm_names (perm_saidNfts copy)).nodup_iff.mpr nfts)

/-- An airdrop that is read says what the message says exactly where nothing is lost in merging. What it then says is
said again by each further copy. -/
theorem fromProtobuf_says_iff {keys : KeyCodec} (faithful : keys.Faithful) (lists : List TokenTransferList) :
    ∃ copy, fromProtobuf keys (lists.map (TokenTransferList.toMessage keys)) = .ok copy ∧
      (Says copy lists ↔ Mergeable lists) ∧
      ∃ again, fromProtobuf keys (copy.tokenTransferLists.map (TokenTransferList.toMessage keys)) = .ok again ∧
        Says again copy.tokenTransferLists := by
  have read (lists : List TokenTransferList) : fromProtobuf keys (lists.map (TokenTransferList.toMessage keys)) =
      .ok (new (TokenTransfer.ofLists lists) (TokenNftTransfer.ofLists lists)) := by
    rw [fromProtobuf, TokenTransfer.fromProtobuf_toMessage faithful, TokenNftTransfer.fromProtobuf_toMessage faithful]
    rfl
  exact ⟨_, read lists, says_new_iff lists, _, read _, (says_new_iff _).mpr (mergeable_copy lists)⟩

/-- An approved and a plain amount of account 8. -/
def approvedAndPlainTokens : List TokenTransferList :=
  [{ token := .ofNum 3
     expectedDecimals := none
     transfers :=
      [{ accountID := .ofNum 8, amount := -3, isApproval := true },
        { accountID := .ofNum 8, amount := -5, isApproval := false },
        { accountID := .ofNum 7, amount := 8, isApproval := false }]
     nftTransfers := [] }]

theorem plain_amount_is_approved :
    ∃ copy, fromProtobuf prefixKeys (approvedAndPlainTokens.map (TokenTransferList.toMessage prefixKeys)) = .ok copy ∧
      ¬Says copy approvedAndPlainTokens := by
  obtain ⟨copy, read, keeps, -⟩ := fromProtobuf_says_iff prefixKeys_faithful approvedAndPlainTokens
  refine ⟨copy, read, fun same => ?_⟩
  have kept := (keeps.mp same).tokens (.ofNum 3) (AccountId.ofNum 8).identity _ _ rfl
  rw [said_apply] at kept
  exact absurd kept.1 (by decide)

end TokenAirdropTransaction

end HederaSdk
