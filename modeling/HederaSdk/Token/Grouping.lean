import HederaSdk.Token.TransferLists

/-!
# One list for each token

The walk over the sorted transfers is that of their tokens, so what is known of
`mergeKeys` holds of the lists that are built. Whatever a list of transfers weighs is
what its transfers weigh, each under its own token.
-/

namespace HederaSdk

open Library

namespace TokenId

/-- The id that is read back, from its place in the order. -/
def ofKey (k : ℤ ×ₗ ℤ ×ₗ ℤ) : TokenId where
  shard := (ofLex k).1
  realm := (ofLex (ofLex k).2).1
  num := (ofLex (ofLex k).2).2

theorem ofKey_key (id : TokenId) : ofKey id.key = id.onWire := rfl

theorem ofKey_injective : Function.Injective ofKey := by
  intro k k' same
  injection same with shards realms nums
  exact Prod.ext shards (Prod.ext realms nums)

theorem onWire_eq_iff {id other : TokenId} : id.onWire = other.onWire ↔ id.key = other.key := by
  rw [← ofKey_key, ← ofKey_key, ofKey_injective.eq_iff]

end TokenId

namespace TransferGroup

def key (group : TransferGroup) : ℤ ×ₗ ℤ ×ₗ ℤ := group.tokenId.key

theorem isOf_iff {id : TokenId} {group : TransferGroup} : group.isOf id = true ↔ group.key = id.key := by
  rw [isOf, beq_iff_eq, TokenId.compare_eq_zero_iff_key, key]

theorem lastIsOf_iff {id : TokenId} {groups : List TransferGroup} :
    lastIsOf id groups = true ↔ (groups.map key).getLast? = some id.key := by
  rw [lastIsOf, List.getLast?_map]
  cases groups.getLast? with
  | none => simp
  | some group => simp [isOf_iff]

variable {f : TransferGroup → TransferGroup} {id : TokenId}

theorem changeLast_concat (f : TransferGroup → TransferGroup) (groups : List TransferGroup)
    (group : TransferGroup) : changeLast f (groups ++ [group]) = groups ++ [f group] := by
  induction groups with
  | nil => rfl
  | cons first rest inductionHypothesis =>
      cases rest with
      | nil => rfl
      | cons second rest => exact congrArg (first :: ·) inductionHypothesis

theorem changeLast_of_lastIsOf {groups : List TransferGroup} (f : TransferGroup → TransferGroup)
    (last : lastIsOf id groups = true) :
    ∃ before group, groups = before ++ [group] ∧ group.isOf id = true ∧
      changeLast f groups = before ++ [f group] := by
  rcases groups.eq_nil_or_concat with rfl | ⟨before, group, rfl⟩
  · cases last
  · rw [List.concat_eq_append] at last ⊢
    refine ⟨before, group, rfl, ?_, changeLast_concat f before group⟩
    rw [lastIsOf, List.getLast?_concat] at last
    exact last

theorem changeOf_none {groups : List TransferGroup} :
    changeOf id f groups = none ↔ ∀ group ∈ groups, ¬group.isOf id = true := by
  induction groups with
  | nil => simp [changeOf]
  | cons group rest inductionHypothesis =>
      rw [changeOf, List.forall_mem_cons, ← inductionHypothesis]
      cases changeOf id f rest with
      | none => simp
      | some changed => simp

theorem changeOf_some {groups changed : List TransferGroup} (change : changeOf id f groups = some changed) :
    ∃ before group after, groups = before ++ group :: after ∧ group.isOf id = true ∧
      changed = before ++ f group :: after := by
  induction groups generalizing changed with
  | nil => cases change
  | cons first rest inductionHypothesis =>
      rw [changeOf] at change
      cases later : changeOf id f rest with
      | some rest' =>
          rw [later] at change
          cases change
          obtain ⟨before, group, after, shape, isOf, changed⟩ := inductionHypothesis later
          refine ⟨first :: before, group, after, ?_, isOf, ?_⟩
          · rw [shape, List.cons_append]
          · rw [changed, List.cons_append]
      | none =>
          simp only [later] at change
          split at change
          · rename_i isOf
            cases change
            exact ⟨[], first, rest, rfl, isOf, rfl⟩
          · cases change

/-! ## Tokens -/

@[simp] theorem key_push (transfer : TokenTransfer) (group : TransferGroup) :
    (group.push transfer).key = group.key := rfl

@[simp] theorem key_pushNft (transfer : TokenNftTransfer) (group : TransferGroup) :
    (group.pushNft transfer).key = group.key := rfl

/-- A change that keeps the token, or a new group, is a key added. -/
theorem map_key_changeOf (keeps : ∀ group, (f group).key = group.key) {group : TransferGroup}
    (ofToken : group.key = id.key) (groups : List TransferGroup) :
    ((changeOf id f groups).getD (groups ++ [group])).map key = addKey (groups.map key) id.key := by
  cases change : changeOf id f groups with
  | none =>
      have new : id.key ∉ groups.map key := by
        intro member
        obtain ⟨old, isOld, same⟩ := List.mem_map.mp member
        exact changeOf_none.mp change old isOld (isOf_iff.mpr same)
      rw [addKey, if_neg new, Option.getD_none, List.map_append, List.map_singleton, ofToken]
  | some changed =>
      obtain ⟨before, old, after, rfl, isOf, rfl⟩ := changeOf_some change
      have member : id.key ∈ (before ++ old :: after).map key := by
        rw [← isOf_iff.mp isOf]
        exact List.mem_map_of_mem (by simp)
      rw [addKey, if_pos member, Option.getD_some]
      simp [keeps]

theorem map_key_file (groups : List TransferGroup) (transfer : TokenTransfer) :
    (file groups transfer).map key = addKey (groups.map key) transfer.tokenId.key := by
  apply map_key_changeOf (key_push transfer)
  rfl

theorem map_key_fileNft (groups : List TransferGroup) (transfer : TokenNftTransfer) :
    (fileNft groups transfer).map key = addKey (groups.map key) transfer.tokenId.key := by
  apply map_key_changeOf (key_pushNft transfer)
  rfl

theorem map_key_foldl_file (transfers : List TokenTransfer) (groups : List TransferGroup) :
    (transfers.foldl file groups).map key =
      (transfers.map fun transfer => transfer.tokenId.key).foldl addKey (groups.map key) := by
  rw [List.foldl_map]
  exact (List.foldl_hom (List.map key) fun groups transfer => (map_key_file groups transfer).symm).symm

theorem map_key_foldl_fileNft (transfers : List TokenNftTransfer) (groups : List TransferGroup) :
    (transfers.foldl fileNft groups).map key =
      (transfers.map fun transfer => transfer.tokenId.key).foldl addKey (groups.map key) := by
  rw [List.foldl_map]
  exact (List.foldl_hom (List.map key) fun groups transfer => (map_key_fileNft groups transfer).symm).symm

theorem map_key_changeLast (keeps : ∀ group, (f group).key = group.key) (groups : List TransferGroup) :
    (changeLast f groups).map key = groups.map key := by
  rcases groups.eq_nil_or_concat with rfl | ⟨before, group, rfl⟩
  · rfl
  · rw [List.concat_eq_append, changeLast_concat]
    simp [keeps]

/-- The tokens of the lists that are built are those of the walk. -/
theorem map_key_groupTransfers (transfers : List TokenTransfer) (nfts : List TokenNftTransfer)
    (groups : List TransferGroup) :
    (groupTransfers transfers nfts groups).map key =
      mergeKeys (transfers.map fun transfer => transfer.tokenId.key)
        (nfts.map fun nft => nft.tokenId.key) (groups.map key) := by
  induction transfers generalizing nfts groups with
  | nil =>
      rw [groupTransfers, map_key_foldl_fileNft, List.map_nil, mergeKeys]
  | cons transfer rest outer =>
      rw [groupTransfers]
      induction nfts generalizing groups with
      | nil =>
          rw [groupAt, map_key_foldl_file, List.map_nil, List.map_cons, mergeKeys]
      | cons nft nfts inner =>
          rw [groupAt, List.map_cons, List.map_cons, mergeKeys]
          simp only [lastIsOf_iff, TokenId.compare_eq_zero_iff_key, TokenId.compare_lt_iff]
          split_ifs
          · rw [outer, map_key_changeLast (key_push transfer)]
            rfl
          · rw [inner, map_key_changeLast (key_pushNft nft)]
            rfl
          · rw [outer, List.map_append]
            rfl
          · rw [outer, List.map_append]
            rfl
          · rw [inner, List.map_append]
            rfl

/-! ## Weights -/

section Weight

variable {M : Type} [AddCommMonoid M]
variable (fungible : TokenId → TokenTransfer → M) (nonFungible : TokenId → TokenNftTransfer → M)

/-- What the transfers of a group weigh under its token. -/
def weigh (group : TransferGroup) : M :=
  (group.transfers.map (fungible group.tokenId.onWire)).sum +
    (group.nftTransfers.map (nonFungible group.tokenId.onWire)).sum

theorem weigh_push {transfer : TokenTransfer} {group : TransferGroup}
    (own : group.key = transfer.tokenId.key) :
    (group.push transfer).weigh fungible nonFungible =
      group.weigh fungible nonFungible + fungible transfer.tokenId.onWire transfer := by
  rw [← TokenId.onWire_eq_iff.mpr own]
  simp only [weigh, push, List.map_append, List.map_singleton, List.sum_append, List.sum_singleton]
  abel

theorem weigh_pushNft {transfer : TokenNftTransfer} {group : TransferGroup}
    (own : group.key = transfer.tokenId.key) :
    (group.pushNft transfer).weigh fungible nonFungible =
      group.weigh fungible nonFungible + nonFungible transfer.tokenId.onWire transfer := by
  rw [← TokenId.onWire_eq_iff.mpr own]
  simp only [weigh, pushNft, List.map_append, List.map_singleton, List.sum_append, List.sum_singleton]
  abel

theorem weigh_ofTransfer (transfer : TokenTransfer) :
    (ofTransfer transfer).weigh fungible nonFungible = fungible transfer.tokenId.onWire transfer := by
  simp [weigh, ofTransfer]

theorem weigh_ofNft (transfer : TokenNftTransfer) :
    (ofNft transfer).weigh fungible nonFungible = nonFungible transfer.tokenId.onWire transfer := by
  simp [weigh, ofNft]

theorem weigh_ofBoth {transfer : TokenTransfer} {nft : TokenNftTransfer}
    (same : transfer.tokenId.key = nft.tokenId.key) :
    (ofBoth transfer nft).weigh fungible nonFungible =
      fungible transfer.tokenId.onWire transfer + nonFungible nft.tokenId.onWire nft := by
  rw [← TokenId.onWire_eq_iff.mpr same]
  simp [weigh, ofBoth]

/-- What all groups weigh. -/
def total (groups : List TransferGroup) : M := (groups.map (weigh fungible nonFungible)).sum

theorem total_concat (groups : List TransferGroup) (group : TransferGroup) :
    total fungible nonFungible (groups ++ [group]) =
      total fungible nonFungible groups + group.weigh fungible nonFungible := by
  simp [total]

variable {fungible nonFungible} {added : M}

theorem total_changeOf
    (adds : ∀ group, group.isOf id = true →
      (f group).weigh fungible nonFungible = group.weigh fungible nonFungible + added)
    {group : TransferGroup} (new : group.weigh fungible nonFungible = added)
    (groups : List TransferGroup) :
    total fungible nonFungible ((changeOf id f groups).getD (groups ++ [group])) =
      total fungible nonFungible groups + added := by
  cases change : changeOf id f groups with
  | none => rw [Option.getD_none, total_concat, new]
  | some changed =>
      obtain ⟨before, old, after, rfl, isOf, rfl⟩ := changeOf_some change
      have grows := adds old isOf
      simp only [total, Option.getD_some, List.map_append, List.map_cons, List.sum_append,
        List.sum_cons, grows]
      abel

theorem total_changeLast
    (adds : ∀ group, group.isOf id = true →
      (f group).weigh fungible nonFungible = group.weigh fungible nonFungible + added)
    {groups : List TransferGroup} (last : lastIsOf id groups = true) :
    total fungible nonFungible (changeLast f groups) = total fungible nonFungible groups + added := by
  obtain ⟨before, group, rfl, isOf, changed⟩ := changeLast_of_lastIsOf f last
  rw [changed, total_concat, total_concat, adds group isOf, add_assoc]

theorem total_foldl_file (transfers : List TokenTransfer) (groups : List TransferGroup) :
    total fungible nonFungible (transfers.foldl file groups) =
      total fungible nonFungible groups +
        (transfers.map fun transfer => fungible transfer.tokenId.onWire transfer).sum := by
  induction transfers generalizing groups with
  | nil => simp
  | cons transfer rest inductionHypothesis =>
      have filed : total fungible nonFungible (file groups transfer) =
          total fungible nonFungible groups + fungible transfer.tokenId.onWire transfer := by
        apply total_changeOf
        · exact fun group isOf => weigh_push fungible nonFungible (isOf_iff.mp isOf)
        · exact weigh_ofTransfer fungible nonFungible transfer
      rw [List.foldl_cons, inductionHypothesis, filed, List.map_cons, List.sum_cons, add_assoc]

theorem total_foldl_fileNft (transfers : List TokenNftTransfer) (groups : List TransferGroup) :
    total fungible nonFungible (transfers.foldl fileNft groups) =
      total fungible nonFungible groups +
        (transfers.map fun transfer => nonFungible transfer.tokenId.onWire transfer).sum := by
  induction transfers generalizing groups with
  | nil => simp
  | cons transfer rest inductionHypothesis =>
      have filed : total fungible nonFungible (fileNft groups transfer) =
          total fungible nonFungible groups + nonFungible transfer.tokenId.onWire transfer := by
        apply total_changeOf
        · exact fun group isOf => weigh_pushNft fungible nonFungible (isOf_iff.mp isOf)
        · exact weigh_ofNft fungible nonFungible transfer
      rw [List.foldl_cons, inductionHypothesis, filed, List.map_cons, List.sum_cons, add_assoc]

/-- The groups weigh what the transfers do, each under its own token. -/
theorem total_groupTransfers (transfers : List TokenTransfer) (nfts : List TokenNftTransfer)
    (groups : List TransferGroup) :
    total fungible nonFungible (groupTransfers transfers nfts groups) =
      total fungible nonFungible groups +
        (transfers.map fun transfer => fungible transfer.tokenId.onWire transfer).sum +
        (nfts.map fun nft => nonFungible nft.tokenId.onWire nft).sum := by
  induction transfers generalizing nfts groups with
  | nil =>
      rw [groupTransfers, total_foldl_fileNft, List.map_nil, List.sum_nil, add_zero]
  | cons transfer rest outer =>
      rw [groupTransfers]
      induction nfts generalizing groups with
      | nil =>
          rw [groupAt, total_foldl_file, List.map_nil, List.sum_nil, add_zero]
      | cons nft nfts inner =>
          rw [groupAt]
          split_ifs with joins joinsNft same less
          · have pushed := total_changeLast
              (fun group isOf => weigh_push fungible nonFungible (isOf_iff.mp isOf)) joins
            simp only [outer, pushed, List.map_cons, List.sum_cons]
            abel
          · have pushed := total_changeLast
              (fun group isOf => weigh_pushNft fungible nonFungible (isOf_iff.mp isOf)) joinsNft
            simp only [inner, pushed, List.map_cons, List.sum_cons]
            abel
          · have both := weigh_ofBoth fungible nonFungible (TokenId.compare_eq_zero_iff_key.mp same)
            simp only [outer, total_concat, both, List.map_cons, List.sum_cons]
            abel
          · simp only [outer, total_concat, weigh_ofTransfer, List.map_cons, List.sum_cons]
            abel
          · simp only [inner, total_concat, weigh_ofNft, List.map_cons, List.sum_cons]
            abel

end Weight

end TransferGroup

namespace AbstractTokenTransferTransaction

/-! ## The lists that are built -/

/-- One list for each token that occurs, and in the lists the transfers that were recorded,
each under its own token. -/
structure ListedByToken (tx : AbstractTokenTransferTransaction) (lists : List TokenTransferList) :
    Prop where
  once : (lists.map TokenTransferList.token).Nodup
  occurs : ∀ token, token ∈ lists.map TokenTransferList.token ↔
    token ∈ tx.tokenTransfers.map (fun transfer => transfer.tokenId.onWire) ∨
      token ∈ tx.nftTransfers.map (fun nft => nft.tokenId.onWire)
  transfers :
    (lists.flatMap fun list => list.transfers.map (Prod.mk list.token)).Perm
      (tx.tokenTransfers.map fun transfer => (transfer.tokenId.onWire, transfer.toProtobuf))
  nftTransfers :
    (lists.flatMap fun list => list.nftTransfers.map (Prod.mk list.token)).Perm
      (tx.nftTransfers.map fun nft => (nft.tokenId.onWire, nft.toProtobuf))

/-- The tokens of the fungible transfers. -/
def fungibleTokens (tx : AbstractTokenTransferTransaction) : List (ℤ ×ₗ ℤ ×ₗ ℤ) :=
  tx.tokenTransfers.map fun transfer => transfer.tokenId.key

/-- The tokens of the NFT transfers, in the order of senders, receivers and serial numbers. -/
def sortedNftTokens (tx : AbstractTokenTransferTransaction) : List (ℤ ×ₗ ℤ ×ₗ ℤ) :=
  (Js.sort TokenNftTransfer.compare tx.nftTransfers).map fun nft => nft.tokenId.key

variable (tx : AbstractTokenTransferTransaction)

/-- The groups that are built. -/
def groups : List TransferGroup :=
  TransferGroup.groupTransfers tx.sortTransfers.tokenTransfers tx.sortTransfers.nftTransfers []

theorem tokenTransferLists_eq : tx.tokenTransferLists = tx.groups.map TransferGroup.toProtobuf := rfl

theorem perm_sortTransfers : tx.sortTransfers.tokenTransfers.Perm tx.tokenTransfers :=
  Js.sort_perm _ _

theorem perm_sortTransfers_nft : tx.sortTransfers.nftTransfers.Perm tx.nftTransfers :=
  Js.sort_perm _ _

theorem total_groups {M : Type} [AddCommMonoid M] (fungible : TokenId → TokenTransfer → M)
    (nonFungible : TokenId → TokenNftTransfer → M) :
    TransferGroup.total fungible nonFungible tx.groups =
      (tx.tokenTransfers.map fun transfer => fungible transfer.tokenId.onWire transfer).sum +
        (tx.nftTransfers.map fun nft => nonFungible nft.tokenId.onWire nft).sum := by
  have empty : TransferGroup.total fungible nonFungible [] = 0 := rfl
  rw [groups, TransferGroup.total_groupTransfers, empty, zero_add]
  congr 1
  · exact (tx.perm_sortTransfers.map _).sum_eq
  · exact (tx.perm_sortTransfers_nft.map _).sum_eq

theorem map_key_groups :
    tx.groups.map TransferGroup.key =
      mergeKeys (tx.sortTransfers.tokenTransfers.map fun transfer => transfer.tokenId.key)
        tx.sortedNftTokens [] :=
  TransferGroup.map_key_groupTransfers _ _ _

theorem map_token :
    tx.tokenTransferLists.map TokenTransferList.token =
      (mergeKeys (tx.sortTransfers.tokenTransfers.map fun transfer => transfer.tokenId.key)
        tx.sortedNftTokens []).map TokenId.ofKey := by
  rw [← map_key_groups, tokenTransferLists_eq, List.map_map, List.map_map]
  rfl

theorem nodup_tokens_iff :
    (tx.tokenTransferLists.map TokenTransferList.token).Nodup ↔
      Orderly tx.fungibleTokens [] tx.sortedNftTokens := by
  have sorted : (tx.sortTransfers.tokenTransfers.map fun transfer => transfer.tokenId.key).Pairwise
      (· ≤ ·) := Js.pairwise_sort TokenTransfer.rightAbout tx.tokenTransfers
  rw [map_token, List.nodup_map_iff TokenId.ofKey_injective, nodup_mergeKeys_iff sorted]
  apply orderly_congr
  intro k
  exact (tx.perm_sortTransfers.map _).mem_iff

theorem mem_tokens (token : TokenId) :
    token ∈ tx.tokenTransferLists.map TokenTransferList.token ↔
      token ∈ tx.tokenTransfers.map (fun transfer => transfer.tokenId.onWire) ∨
        token ∈ tx.nftTransfers.map (fun nft => nft.tokenId.onWire) := by
  have fungible : (tx.sortTransfers.tokenTransfers.map fun transfer => transfer.tokenId.onWire).Perm
      (tx.tokenTransfers.map fun transfer => transfer.tokenId.onWire) := tx.perm_sortTransfers.map _
  have nonFungible : (tx.sortTransfers.nftTransfers.map fun nft => nft.tokenId.onWire).Perm
      (tx.nftTransfers.map fun nft => nft.tokenId.onWire) := tx.perm_sortTransfers_nft.map _
  rw [map_token, ← fungible.mem_iff, ← nonFungible.mem_iff]
  simp only [← TokenId.ofKey_key, List.mem_map, mem_mergeKeys, List.not_mem_nil, false_or,
    sortedNftTokens]
  constructor
  · rintro ⟨k, ⟨transfer, member, rfl⟩ | ⟨nft, member, rfl⟩, rfl⟩
    · exact .inl ⟨transfer, member, rfl⟩
    · exact .inr ⟨nft, member, rfl⟩
  · rintro (⟨transfer, member, rfl⟩ | ⟨nft, member, rfl⟩)
    · exact ⟨transfer.tokenId.key, .inl ⟨transfer, member, rfl⟩, rfl⟩
    · exact ⟨nft.tokenId.key, .inr ⟨nft, member, rfl⟩, rfl⟩

/-- No fungible transfer is lost, doubled or listed under another token. -/
theorem perm_transfers :
    (tx.tokenTransferLists.flatMap fun list => list.transfers.map (Prod.mk list.token)).Perm
      (tx.tokenTransfers.map fun transfer => (transfer.tokenId.onWire, transfer.toProtobuf)) := by
  have filed := tx.total_groups (M := Multiset (TokenId × AccountAmount))
    (fun token transfer => {(token, transfer.toProtobuf)}) (fun _ _ => 0)
  rw [List.map_const', List.sum_replicate, nsmul_zero, add_zero, sum_map_singleton] at filed
  rw [← Multiset.coe_eq_coe, ← filed, tokenTransferLists_eq, List.flatMap_map, coe_flatMap,
    TransferGroup.total]
  congr 1
  apply List.map_congr_left
  intro group _
  simp only [TransferGroup.weigh, TransferGroup.toProtobuf, sum_map_singleton, List.map_const',
    List.sum_replicate, nsmul_zero, add_zero, List.map_map]
  rfl

/-- No NFT transfer is lost, doubled or listed under another token. -/
theorem perm_nftTransfers :
    (tx.tokenTransferLists.flatMap fun list => list.nftTransfers.map (Prod.mk list.token)).Perm
      (tx.nftTransfers.map fun nft => (nft.tokenId.onWire, nft.toProtobuf)) := by
  have filed := tx.total_groups (M := Multiset (TokenId × NftTransfer))
    (fun _ _ => 0) (fun token nft => {(token, nft.toProtobuf)})
  rw [List.map_const', List.sum_replicate, nsmul_zero, zero_add, sum_map_singleton] at filed
  rw [← Multiset.coe_eq_coe, ← filed, tokenTransferLists_eq, List.flatMap_map, coe_flatMap,
    TransferGroup.total]
  congr 1
  apply List.map_congr_left
  intro group _
  simp only [TransferGroup.weigh, TransferGroup.toProtobuf, sum_map_singleton, List.map_const',
    List.sum_replicate, nsmul_zero, zero_add, List.map_map]
  rfl

end AbstractTokenTransferTransaction

end HederaSdk
