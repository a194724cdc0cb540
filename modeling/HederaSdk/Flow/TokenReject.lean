import HederaSdk.Account.NftAllowance

/-!
# Rejecting tokens

The flow rejects tokens and then dissociates from them. The ids it is given are objects: two
objects can have the same value. The tokens of the NFTs are filtered by the place where an
object is found first, which compares the objects and not their values, and the fungible tokens
are not filtered at all.
-/

namespace HederaSdk

/-- `array.filter((value, index, array) => array.indexOf(value) === index)` -/
def firsts {α : Type*} [DecidableEq α] (array : List α) : List α :=
  (array.zipIdx.filter fun entry => array.idxOf entry.1 = entry.2).map Prod.fst

section Firsts

variable {α : Type*} [DecidableEq α] (array : List α)

theorem mem_firsts {value : α} : value ∈ firsts array ↔ value ∈ array := by
  rw [firsts, List.mem_map]
  constructor
  · rintro ⟨⟨_, index⟩, member, rfl⟩
    exact List.fst_mem_of_mem_zipIdx (List.mem_of_mem_filter member)
  · intro member
    refine ⟨(value, array.idxOf value), List.mem_filter.mpr ⟨?_, by simp⟩, rfl⟩
    rw [List.mem_zipIdx_iff_getElem?, List.getElem?_eq_some_iff]
    exact ⟨List.idxOf_lt_length_of_mem member, List.getElem_idxOf _⟩

/-- Every value is kept at one place only. -/
theorem nodup_firsts : (firsts array).Nodup := by
  have places : array.zipIdx.Nodup := by
    apply List.Nodup.of_map Prod.snd
    rw [List.zipIdx_map_snd]
    exact List.nodup_range'
  apply List.Nodup.map_on _ (places.filter _)
  rintro ⟨value, index⟩ member ⟨_, index'⟩ member' rfl
  have found := (List.mem_filter.mp member).2
  have found' := (List.mem_filter.mp member').2
  simp only [decide_eq_true_eq] at found found'
  rw [← found, ← found']

end Firsts

/-! ## The flow -/

/-- An NFT id refers to the object of its token id. -/
structure NftObject (Ref : Type) where
  tokenId : Ref
  serial : Int

/-- What freezing with a client reads of it. -/
structure Freezer where
  signOnDemand : Bool

structure TokenRejectFlow (Ref : Type) where
  ownerId : Option AccountId := none
  tokenIds : List Ref := []
  nftIds : List (NftObject Ref) := []
  freezeWithClient : Option Freezer := none

namespace TokenRejectFlow

variable {Ref : Type}

def requireNotFrozen (flow : TokenRejectFlow Ref) : Except JsError Unit :=
  if flow.freezeWithClient.isSome then
    .error (.error "Transaction is already frozen and cannot be modified")
  else .ok ()

def setTokenIds (ids : List Ref) (flow : TokenRejectFlow Ref) : Except JsError (TokenRejectFlow Ref) :=
  flow.requireNotFrozen.map fun _ => { flow with tokenIds := ids }

def addTokenId (id : Ref) (flow : TokenRejectFlow Ref) : Except JsError (TokenRejectFlow Ref) :=
  flow.requireNotFrozen.map fun _ => { flow with tokenIds := flow.tokenIds ++ [id] }

def setNftIds (ids : List (NftObject Ref)) (flow : TokenRejectFlow Ref) : Except JsError (TokenRejectFlow Ref) :=
  flow.requireNotFrozen.map fun _ => { flow with nftIds := ids }

def addNftId (id : NftObject Ref) (flow : TokenRejectFlow Ref) : Except JsError (TokenRejectFlow Ref) :=
  flow.requireNotFrozen.map fun _ => { flow with nftIds := flow.nftIds ++ [id] }

/-- The objects of all token ids that were given. -/
def given (flow : TokenRejectFlow Ref) : List Ref := flow.tokenIds ++ flow.nftIds.map NftObject.tokenId

variable [DecidableEq Ref] (token : Ref → TokenId)

/-- The token ids of the dissociate transaction, which are copies. -/
def dissociateTokenIds (flow : TokenRejectFlow Ref) : List TokenId :=
  (flow.tokenIds ++ firsts (flow.nftIds.map NftObject.tokenId)).map token

/-- Each token is in the list once. -/
def EachOnce (flow : TokenRejectFlow Ref) : Prop :=
  ∀ ref ∈ flow.given, ((flow.dissociateTokenIds token).map TokenId.numbers).count (token ref).numbers = 1

/-- The fungible tokens differ from each other and from the tokens of the NFTs, and NFTs of one
token share the object of its id. -/
structure Distinct (flow : TokenRejectFlow Ref) : Prop where
  tokens : (flow.tokenIds.map fun ref => (token ref).numbers).Nodup
  apart : ∀ ref ∈ flow.tokenIds, ∀ nft ∈ flow.nftIds, (token ref).numbers ≠ (token nft.tokenId).numbers
  shared : ∀ nft ∈ flow.nftIds, ∀ other ∈ flow.nftIds,
    (token nft.tokenId).numbers = (token other.tokenId).numbers → nft.tokenId = other.tokenId

variable {token}

theorem numbers_dissociateTokenIds (flow : TokenRejectFlow Ref) :
    (flow.dissociateTokenIds token).map TokenId.numbers =
      flow.tokenIds.map (fun ref => (token ref).numbers) ++
        (firsts (flow.nftIds.map NftObject.tokenId)).map fun ref => (token ref).numbers := by
  rw [dissociateTokenIds, List.map_map, List.map_append]
  rfl

theorem mem_numbers_iff (flow : TokenRejectFlow Ref) (numbers : Int × Int × Int) :
    numbers ∈ (flow.dissociateTokenIds token).map TokenId.numbers ↔ ∃ ref ∈ flow.given, (token ref).numbers = numbers := by
  simp only [numbers_dissociateTokenIds, given, List.mem_append, List.mem_map, mem_firsts, or_and_right, exists_or]

theorem eachOnce_iff_nodup (flow : TokenRejectFlow Ref) :
    flow.EachOnce token ↔ ((flow.dissociateTokenIds token).map TokenId.numbers).Nodup := by
  rw [List.nodup_iff_count_eq_one]
  constructor
  · intro once numbers member
    obtain ⟨ref, among, rfl⟩ := (mem_numbers_iff flow numbers).mp member
    exact once ref among
  · exact fun once ref among => once _ ((mem_numbers_iff flow _).mpr ⟨ref, among, rfl⟩)

/-- The token list has each token once exactly when equal ids were given as one object, and
only for NFTs. -/
theorem eachOnce_iff (token : Ref → TokenId) (flow : TokenRejectFlow Ref) :
    flow.EachOnce token ↔ flow.Distinct token := by
  rw [eachOnce_iff_nodup, numbers_dissociateTokenIds, List.nodup_append,
    List.nodup_map_iff_inj_on (nodup_firsts (flow.nftIds.map NftObject.tokenId))]
  constructor
  · rintro ⟨tokens, shared, apart⟩
    refine ⟨tokens, fun ref among nft inNfts => ?_, fun nft inNfts other inNfts' same => ?_⟩
    · exact apart _ (List.mem_map_of_mem among) _
        (List.mem_map_of_mem ((mem_firsts _).mpr (List.mem_map_of_mem inNfts)))
    · exact shared _ ((mem_firsts _).mpr (List.mem_map_of_mem inNfts)) _
        ((mem_firsts _).mpr (List.mem_map_of_mem inNfts')) same
  · rintro ⟨tokens, apart, shared⟩
    refine ⟨tokens, fun ref member ref' member' same => ?_, fun numbers member numbers' member' => ?_⟩
    · obtain ⟨nft, inNfts, rfl⟩ := List.mem_map.mp ((mem_firsts _).mp member)
      obtain ⟨other, inNfts', rfl⟩ := List.mem_map.mp ((mem_firsts _).mp member')
      exact shared nft inNfts other inNfts' same
    · obtain ⟨ref, among, rfl⟩ := List.mem_map.mp member
      obtain ⟨ref', kept, rfl⟩ := List.mem_map.mp member'
      obtain ⟨nft, inNfts, rfl⟩ := List.mem_map.mp ((mem_firsts _).mp kept)
      exact apart ref among nft inNfts

/-- Two NFTs of token 5, each with an id object of its own. -/
theorem equal_ids_are_repeated :
    dissociateTokenIds (fun _ => TokenId.ofNum 5) { nftIds := [⟨0, 1⟩, ⟨1, 2⟩] } =
        [TokenId.ofNum 5, TokenId.ofNum 5] ∧
      ¬ EachOnce (fun _ => TokenId.ofNum 5) { nftIds := [⟨(0 : Nat), 1⟩, ⟨1, 2⟩] } := by
  refine ⟨by decide, fun once => ?_⟩
  exact absurd (once 0 (by decide)) (by decide)

end TokenRejectFlow

end HederaSdk
