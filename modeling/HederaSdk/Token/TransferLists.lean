import HederaSdk.Library.TwoWay
import HederaSdk.Token.Transfers

/-!
# Token transfer lists

The body of a transfer has a list for each token. `makeTransactionData` sorts the
fungible transfers by token and account, the NFT transfers by sender, receiver and serial
number, and walks both at once. Every transfer ends in a list of its own token, and no
token has two lists exactly when the NFT transfers name the tokens in an orderly way.
-/

namespace HederaSdk

open Library

namespace TokenTransfer

def compare (a b : TokenTransfer) : Int :=
  if a.tokenId.compare b.tokenId ≠ 0 then a.tokenId.compare b.tokenId
  else a.accountId.compare b.accountId

theorem rightAbout : Js.RightAbout compare fun transfer => transfer.tokenId.key := by
  intro a b less
  have order := TokenId.compare_of_lt less
  rw [compare, compare, if_pos order.1.ne, if_pos order.2.ne']
  exact order

end TokenTransfer

namespace TokenNftTransfer

def compare (a b : TokenNftTransfer) : Int :=
  if a.senderAccountId.compare b.senderAccountId ≠ 0 then
    a.senderAccountId.compare b.senderAccountId
  else if a.receiverAccountId.compare b.receiverAccountId ≠ 0 then
    a.receiverAccountId.compare b.receiverAccountId
  else compareLong a.serialNumber b.serialNumber

end TokenNftTransfer

/-- An element of `tokenTransferList`. -/
structure TransferGroup where
  tokenId : TokenId
  expectedDecimals : Option Nat
  transfers : List TokenTransfer
  nftTransfers : List TokenNftTransfer

namespace TransferGroup

def isOf (id : TokenId) (group : TransferGroup) : Bool := group.tokenId.compare id == 0

def push (transfer : TokenTransfer) (group : TransferGroup) : TransferGroup :=
  { group with transfers := group.transfers ++ [transfer] }

def pushNft (transfer : TokenNftTransfer) (group : TransferGroup) : TransferGroup :=
  { group with nftTransfers := group.nftTransfers ++ [transfer] }

def ofTransfer (transfer : TokenTransfer) : TransferGroup where
  tokenId := transfer.tokenId
  expectedDecimals := transfer.expectedDecimals
  transfers := [transfer]
  nftTransfers := []

def ofNft (transfer : TokenNftTransfer) : TransferGroup where
  tokenId := transfer.tokenId
  expectedDecimals := none
  transfers := []
  nftTransfers := [transfer]

def ofBoth (transfer : TokenTransfer) (nftTransfer : TokenNftTransfer) : TransferGroup where
  tokenId := transfer.tokenId
  expectedDecimals := transfer.expectedDecimals
  transfers := [transfer]
  nftTransfers := [nftTransfer]

/-- Whether the last group is of a token. -/
def lastIsOf (id : TokenId) (groups : List TransferGroup) : Bool := groups.getLast?.any (isOf id)

def changeLast (f : TransferGroup → TransferGroup) : List TransferGroup → List TransferGroup
  | [] => []
  | [group] => [f group]
  | group :: rest => group :: changeLast f rest

/-- Change the last group of a token, if there is one. -/
def changeOf (id : TokenId) (f : TransferGroup → TransferGroup) :
    List TransferGroup → Option (List TransferGroup)
  | [] => none
  | group :: rest =>
      match changeOf id f rest with
      | some rest => some (group :: rest)
      | none => if group.isOf id then some (f group :: rest) else none

def file (groups : List TransferGroup) (transfer : TokenTransfer) : List TransferGroup :=
  (changeOf transfer.tokenId (push transfer) groups).getD (groups ++ [ofTransfer transfer])

def fileNft (groups : List TransferGroup) (transfer : TokenNftTransfer) : List TransferGroup :=
  (changeOf transfer.tokenId (pushNft transfer) groups).getD (groups ++ [ofNft transfer])

/-- The loop while `transfer` is the next fungible transfer; `next` is the loop behind it. -/
def groupAt (transfer : TokenTransfer) (rest : List TokenTransfer)
    (next : List TokenNftTransfer → List TransferGroup → List TransferGroup) :
    List TokenNftTransfer → List TransferGroup → List TransferGroup
  | [], groups => (transfer :: rest).foldl file groups
  | nft :: nfts, groups =>
      if lastIsOf transfer.tokenId groups then next (nft :: nfts) (changeLast (push transfer) groups)
      else if lastIsOf nft.tokenId groups then
        groupAt transfer rest next nfts (changeLast (pushNft nft) groups)
      else if transfer.tokenId.compare nft.tokenId = 0 then
        next nfts (groups ++ [ofBoth transfer nft])
      else if transfer.tokenId.compare nft.tokenId < 0 then
        next (nft :: nfts) (groups ++ [ofTransfer transfer])
      else groupAt transfer rest next nfts (groups ++ [ofNft nft])

/-- The loop of `makeTransactionData` over the sorted transfers. -/
def groupTransfers :
    List TokenTransfer → List TokenNftTransfer → List TransferGroup → List TransferGroup
  | [], nfts, groups => nfts.foldl fileNft groups
  | transfer :: rest, nfts, groups => groupAt transfer rest (groupTransfers rest) nfts groups

end TransferGroup

/-! ## Messages

Ids are as they are read back. -/

structure AccountAmount where
  accountID : AccountId
  amount : Int
  isApproval : Bool
  deriving DecidableEq

structure NftTransfer where
  senderAccountID : AccountId
  receiverAccountID : AccountId
  serialNumber : Int
  isApproval : Bool
  deriving DecidableEq

structure TokenTransferList where
  token : TokenId
  expectedDecimals : Option Nat
  transfers : List AccountAmount
  nftTransfers : List NftTransfer
  deriving DecidableEq

def TokenTransfer.toProtobuf (transfer : TokenTransfer) : AccountAmount where
  accountID := transfer.accountId.onWire
  amount := transfer.amount
  isApproval := transfer.isApproved

def TokenNftTransfer.toProtobuf (transfer : TokenNftTransfer) : NftTransfer where
  senderAccountID := transfer.senderAccountId.onWire
  receiverAccountID := transfer.receiverAccountId.onWire
  serialNumber := transfer.serialNumber
  isApproval := transfer.isApproved

def TransferGroup.toProtobuf (group : TransferGroup) : TokenTransferList where
  token := group.tokenId.onWire
  expectedDecimals := group.expectedDecimals
  transfers := group.transfers.map TokenTransfer.toProtobuf
  nftTransfers := group.nftTransfers.map TokenNftTransfer.toProtobuf

namespace AbstractTokenTransferTransaction

/-- Both lists are sorted in their place. -/
def sortTransfers (tx : AbstractTokenTransferTransaction) : AbstractTokenTransferTransaction :=
  { tx with
    tokenTransfers := Js.sort TokenTransfer.compare tx.tokenTransfers
    nftTransfers := Js.sort TokenNftTransfer.compare tx.nftTransfers }

def makeTransactionData : Method JsError AbstractTokenTransferTransaction (List TokenTransferList) := do
  Method.update sortTransfers
  let tx ← Method.this
  pure ((TransferGroup.groupTransfers tx.tokenTransfers tx.nftTransfers []).map
    TransferGroup.toProtobuf)

/-- The lists that are built. -/
def tokenTransferLists (tx : AbstractTokenTransferTransaction) : List TokenTransferList :=
  (TransferGroup.groupTransfers tx.sortTransfers.tokenTransfers tx.sortTransfers.nftTransfers []).map
    TransferGroup.toProtobuf

theorem run_makeTransactionData (tx : AbstractTokenTransferTransaction) :
    makeTransactionData.run tx = (.ok tx.tokenTransferLists, tx.sortTransfers) := rfl

end AbstractTokenTransferTransaction

end HederaSdk
