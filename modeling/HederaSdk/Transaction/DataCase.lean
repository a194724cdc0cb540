import Mathlib.Data.List.Basic

/-!
# Transaction types

The registry maps the case of a body's `data` to the transaction class that
reads it.
-/

namespace HederaSdk

inductive DataCase where
  | consensusCreateTopic
  | consensusDeleteTopic
  | consensusSubmitMessage
  | consensusUpdateTopic
  | contractCall
  | contractCreateInstance
  | contractDeleteInstance
  | contractUpdateInstance
  | cryptoAddLiveHash
  | cryptoApproveAllowance
  | cryptoCreateAccount
  | cryptoDelete
  | cryptoDeleteAllowance
  | cryptoDeleteLiveHash
  | cryptoTransfer
  | cryptoUpdateAccount
  | ethereumTransaction
  | fileAppend
  | fileCreate
  | fileDelete
  | fileUpdate
  | freeze
  | nodeCreate
  | nodeDelete
  | nodeUpdate
  | scheduleCreate
  | scheduleDelete
  | scheduleSign
  | systemDelete
  | systemUndelete
  | tokenAirdrop
  | tokenAssociate
  | tokenBurn
  | tokenCancelAirdrop
  | tokenClaimAirdrop
  | tokenCreation
  | tokenDeletion
  | tokenDissociate
  | tokenFeeScheduleUpdate
  | tokenFreeze
  | tokenGrantKyc
  | tokenMint
  | tokenPause
  | tokenReject
  | tokenRevokeKyc
  | tokenUnfreeze
  | tokenUnpause
  | tokenUpdate
  | tokenUpdateNfts
  | tokenWipe
  | utilPrng
  deriving DecidableEq

namespace DataCase

def name : DataCase → String
  | .consensusCreateTopic => "consensusCreateTopic"
  | .consensusDeleteTopic => "consensusDeleteTopic"
  | .consensusSubmitMessage => "consensusSubmitMessage"
  | .consensusUpdateTopic => "consensusUpdateTopic"
  | .contractCall => "contractCall"
  | .contractCreateInstance => "contractCreateInstance"
  | .contractDeleteInstance => "contractDeleteInstance"
  | .contractUpdateInstance => "contractUpdateInstance"
  | .cryptoAddLiveHash => "cryptoAddLiveHash"
  | .cryptoApproveAllowance => "cryptoApproveAllowance"
  | .cryptoCreateAccount => "cryptoCreateAccount"
  | .cryptoDelete => "cryptoDelete"
  | .cryptoDeleteAllowance => "cryptoDeleteAllowance"
  | .cryptoDeleteLiveHash => "cryptoDeleteLiveHash"
  | .cryptoTransfer => "cryptoTransfer"
  | .cryptoUpdateAccount => "cryptoUpdateAccount"
  | .ethereumTransaction => "ethereumTransaction"
  | .fileAppend => "fileAppend"
  | .fileCreate => "fileCreate"
  | .fileDelete => "fileDelete"
  | .fileUpdate => "fileUpdate"
  | .freeze => "freeze"
  | .nodeCreate => "nodeCreate"
  | .nodeDelete => "nodeDelete"
  | .nodeUpdate => "nodeUpdate"
  | .scheduleCreate => "scheduleCreate"
  | .scheduleDelete => "scheduleDelete"
  | .scheduleSign => "scheduleSign"
  | .systemDelete => "systemDelete"
  | .systemUndelete => "systemUndelete"
  | .tokenAirdrop => "tokenAirdrop"
  | .tokenAssociate => "tokenAssociate"
  | .tokenBurn => "tokenBurn"
  | .tokenCancelAirdrop => "tokenCancelAirdrop"
  | .tokenClaimAirdrop => "tokenClaimAirdrop"
  | .tokenCreation => "tokenCreation"
  | .tokenDeletion => "tokenDeletion"
  | .tokenDissociate => "tokenDissociate"
  | .tokenFeeScheduleUpdate => "tokenFeeScheduleUpdate"
  | .tokenFreeze => "tokenFreeze"
  | .tokenGrantKyc => "tokenGrantKyc"
  | .tokenMint => "tokenMint"
  | .tokenPause => "tokenPause"
  | .tokenReject => "tokenReject"
  | .tokenRevokeKyc => "tokenRevokeKyc"
  | .tokenUnfreeze => "tokenUnfreeze"
  | .tokenUnpause => "tokenUnpause"
  | .tokenUpdate => "tokenUpdate"
  | .tokenUpdateNfts => "tokenUpdateNfts"
  | .tokenWipe => "tokenWipe"
  | .utilPrng => "utilPrng"

/-- The keys of `TRANSACTION_REGISTRY`. -/
def all : List DataCase :=
  [.consensusCreateTopic, .consensusDeleteTopic, .consensusSubmitMessage,
    .consensusUpdateTopic, .contractCall, .contractCreateInstance, .contractDeleteInstance,
    .contractUpdateInstance, .cryptoAddLiveHash, .cryptoApproveAllowance,
    .cryptoCreateAccount, .cryptoDelete, .cryptoDeleteAllowance, .cryptoDeleteLiveHash,
    .cryptoTransfer, .cryptoUpdateAccount, .ethereumTransaction, .fileAppend, .fileCreate,
    .fileDelete, .fileUpdate, .freeze, .nodeCreate, .nodeDelete, .nodeUpdate, .scheduleCreate,
    .scheduleDelete, .scheduleSign, .systemDelete, .systemUndelete, .tokenAirdrop,
    .tokenAssociate, .tokenBurn, .tokenCancelAirdrop, .tokenClaimAirdrop, .tokenCreation,
    .tokenDeletion, .tokenDissociate, .tokenFeeScheduleUpdate, .tokenFreeze, .tokenGrantKyc,
    .tokenMint, .tokenPause, .tokenReject, .tokenRevokeKyc, .tokenUnfreeze, .tokenUnpause,
    .tokenUpdate, .tokenUpdateNfts, .tokenWipe, .utilPrng]

/-- `TRANSACTION_REGISTRY.get` -/
def ofName? (name : String) : Option DataCase := all.find? fun c => c.name = name

theorem ofName?_name (c : DataCase) : ofName? c.name = some c := by cases c <;> rfl

end DataCase

end HederaSdk
