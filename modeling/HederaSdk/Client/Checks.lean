import HederaSdk.EntityId

/-!
# The checks of the ids in a request

A class of requests may override `_validateChecksums`. Each override looks at some of the id
fields of its class and asks the ids there, one after the other, to validate their checksums.
-/

namespace HederaSdk

open Library

/-- The fields that are looked at. A transfer or an allowance has several. -/
inductive IdField where
  | accountId
  | contractId
  | fileId
  | topicId
  | tokenId
  | tokenIds
  | scheduleId
  | proxyAccountId
  | transferAccountId
  | transferContractId
  | bytecodeFileId
  | payerAccountId
  | treasuryAccountId
  | autoRenewAccountId
  /-- `transactionId.accountId` -/
  | transactionAccountId
  /-- A field of bytes that is looked at as if it could hold a file id. -/
  | ethereumData
  | hbarTransferAccountId
  | tokenTransferTokenId
  | tokenTransferAccountId
  | nftTransferTokenId
  | nftTransferSenderAccountId
  | nftTransferReceiverAccountId
  | hbarAllowanceSpenderAccountId
  | tokenAllowanceTokenId
  | tokenAllowanceOwnerAccountId
  | tokenAllowanceSpenderAccountId
  | nftAllowanceTokenId
  | nftAllowanceOwnerAccountId
  | nftAllowanceSpenderAccountId
  /-- Any other field. -/
  | other
  deriving DecidableEq

/-- The classes of requests that name ids. -/
inductive RequestClass where
  | accountAllowanceAdjustTransaction
  | accountAllowanceApproveTransaction
  | accountAllowanceDeleteTransaction
  | accountBalanceQuery
  | accountCreateTransaction
  | accountDeleteTransaction
  | accountInfoQuery
  | accountRecordsQuery
  | accountUpdateTransaction
  | contractByteCodeQuery
  | contractCallQuery
  | contractCreateTransaction
  | contractDeleteTransaction
  | contractExecuteTransaction
  | contractInfoQuery
  | contractUpdateTransaction
  | ethereumTransaction
  | fileAppendTransaction
  | fileContentsQuery
  | fileCreateTransaction
  | fileDeleteTransaction
  | fileInfoQuery
  | fileUpdateTransaction
  | freezeTransaction
  | liveHashAddTransaction
  | liveHashDeleteTransaction
  | liveHashQuery
  | nodeCreateTransaction
  | nodeUpdateTransaction
  | scheduleCreateTransaction
  | scheduleDeleteTransaction
  | scheduleInfoQuery
  | scheduleSignTransaction
  | systemDeleteTransaction
  | systemUndeleteTransaction
  | tokenAirdropTransaction
  | tokenAssociateTransaction
  | tokenBurnTransaction
  | tokenCancelAirdropTransaction
  | tokenClaimAirdropTransaction
  | tokenCreateTransaction
  | tokenDeleteTransaction
  | tokenDissociateTransaction
  | tokenFeeScheduleUpdateTransaction
  | tokenFreezeTransaction
  | tokenGrantKycTransaction
  | tokenInfoQuery
  | tokenMintTransaction
  | tokenNftInfoQuery
  | tokenNftsUpdateTransaction
  | tokenPauseTransaction
  | tokenRejectTransaction
  | tokenRevokeKycTransaction
  | tokenUnfreezeTransaction
  | tokenUnpauseTransaction
  | tokenUpdateNftsTransaction
  | tokenUpdateTransaction
  | tokenWipeTransaction
  | topicCreateTransaction
  | topicDeleteTransaction
  | topicInfoQuery
  | topicMessageSubmitTransaction
  | topicUpdateTransaction
  | transactionReceiptQuery
  | transactionRecordQuery
  | transferTransaction
  deriving DecidableEq

namespace RequestClass

/-- `HbarAllowance._validateChecksums`: the spender is looked at twice, the owner never. -/
def hbarAllowance : List IdField := [.hbarAllowanceSpenderAccountId, .hbarAllowanceSpenderAccountId]

/-- `TokenAllowance._validateChecksums` -/
def tokenAllowance : List IdField :=
  [.tokenAllowanceTokenId, .tokenAllowanceOwnerAccountId, .tokenAllowanceSpenderAccountId]

/-- `TokenNftAllowance._validateChecksums` -/
def tokenNftAllowance : List IdField :=
  [.nftAllowanceTokenId, .nftAllowanceOwnerAccountId, .nftAllowanceSpenderAccountId]

/-- The fields that `_validateChecksums` of the class looks at, in its order. Fields that are
listed together are looked at transfer by transfer, or allowance by allowance. -/
def validated : RequestClass → List (List IdField)
  | accountAllowanceAdjustTransaction => [hbarAllowance, tokenAllowance, tokenNftAllowance]
  | accountAllowanceApproveTransaction => [hbarAllowance, tokenAllowance, tokenNftAllowance]
  | accountAllowanceDeleteTransaction => [tokenNftAllowance]
  | accountBalanceQuery => [[.accountId], [.contractId]]
  | accountCreateTransaction => [[.proxyAccountId]]
  | accountDeleteTransaction => [[.accountId], [.transferAccountId]]
  | accountInfoQuery => [[.accountId]]
  | accountRecordsQuery => [[.accountId]]
  | accountUpdateTransaction => [[.accountId], [.proxyAccountId]]
  | contractByteCodeQuery => [[.contractId]]
  | contractCallQuery => [[.contractId]]
  | contractCreateTransaction => [[.bytecodeFileId], [.proxyAccountId]]
  | contractDeleteTransaction => [[.contractId], [.transferAccountId], [.transferContractId]]
  | contractExecuteTransaction => [[.contractId]]
  | contractInfoQuery => [[.contractId]]
  | contractUpdateTransaction => [[.contractId], [.bytecodeFileId], [.proxyAccountId]]
  | ethereumTransaction => [[.ethereumData]]
  | fileAppendTransaction => [[.fileId]]
  | fileContentsQuery => [[.fileId]]
  | fileDeleteTransaction => [[.fileId]]
  | fileInfoQuery => [[.fileId]]
  | fileUpdateTransaction => [[.fileId]]
  | liveHashAddTransaction => [[.accountId]]
  | liveHashDeleteTransaction => [[.accountId]]
  | liveHashQuery => [[.accountId]]
  | scheduleCreateTransaction => [[.payerAccountId]]
  | scheduleDeleteTransaction => [[.scheduleId]]
  | scheduleInfoQuery => [[.scheduleId]]
  | scheduleSignTransaction => [[.scheduleId]]
  | tokenAssociateTransaction => [[.accountId], [.tokenIds]]
  | tokenBurnTransaction => [[.tokenId]]
  | tokenCreateTransaction => [[.treasuryAccountId], [.autoRenewAccountId]]
  | tokenDeleteTransaction => [[.tokenId]]
  | tokenDissociateTransaction => [[.accountId], [.tokenIds]]
  | tokenFreezeTransaction => [[.tokenId], [.accountId]]
  | tokenGrantKycTransaction => [[.tokenId], [.accountId]]
  | tokenInfoQuery => [[.tokenId]]
  | tokenMintTransaction => [[.tokenId]]
  | tokenNftsUpdateTransaction => [[.tokenId]]
  | tokenPauseTransaction => [[.tokenId]]
  | tokenRevokeKycTransaction => [[.tokenId], [.accountId]]
  | tokenUnfreezeTransaction => [[.tokenId], [.accountId]]
  | tokenUnpauseTransaction => [[.tokenId]]
  | tokenUpdateNftsTransaction => [[.tokenId]]
  | tokenUpdateTransaction => [[.tokenId], [.treasuryAccountId], [.autoRenewAccountId]]
  | tokenWipeTransaction => [[.tokenId], [.accountId]]
  | topicCreateTransaction => [[.autoRenewAccountId]]
  | topicDeleteTransaction => [[.topicId]]
  | topicInfoQuery => [[.topicId]]
  | topicUpdateTransaction => [[.topicId], [.autoRenewAccountId]]
  | transactionReceiptQuery => [[.transactionAccountId]]
  | transactionRecordQuery => [[.transactionAccountId]]
  | transferTransaction => [[.hbarTransferAccountId], [.tokenTransferTokenId, .tokenTransferAccountId],
      [.nftTransferTokenId, .nftTransferSenderAccountId, .nftTransferReceiverAccountId]]
  -- These do not override the method.
  | fileCreateTransaction | freezeTransaction | nodeCreateTransaction | nodeUpdateTransaction
  | systemDeleteTransaction | systemUndeleteTransaction | tokenAirdropTransaction
  | tokenCancelAirdropTransaction | tokenClaimAirdropTransaction | tokenFeeScheduleUpdateTransaction
  | tokenNftInfoQuery | tokenRejectTransaction | topicMessageSubmitTransaction => []

end RequestClass

/-- An id in the data of a request. -/
structure NamedId where
  field : IdField
  cls : EntityClass
  id : EntityId

/-- The ids that a request names; those of one transfer or allowance are a record. -/
structure RequestIds where
  cls : RequestClass
  records : List (List NamedId)

/-- The id has a checksum that is not the one of the ledger. -/
def EntityId.WrongFor (ledgerId : Bytes) (id : EntityId) : Prop :=
  ∃ present, id.checksum = some present ∧
    present ≠ HederaSdk.checksum ledgerId s!"{id.shard}.{id.realm}.{id.num}"

/-- An account with an alias key has no checksum, and none is made for it. -/
def NamedId.Aliased (named : NamedId) : Prop := named.cls = .accountId ∧ named.id.aliasKey.isSome = true

theorem EntityClass.validateChecksum_eq_ok {cls : EntityClass} {id : EntityId} {ledgerId : Option Bytes} :
    cls.validateChecksum id ledgerId = .ok () ↔
      ¬ (cls = .accountId ∧ id.aliasKey.isSome = true) ∧ ∀ l ∈ ledgerId, ¬ id.WrongFor l := by
  have helper : EntityIdHelper.validateChecksum id ledgerId = .ok () ↔ ∀ l ∈ ledgerId, ¬ id.WrongFor l := by
    cases ledgerId with
    | none => simp [EntityIdHelper.validateChecksum]
    | some ledgerId =>
        cases present : id.checksum with
        | none => simp [EntityIdHelper.validateChecksum, EntityId.WrongFor, present]
        | some letters =>
            by_cases same : letters = checksum ledgerId s!"{id.shard}.{id.realm}.{id.num}"
            · simp [EntityIdHelper.validateChecksum, EntityId.WrongFor, present, same]
            · simp [EntityIdHelper.validateChecksum, EntityId.WrongFor, present]
  rw [EntityClass.validateChecksum, EntityClass.withoutAliasKey, ← helper]
  by_cases aliased : cls = .accountId ∧ id.aliasKey.isSome = true
  · simp [aliased, bind, Except.bind]
  · simp [aliased, bind, Except.bind]

namespace RequestIds

def ids (request : RequestIds) : List NamedId := request.records.flatten

/-- `_validateChecksums` -/
def validateChecksums (request : RequestIds) (ledgerId : Option Bytes) : Except JsError Unit :=
  request.cls.validated.forM fun fields => request.records.forM fun record => fields.forM fun field =>
    (record.filter fun named => named.field = field).forM fun named =>
      named.cls.validateChecksum named.id ledgerId

/-- The id is in a field that the class of the request looks at. -/
def Looked (request : RequestIds) (named : NamedId) : Prop :=
  named ∈ request.ids ∧ named.field ∈ request.cls.validated.flatten

/-- A request passes when no id in a field that is looked at is refused. -/
theorem validateChecksums_eq_ok {request : RequestIds} {ledgerId : Option Bytes} :
    request.validateChecksums ledgerId = .ok () ↔
      ∀ named, request.Looked named → ¬ named.Aliased ∧ ∀ l ∈ ledgerId, ¬ named.id.WrongFor l := by
  simp only [validateChecksums, except_forM_eq_ok, List.mem_filter, decide_eq_true_eq,
    EntityClass.validateChecksum_eq_ok, Looked, ids, List.mem_flatten]
  constructor
  · rintro all named ⟨⟨record, known, inside⟩, fields, validated, field⟩
    exact all fields validated record known named.field field named ⟨inside, rfl⟩
  · rintro all fields validated record known field member named ⟨inside, rfl⟩
    exact all named ⟨⟨record, known, inside⟩, fields, validated, member⟩

end RequestIds

end HederaSdk
