import HederaSdk.Update.Keys

/-!
# The update transactions

What a transaction changes of an entity is a record of fields, of which any may be unset. The class
writes it as the data of a body, `makeTransactionData`, and reads such data into a new transaction,
`fromProtobuf`. `onWire` is the record that is read of the data of a record.
-/

namespace HederaSdk

open Js (Value Properties SameMessage)

/-- The prototype of a message whose fields are messages or members of a group of which one is set. -/
def noDefaults (_ : String) : Value := .null

/-! ## Accounts -/

structure AccountUpdate where
  accountId : Option AccountId := none
  key : Option Key := none
  receiverSignatureRequired : Option Bool := none
  proxyAccountId : Option AccountId := none
  autoRenewPeriod : Option Int := none
  expirationTime : Option Timestamp := none
  accountMemo : Option String := none
  maxAutomaticTokenAssociations : Option Int := none
  stakedAccountId : Option AccountId := none
  stakedNodeId : Option Int := none
  declineStakingReward : Option Bool := none

namespace AccountUpdate

def fields (keys : KeyCodec) (update : AccountUpdate) : List (String × Option Value) :=
  [("accountIDToUpdate", update.accountId.map (AccountId.toProtobuf keys)),
    ("key", update.key.map Key.toValue),
    ("expirationTime", update.expirationTime.map Timestamp.toProtobuf),
    ("proxyAccountID", update.proxyAccountId.map (AccountId.toProtobuf keys)),
    ("autoRenewPeriod", update.autoRenewPeriod.map durationMessage),
    ("receiverSigRequiredWrapper", update.receiverSignatureRequired.map fun b => wrapper (.boolean b)),
    ("memo", update.accountMemo.map fun memo => wrapper (.string memo)),
    ("maxAutomaticTokenAssociations",
      (update.maxAutomaticTokenAssociations.map Timestamp.toInt).map fun n => wrapper (.number n)),
    ("stakedAccountId", update.stakedAccountId.map (AccountId.toProtobuf keys)),
    ("stakedNodeId", update.stakedNodeId.map (Value.long · false)),
    ("declineReward", update.declineStakingReward.map fun b => wrapper (.boolean b))]

/-- `_makeTransactionData` -/
def makeTransactionData (keys : KeyCodec) (update : AccountUpdate) : Value := .message (update.fields keys)

/-- `_fromProtobuf` -/
def fromProtobuf (keys : KeyCodec) (decoders : PublicKey.Decoders) (update : Value) :
    Except String AccountUpdate := do
  let accountId ← readField (AccountId.fromProtobuf keys) (update.get "accountIDToUpdate")
  let key ← Key.readField decoders (update.get "key")
  let proxyAccountId ← readField (AccountId.fromProtobuf keys) (update.get "proxyAccountID")
  let stakedAccountId ← readField (AccountId.fromProtobuf keys) (update.get "stakedAccountId")
  .ok {
    accountId
    key
    receiverSignatureRequired := readWrapper Value.toBool? (update.get "receiverSigRequiredWrapper")
    proxyAccountId
    autoRenewPeriod := readMessage readDuration (update.get "autoRenewPeriod")
    expirationTime := readMessage Timestamp.fromProtobuf (update.get "expirationTime")
    accountMemo := readWrapper Value.toString? (update.get "memo")
    maxAutomaticTokenAssociations :=
      readWrapper Value.toNumber? (update.get "maxAutomaticTokenAssociations")
    stakedAccountId
    stakedNodeId := (update.get "stakedNodeId").toLong?
    declineStakingReward := readWrapper Value.toBool? (update.get "declineReward") }

def onWire (update : AccountUpdate) : AccountUpdate :=
  { update with
    accountId := update.accountId.map AccountId.onWire
    key := update.key.map Key.onWire
    proxyAccountId := update.proxyAccountId.map AccountId.onWire
    expirationTime := update.expirationTime.map Timestamp.onWire
    maxAutomaticTokenAssociations := update.maxAutomaticTokenAssociations.map Timestamp.toInt
    stakedAccountId := update.stakedAccountId.map AccountId.onWire }

variable {keys : KeyCodec}

theorem fromProtobuf_makeTransactionData (faithful : keys.Faithful) (decoders : PublicKey.Decoders)
    (update : AccountUpdate) :
    fromProtobuf keys decoders (update.makeTransactionData keys) = .ok update.onWire := by
  simp only [fromProtobuf, makeTransactionData, fields, Value.message, Properties.ofFields,
    Value.get_object, Js.Properties.get_consSome, Properties.get_nil, String.reduceEq, if_true, if_false,
    readField_accountId faithful, Key.readField_map, readWrapper_boolean, readWrapper_string,
    readWrapper_number, readMessage_duration,
    readMessage_timestamp, toLong?_long_field]
  rfl

theorem sameMessage_iff (keys : KeyCodec) (update : AccountUpdate) :
    SameMessage noDefaults (update.onWire.makeTransactionData keys) (update.makeTransactionData keys) ↔
      (∀ key ∈ update.key, key.HasNumbers) ∧
        ∀ time ∈ update.expirationTime, Timestamp.toInt time.seconds = time.seconds := by
  rw [makeTransactionData, makeTransactionData,
    @Js.sameMessage_iff _ (update.onWire.fields keys) (update.fields keys) rfl (by simp [fields])]
  have associations (field : Option Int) :
      (field.map Timestamp.toInt).map Timestamp.toInt = field.map Timestamp.toInt := by
    simp only [Option.map_map, Function.comp_def, Timestamp.toInt_toInt]
  simp only [fields, onWire, List.forall₂_cons, List.Forall₂.nil, map_toProtobuf_onWire,
    Key.sameKey_iff, sameTimestamp_iff, associations, true_and, and_true]

theorem plain_makeTransactionData (keys : KeyCodec) (update : AccountUpdate) :
    (update.makeTransactionData keys).Plain := by
  apply Value.plain_message
  simp only [fields, List.forall_mem_cons, plain_accountId, Key.plain_field, plain_timestamp, plain_duration, plain_long, plain_boolean, plain_string,
    plain_number, implies_true, List.not_mem_nil, false_implies, and_true]

end AccountUpdate

/-! ## Contracts -/

/-- `Boolean(v)` -/
def Js.Value.truthy : Value → Bool
  | .undefined | .null => false
  | .number n => n ≠ 0
  | .string s => s ≠ ""
  | .boolean b => b
  | .object _ => true

structure ContractUpdate where
  contractId : Option ContractId := none
  bytecodeFileId : Option FileId := none
  expirationTime : Option Timestamp := none
  adminKey : Option Key := none
  proxyAccountId : Option AccountId := none
  autoRenewPeriod : Option Int := none
  contractMemo : Option String := none
  maxAutomaticTokenAssociations : Option Int := none
  stakedAccountId : Option AccountId := none
  stakedNodeId : Option Int := none
  declineStakingReward : Option Bool := none
  autoRenewAccountId : Option AccountId := none

namespace ContractUpdate

def fields (keys : KeyCodec) (update : ContractUpdate) : List (String × Option Value) :=
  [("contractID", update.contractId.map ContractId.toValue),
    ("expirationTime", update.expirationTime.map Timestamp.toProtobuf),
    ("adminKey", update.adminKey.map Key.toValue),
    ("proxyAccountID", update.proxyAccountId.map (AccountId.toProtobuf keys)),
    ("autoRenewPeriod", update.autoRenewPeriod.map durationMessage),
    ("fileID", update.bytecodeFileId.map FileId.toProtobuf),
    ("memoWrapper", update.contractMemo.map fun memo => wrapper (.string memo)),
    ("maxAutomaticTokenAssociations",
      update.maxAutomaticTokenAssociations.map fun n => wrapper (.number n)),
    ("stakedAccountId", update.stakedAccountId.map (AccountId.toProtobuf keys)),
    ("stakedNodeId", update.stakedNodeId.map (Value.long · false)),
    ("declineReward", update.declineStakingReward.map fun b => wrapper (.boolean b)),
    ("autoRenewAccountId", update.autoRenewAccountId.map (AccountId.toProtobuf keys))]

/-- `_makeTransactionData` -/
def makeTransactionData (keys : KeyCodec) (update : ContractUpdate) : Value := .message (update.fields keys)

/-- `_fromProtobuf`; whether rewards are declined is whether their wrapper is set. -/
def fromProtobuf (keys : KeyCodec) (decoders : PublicKey.Decoders) (update : Value) :
    Except String ContractUpdate := do
  let adminKey ← Key.readField decoders (update.get "adminKey")
  let proxyAccountId ← readField (AccountId.fromProtobuf keys) (update.get "proxyAccountID")
  let stakedAccountId ← readField (AccountId.fromProtobuf keys) (update.get "stakedAccountId")
  let autoRenewAccountId ← readField (AccountId.fromProtobuf keys) (update.get "autoRenewAccountId")
  let declineReward := update.get "declineReward"
  .ok {
    contractId := readMessage ContractId.ofValue (update.get "contractID")
    bytecodeFileId := readMessage FileId.fromProtobuf (update.get "fileID")
    expirationTime := readMessage Timestamp.fromProtobuf (update.get "expirationTime")
    adminKey
    proxyAccountId
    autoRenewPeriod := readMessage readDuration (update.get "autoRenewPeriod")
    contractMemo := readWrapper Value.toString? (update.get "memoWrapper")
    maxAutomaticTokenAssociations :=
      readMessage (readNumber "value") (update.get "maxAutomaticTokenAssociations")
    stakedAccountId
    stakedNodeId := (update.get "stakedNodeId").toLong?
    declineStakingReward := some (!declineReward.isNullish && declineReward.truthy)
    autoRenewAccountId }

def onWire (update : ContractUpdate) : ContractUpdate :=
  { update with
    contractId := update.contractId.map ContractId.onWire
    bytecodeFileId := update.bytecodeFileId.map FileId.onWire
    expirationTime := update.expirationTime.map Timestamp.onWire
    adminKey := update.adminKey.map Key.onWire
    proxyAccountId := update.proxyAccountId.map AccountId.onWire
    stakedAccountId := update.stakedAccountId.map AccountId.onWire
    declineStakingReward := some update.declineStakingReward.isSome
    autoRenewAccountId := update.autoRenewAccountId.map AccountId.onWire }

variable {keys : KeyCodec}

theorem fromProtobuf_makeTransactionData (faithful : keys.Faithful) (decoders : PublicKey.Decoders)
    (update : ContractUpdate) :
    fromProtobuf keys decoders (update.makeTransactionData keys) = .ok update.onWire := by
  have associations (field : Option Int) : readMessage (readNumber "value")
      ((field.map fun n => wrapper (.number n)).getD .undefined) = field := by
    cases field <;> rfl
  have declined (field : Option Bool) :
      (!((field.map fun b => wrapper (.boolean b)).getD .undefined).isNullish &&
        ((field.map fun b => wrapper (.boolean b)).getD .undefined).truthy) = field.isSome := by
    cases field <;> rfl
  simp only [fromProtobuf, makeTransactionData, fields, Value.message, Properties.ofFields,
    Value.get_object, Js.Properties.get_consSome, Properties.get_nil, String.reduceEq, if_true, if_false,
    readField_accountId faithful, Key.readField_map, ContractId.readMessage_map, FileId.readMessage_map,
    readWrapper_string, associations, readMessage_duration, readMessage_timestamp, toLong?_long_field,
    declined]
  rfl

theorem sameMessage_iff (keys : KeyCodec) (update : ContractUpdate) :
    SameMessage noDefaults (update.onWire.makeTransactionData keys) (update.makeTransactionData keys) ↔
      (∀ id ∈ update.contractId, id.evmAddress = none) ∧
        (∀ time ∈ update.expirationTime, Timestamp.toInt time.seconds = time.seconds) ∧
          (∀ key ∈ update.adminKey, key.HasNumbers) ∧ update.declineStakingReward = some true := by
  rw [makeTransactionData, makeTransactionData,
    @Js.sameMessage_iff _ (update.onWire.fields keys) (update.fields keys) rfl (by simp [fields])]
  have declined (field : Option Bool) :
      ((some field.isSome).map fun b => wrapper (.boolean b)).getD (noDefaults "declineReward") =
        (field.map fun b => wrapper (.boolean b)).getD (noDefaults "declineReward") ↔ field = some true := by
    rcases field with _ | (_ | _) <;> simp [wrapper, noDefaults]
  simp only [fields, onWire, List.forall₂_cons, List.Forall₂.nil, map_toProtobuf_onWire,
    FileId.map_toProtobuf_onWire, ContractId.sameContractId_iff, Key.sameKey_iff, sameTimestamp_iff,
    declined, true_and, and_true]

theorem plain_makeTransactionData (keys : KeyCodec) (update : ContractUpdate) :
    (update.makeTransactionData keys).Plain := by
  apply Value.plain_message
  have file := @plain_numbers _ FileId.toProtobuf _ _ _ _ fun _ => rfl
  simp only [fields, List.forall_mem_cons, plain_accountId, Key.plain_field, ContractId.plain_field, file,
    plain_timestamp, plain_duration, plain_long, plain_boolean, plain_string, plain_number, implies_true,
    List.not_mem_nil, false_implies, and_true]

end ContractUpdate

/-! ## Topics -/

structure TopicUpdate where
  topicId : Option TopicId := none
  topicMemo : Option String := none
  submitKey : Option Key := none
  adminKey : Option Key := none
  autoRenewAccountId : Option AccountId := none
  autoRenewPeriod : Option Int := none
  expirationTime : Option Timestamp := none

namespace TopicUpdate

def fields (keys : KeyCodec) (update : TopicUpdate) : List (String × Option Value) :=
  [("topicID", update.topicId.map TopicId.toProtobuf),
    ("adminKey", update.adminKey.map Key.toValue),
    ("submitKey", update.submitKey.map Key.toValue),
    ("memo", update.topicMemo.map fun memo => wrapper (.string memo)),
    ("autoRenewAccount", update.autoRenewAccountId.map (AccountId.toProtobuf keys)),
    ("autoRenewPeriod", update.autoRenewPeriod.map durationMessage),
    ("expirationTime", update.expirationTime.map Timestamp.toProtobuf)]

/-- `_makeTransactionData` -/
def makeTransactionData (keys : KeyCodec) (update : TopicUpdate) : Value := .message (update.fields keys)

/-- `_fromProtobuf` -/
def fromProtobuf (keys : KeyCodec) (decoders : PublicKey.Decoders) (update : Value) :
    Except String TopicUpdate := do
  let adminKey ← Key.readField decoders (update.get "adminKey")
  let submitKey ← Key.readField decoders (update.get "submitKey")
  let autoRenewAccountId ← readField (AccountId.fromProtobuf keys) (update.get "autoRenewAccount")
  .ok {
    topicId := readMessage TopicId.fromProtobuf (update.get "topicID")
    topicMemo := readWrapper Value.toString? (update.get "memo")
    submitKey
    adminKey
    autoRenewAccountId
    autoRenewPeriod := readMessage readDuration (update.get "autoRenewPeriod")
    expirationTime := readMessage Timestamp.fromProtobuf (update.get "expirationTime") }

def onWire (update : TopicUpdate) : TopicUpdate :=
  { update with
    topicId := update.topicId.map TopicId.onWire
    submitKey := update.submitKey.map Key.onWire
    adminKey := update.adminKey.map Key.onWire
    autoRenewAccountId := update.autoRenewAccountId.map AccountId.onWire
    expirationTime := update.expirationTime.map Timestamp.onWire }

variable {keys : KeyCodec}

theorem fromProtobuf_makeTransactionData (faithful : keys.Faithful) (decoders : PublicKey.Decoders)
    (update : TopicUpdate) :
    fromProtobuf keys decoders (update.makeTransactionData keys) = .ok update.onWire := by
  simp only [fromProtobuf, makeTransactionData, fields, Value.message, Properties.ofFields,
    Value.get_object, Js.Properties.get_consSome, Properties.get_nil, String.reduceEq, if_true, if_false,
    readField_accountId faithful, Key.readField_map, TopicId.readMessage_map, readWrapper_string,
    readMessage_duration, readMessage_timestamp]
  rfl

theorem sameMessage_iff (keys : KeyCodec) (update : TopicUpdate) :
    SameMessage noDefaults (update.onWire.makeTransactionData keys) (update.makeTransactionData keys) ↔
      (∀ key ∈ update.adminKey, key.HasNumbers) ∧ (∀ key ∈ update.submitKey, key.HasNumbers) ∧
        ∀ time ∈ update.expirationTime, Timestamp.toInt time.seconds = time.seconds := by
  rw [makeTransactionData, makeTransactionData,
    @Js.sameMessage_iff _ (update.onWire.fields keys) (update.fields keys) rfl (by simp [fields])]
  simp only [fields, onWire, List.forall₂_cons, List.Forall₂.nil, map_toProtobuf_onWire,
    TopicId.map_toProtobuf_onWire, Key.sameKey_iff, sameTimestamp_iff, true_and, and_true]

theorem plain_makeTransactionData (keys : KeyCodec) (update : TopicUpdate) :
    (update.makeTransactionData keys).Plain := by
  apply Value.plain_message
  have topic := @plain_numbers _ TopicId.toProtobuf _ _ _ _ fun _ => rfl
  simp only [fields, List.forall_mem_cons, plain_accountId, Key.plain_field, topic, plain_timestamp,
    plain_duration, plain_string, implies_true, List.not_mem_nil, false_implies, and_true]

end TopicUpdate

/-! ## Files -/

structure FileUpdate where
  fileId : Option FileId := none
  keys : Option (List Key) := none
  expirationTime : Option Timestamp := none
  contents : Option Bytes := none
  fileMemo : Option String := none

namespace FileUpdate

def fields (update : FileUpdate) : List (String × Option Value) :=
  [("fileID", update.fileId.map FileId.toProtobuf),
    ("keys", update.keys.map Key.listMessage),
    ("expirationTime", update.expirationTime.map Timestamp.toProtobuf),
    ("contents", update.contents.map Value.bytes),
    ("memo", update.fileMemo.map fun memo => wrapper (.string memo))]

/-- `_makeTransactionData` -/
def makeTransactionData (update : FileUpdate) : Value := .message update.fields

/-- Contents that are not set are read as empty. -/
def prototype (name : String) : Value := if name = "contents" then .bytes [] else .null

/-- `_fromProtobuf`; the constructor takes no empty memo. -/
def fromProtobuf (decoders : PublicKey.Decoders) (update : Value) : Except String FileUpdate := do
  let keys ← HederaSdk.readField (Key.readList decoders) (update.get "keys")
  .ok {
    fileId := readMessage FileId.fromProtobuf (update.get "fileID")
    keys
    expirationTime := readMessage Timestamp.fromProtobuf (update.get "expirationTime")
    contents := some ((update.read prototype "contents").toBytes?.getD [])
    fileMemo := (readWrapper Value.toString? (update.get "memo")).filter fun memo => memo ≠ "" }

def onWire (update : FileUpdate) : FileUpdate where
  fileId := update.fileId.map FileId.onWire
  keys := update.keys.map (List.map Key.onWire)
  expirationTime := update.expirationTime.map Timestamp.onWire
  contents := some (update.contents.getD [])
  fileMemo := update.fileMemo.filter fun memo => memo ≠ ""

theorem fromProtobuf_makeTransactionData (decoders : PublicKey.Decoders) (update : FileUpdate) :
    fromProtobuf decoders update.makeTransactionData = .ok update.onWire := by
  have contents (field : Option Bytes) :
      ((field.map Value.bytes).getD (prototype "contents")).toBytes?.getD [] = field.getD [] := by
    cases field <;> simp [prototype]
  simp only [fromProtobuf, makeTransactionData, fields, Value.message, Properties.ofFields,
    Value.get_object, Js.Properties.get_consSome, Properties.get_nil, String.reduceEq, if_true, if_false,
    HederaSdk.readField_map (fun _ => rfl) (Key.readList_listMessage decoders), FileId.readMessage_map,
    readMessage_timestamp, readWrapper_string, Value.read, Js.Properties.find?_consSome,
    Properties.find?, Option.or_none, contents]
  rfl

theorem sameMessage_iff (update : FileUpdate) :
    SameMessage prototype update.onWire.makeTransactionData update.makeTransactionData ↔
      (∀ keys ∈ update.keys, ∀ key ∈ keys, key.HasNumbers) ∧
        (∀ time ∈ update.expirationTime, Timestamp.toInt time.seconds = time.seconds) ∧
          update.fileMemo ≠ some "" := by
  rw [makeTransactionData, makeTransactionData,
    @Js.sameMessage_iff _ update.onWire.fields update.fields rfl (by simp [fields])]
  have keys (field : Option (List Key)) :
      ((field.map (List.map Key.onWire)).map Key.listMessage).getD (prototype "keys") =
          (field.map Key.listMessage).getD (prototype "keys") ↔
        ∀ keys ∈ field, ∀ key ∈ keys, key.HasNumbers := by
    cases field <;> simp [Key.listMessage_onWire_iff]
  have contents (field : Option Bytes) :
      ((some (field.getD [])).map Value.bytes).getD (prototype "contents") =
        (field.map Value.bytes).getD (prototype "contents") := by
    cases field <;> simp [prototype]
  have memo (field : Option String) :
      ((field.filter fun memo => memo ≠ "").map fun memo => wrapper (.string memo)).getD (prototype "memo") =
        (field.map fun memo => wrapper (.string memo)).getD (prototype "memo") ↔ field ≠ some "" := by
    cases field with
    | none => simp
    | some memo =>
        by_cases empty : memo = "" <;> simp [Option.filter, empty, wrapper, prototype]
  simp only [fields, onWire, List.forall₂_cons, List.Forall₂.nil, FileId.map_toProtobuf_onWire, keys,
    sameTimestamp_iff, contents, memo, true_and, and_true]

theorem plain_makeTransactionData (update : FileUpdate) : update.makeTransactionData.Plain := by
  apply Value.plain_message
  have file := @plain_numbers _ FileId.toProtobuf _ _ _ _ fun _ => rfl
  simp only [fields, List.forall_mem_cons, file, plain_map Key.plain_listMessage, plain_timestamp,
    plain_map Js.plain_bytes, plain_string, implies_true, List.not_mem_nil, false_implies, and_true]

end FileUpdate

/-! ## Tokens -/

inductive TokenKeyValidation where
  | fullValidation
  | noValidation
  deriving DecidableEq

namespace TokenKeyValidation

def code : TokenKeyValidation → Int
  | .fullValidation => 0
  | .noValidation => 1

/-- `_fromCode` -/
def fromCode (code : Int) : Except String TokenKeyValidation :=
  if code = 0 then .ok .fullValidation
  else if code = 1 then .ok .noValidation
  else .error s!"(BUG) TokenKeyValidation.fromCode() does not handle code: {code}"

theorem fromCode_code (mode : TokenKeyValidation) : fromCode mode.code = .ok mode := by
  cases mode <;> rfl

end TokenKeyValidation

structure TokenUpdate where
  tokenId : Option TokenId := none
  tokenName : Option String := none
  tokenSymbol : Option String := none
  treasuryAccountId : Option AccountId := none
  adminKey : Option Key := none
  kycKey : Option Key := none
  freezeKey : Option Key := none
  wipeKey : Option Key := none
  supplyKey : Option Key := none
  autoRenewAccountId : Option AccountId := none
  expirationTime : Option Timestamp := none
  autoRenewPeriod : Option Int := none
  tokenMemo : Option String := none
  feeScheduleKey : Option Key := none
  pauseKey : Option Key := none
  metadataKey : Option Key := none
  metadata : Option Bytes := none
  keyVerificationMode : Option TokenKeyValidation := some .fullValidation

namespace TokenUpdate

def fields (keys : KeyCodec) (update : TokenUpdate) : List (String × Option Value) :=
  [("token", update.tokenId.map TokenId.toProtobuf),
    ("name", update.tokenName.map Value.string),
    ("symbol", update.tokenSymbol.map Value.string),
    ("treasury", update.treasuryAccountId.map (AccountId.toProtobuf keys)),
    ("adminKey", update.adminKey.map Key.toValue),
    ("kycKey", update.kycKey.map Key.toValue),
    ("freezeKey", update.freezeKey.map Key.toValue),
    ("pauseKey", update.pauseKey.map Key.toValue),
    ("wipeKey", update.wipeKey.map Key.toValue),
    ("supplyKey", update.supplyKey.map Key.toValue),
    ("autoRenewAccount", update.autoRenewAccountId.map (AccountId.toProtobuf keys)),
    ("expiry", update.expirationTime.map Timestamp.toProtobuf),
    ("autoRenewPeriod", update.autoRenewPeriod.map durationMessage),
    ("memo", update.tokenMemo.map fun memo => wrapper (.string memo)),
    ("feeScheduleKey", update.feeScheduleKey.map Key.toValue),
    ("metadataKey", update.metadataKey.map Key.toValue),
    ("metadata", update.metadata.map fun data => wrapper (.bytes data)),
    ("keyVerificationMode", update.keyVerificationMode.map fun mode => .number mode.code)]

/-- `_makeTransactionData` -/
def makeTransactionData (keys : KeyCodec) (update : TokenUpdate) : Value := .message (update.fields keys)

/-- The scalars of the message are read as empty texts and as 0. -/
def prototype (name : String) : Value :=
  if name = "name" then .string ""
  else if name = "symbol" then .string ""
  else if name = "keyVerificationMode" then .number 0
  else .null

/-- `_fromProtobuf`; the name and the symbol are asked for as own properties. -/
def fromProtobuf (keys : KeyCodec) (decoders : PublicKey.Decoders) (update : Value) :
    Except String TokenUpdate := do
  let treasuryAccountId ← readField (AccountId.fromProtobuf keys) (update.get "treasury")
  let adminKey ← Key.readField decoders (update.get "adminKey")
  let kycKey ← Key.readField decoders (update.get "kycKey")
  let freezeKey ← Key.readField decoders (update.get "freezeKey")
  let wipeKey ← Key.readField decoders (update.get "wipeKey")
  let supplyKey ← Key.readField decoders (update.get "supplyKey")
  let autoRenewAccountId ← readField (AccountId.fromProtobuf keys) (update.get "autoRenewAccount")
  let feeScheduleKey ← Key.readField decoders (update.get "feeScheduleKey")
  let pauseKey ← Key.readField decoders (update.get "pauseKey")
  let metadataKey ← Key.readField decoders (update.get "metadataKey")
  let keyVerificationMode ← TokenKeyValidation.fromCode
    ((update.read prototype "keyVerificationMode").toNumber?.getD 0)
  .ok {
    tokenId := readMessage TokenId.fromProtobuf (update.get "token")
    tokenName := (update.get "name").toString?
    tokenSymbol := (update.get "symbol").toString?
    treasuryAccountId
    adminKey
    kycKey
    freezeKey
    wipeKey
    supplyKey
    autoRenewAccountId
    expirationTime := readMessage Timestamp.fromProtobuf (update.get "expiry")
    autoRenewPeriod := readMessage readDuration (update.get "autoRenewPeriod")
    tokenMemo := readWrapper Value.toString? (update.get "memo")
    feeScheduleKey
    pauseKey
    metadataKey
    metadata := readWrapper Value.toBytes? (update.get "metadata")
    keyVerificationMode := some keyVerificationMode }

def onWire (update : TokenUpdate) : TokenUpdate :=
  { update with
    tokenId := update.tokenId.map TokenId.onWire
    treasuryAccountId := update.treasuryAccountId.map AccountId.onWire
    adminKey := update.adminKey.map Key.onWire
    kycKey := update.kycKey.map Key.onWire
    freezeKey := update.freezeKey.map Key.onWire
    wipeKey := update.wipeKey.map Key.onWire
    supplyKey := update.supplyKey.map Key.onWire
    autoRenewAccountId := update.autoRenewAccountId.map AccountId.onWire
    expirationTime := update.expirationTime.map Timestamp.onWire
    feeScheduleKey := update.feeScheduleKey.map Key.onWire
    pauseKey := update.pauseKey.map Key.onWire
    metadataKey := update.metadataKey.map Key.onWire
    keyVerificationMode := some (update.keyVerificationMode.getD .fullValidation) }

/-- Every key that is set. -/
def keyFields (update : TokenUpdate) : List (Option Key) :=
  [update.adminKey, update.kycKey, update.freezeKey, update.pauseKey, update.wipeKey, update.supplyKey,
    update.feeScheduleKey, update.metadataKey]

variable {keys : KeyCodec}

theorem fromProtobuf_makeTransactionData (faithful : keys.Faithful) (decoders : PublicKey.Decoders)
    (update : TokenUpdate) :
    fromProtobuf keys decoders (update.makeTransactionData keys) = .ok update.onWire := by
  have mode (field : Option TokenKeyValidation) :
      TokenKeyValidation.fromCode (((field.map fun mode => Value.number mode.code).getD
        (prototype "keyVerificationMode")).toNumber?.getD 0) = .ok (field.getD .fullValidation) := by
    cases field with
    | none => rfl
    | some mode => exact mode.fromCode_code
  simp only [fromProtobuf, makeTransactionData, fields, Value.message, Properties.ofFields,
    Value.get_object, Js.Properties.get_consSome, Properties.get_nil, String.reduceEq, if_true, if_false,
    readField_accountId faithful, Key.readField_map, TokenId.readMessage_map, readWrapper_string,
    readWrapper_bytes, toString?_string_field, readMessage_duration, readMessage_timestamp, Value.read,
    Js.Properties.find?_consSome, Properties.find?, Option.or_none, mode]
  rfl

theorem sameMessage_iff (keys : KeyCodec) (update : TokenUpdate) :
    SameMessage prototype (update.onWire.makeTransactionData keys) (update.makeTransactionData keys) ↔
      (∀ field ∈ update.keyFields, ∀ key ∈ field, key.HasNumbers) ∧
        ∀ time ∈ update.expirationTime, Timestamp.toInt time.seconds = time.seconds := by
  rw [makeTransactionData, makeTransactionData,
    @Js.sameMessage_iff _ (update.onWire.fields keys) (update.fields keys) rfl (by simp [fields])]
  have mode (field : Option TokenKeyValidation) :
      ((some (field.getD .fullValidation)).map fun mode => Value.number mode.code).getD
          (prototype "keyVerificationMode") =
        (field.map fun mode => Value.number mode.code).getD (prototype "keyVerificationMode") := by
    cases field <;> rfl
  simp only [fields, onWire, keyFields, List.forall₂_cons, List.Forall₂.nil, map_toProtobuf_onWire,
    TokenId.map_toProtobuf_onWire, Key.sameKey_iff, sameTimestamp_iff, mode, List.forall_mem_cons,
    List.not_mem_nil, false_implies, implies_true, true_and, and_true]
  tauto

theorem plain_makeTransactionData (keys : KeyCodec) (update : TokenUpdate) :
    (update.makeTransactionData keys).Plain := by
  apply Value.plain_message
  have token := @plain_numbers _ TokenId.toProtobuf _ _ _ _ fun _ => rfl
  have text := @plain_map _ Value.string fun _ => trivial
  have mode := @plain_map _ (fun mode : TokenKeyValidation => Value.number mode.code) fun _ => trivial
  simp only [fields, List.forall_mem_cons, plain_accountId, Key.plain_field, token, text, mode,
    plain_timestamp, plain_duration, plain_string, plain_bytes, implies_true, List.not_mem_nil,
    false_implies, and_true]

end TokenUpdate

end HederaSdk
