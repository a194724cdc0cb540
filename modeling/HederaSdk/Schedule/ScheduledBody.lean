import HederaSdk.Transaction.WholeCopies
import HederaSdk.Update.Fields

/-!
# Bodies of scheduled transactions

The body of a scheduled transaction has the fee, the memo and the data of the transaction, and neither
an id nor a node. To read it, it is encoded as a body of its own, which the registry loads.
-/

namespace HederaSdk

open Js (Value Properties SameMessage)

/-- The types that a scheduled body has a field for. -/
def DataCase.isSchedulable : DataCase → Bool
  | .cryptoAddLiveHash | .cryptoDeleteLiveHash | .ethereumTransaction | .scheduleCreate | .scheduleSign => false
  | _ => true

structure ScheduledBody where
  transactionFee : Int
  memo : String
  dataCase : DataCase
  data : Value

/-- The body as a decoder returns it; data without a field is not written. -/
def ScheduledBody.toObject (body : ScheduledBody) : Value :=
  .object <|
    .cons "transactionFee" (.long body.transactionFee true) <|
    .cons "memo" (.string body.memo) <|
    .consSome body.dataCase.name (if body.dataCase.isSchedulable then some body.data else none) .nil

/-- A fee that is not set is the default of the transaction. -/
def Transaction.scheduledFee (tx : Transaction) : Int := tx.maxTransactionFee.getD tx.defaultMaxTransactionFee

/-- `_getScheduledTransactionBody` -/
def Transaction.getScheduledTransactionBody (proto : Proto) (tx : Transaction) : ScheduledBody where
  transactionFee := tx.scheduledFee
  memo := tx.transactionMemo
  dataCase := tx.dataCase
  data := tx.makeTransactionData proto

/-- The encoder of bodies also takes a decoded scheduled body, whose fields have the same names. -/
structure ScheduleProto extends Proto where
  encodeObject : Value → Bytes

structure ScheduleProto.Faithful (proto : ScheduleProto) : Prop extends proto.toProto.Faithful where
  object : ∀ body : ScheduledBody, proto.decodeBody (proto.encodeObject body.toObject) = .ok body.toObject
  objectCase : ∀ body : ScheduledBody, body.dataCase.isSchedulable = true →
    proto.dataCase body.toObject = some body.dataCase.name
  /-- A scheduled body has a memo, so it takes at least a byte. -/
  encodeObject_ne : ∀ body : ScheduledBody, proto.encodeObject body.toObject ≠ []

namespace ScheduledBody

variable (proto : ScheduleProto) (types : Transaction.TypeReaders) (body : ScheduledBody)

/-- The body in a signed transaction that nobody signed. -/
def signed (body : Value) : SignedTransaction where
  bodyBytes := proto.encodeObject body
  sigMap := none

/-- `Transaction.fromBytes` of a list that has the encoded body. -/
def load (body : Value) : Except JsError Transaction :=
  if body.isNullish then .error (.typeError "Cannot read properties of null (reading 'transactionID')")
  else Transaction.fromBytes proto.toProto types (proto.encodeList [proto.wrap (signed proto body)])

/-! ## Fields -/

theorem get_transactionFee : body.toObject.get "transactionFee" = .long body.transactionFee true := rfl

theorem get_memo : body.toObject.get "memo" = .string body.memo := by
  simp [toObject]

theorem get_data (schedulable : body.dataCase.isSchedulable = true) :
    body.toObject.get body.dataCase.name = body.data := by
  have own := body.dataCase.name_ne
  simp only [List.forall_mem_cons] at own
  obtain ⟨_, _, fee, _, memo, _⟩ := own
  simp [toObject, schedulable, Properties.consSome, fee, memo]

theorem get_missing {name : String} (fee : name ≠ "transactionFee") (memo : name ≠ "memo")
    (other : name ≠ body.dataCase.name) : body.toObject.get name = .undefined := by
  rw [toObject, Value.get_object, Properties.get_cons, if_neg fee.symm, Properties.get_cons, if_neg memo.symm,
    Properties.get_consSome, if_neg other.symm]
  rfl

theorem get_id : body.toObject.get "transactionID" = .undefined ∧
    body.toObject.get "nodeAccountID" = .undefined ∧
    body.toObject.get "transactionValidDuration" = .undefined := by
  have own := body.dataCase.name_ne
  simp only [List.forall_mem_cons] at own
  obtain ⟨id, node, _, duration, _⟩ := own
  exact ⟨body.get_missing (by decide) (by decide) id, body.get_missing (by decide) (by decide) node,
    body.get_missing (by decide) (by decide) duration⟩

/-! ## Loading -/

/-- What is read of the list: the body, without ids or nodes. -/
def parsed : Transaction.Parsed where
  signedTransactions := [signed proto body.toObject]
  bodies := [body.toObject]

variable {proto}

theorem noteAll_wrap (faithful : proto.Faithful) (schedulable : body.dataCase.isSchedulable = true) :
    Transaction.noteAll proto.toProto [proto.wrap (signed proto body.toObject)] {} =
      .ok (body.parsed proto) := by
  obtain ⟨id, node, _⟩ := body.get_id
  have filled : (proto.wrap (signed proto body.toObject)).signedTransactionBytes ≠ [] :=
    faithful.encodeSigned_ne _ (faithful.encodeObject_ne body)
  have bare : (proto.wrap (signed proto body.toObject)).bodyBytes = [] := rfl
  have decoded : proto.decodeSigned (proto.wrap (signed proto body.toObject)).signedTransactionBytes =
      .ok (signed proto body.toObject) := faithful.signed _
  have noted : ∀ parsed : Transaction.Parsed, Transaction.noteBody proto.toProto (proto.encodeObject body.toObject)
      parsed = .ok { parsed with bodies := parsed.bodies ++ [body.toObject] } := by
    intro parsed
    rw [Transaction.noteBody, faithful.object]
    simp only [bind, Except.bind, Transaction.noteTransactionId, Transaction.noteNodeId, id, node,
      Value.isNullish, faithful.objectCase body schedulable, if_true, Option.isNone_some, Bool.false_eq_true,
      if_false]
  simp only [Transaction.noteAll, Transaction.noteTransaction, Transaction.noteBareBody, bare, if_true,
    Transaction.noteSignedTransaction, if_neg filled, bind, Except.bind, decoded]
  rw [signed, noted]
  rfl

/-- What is loaded into a transaction: the settings of the body. -/
def loadedInto (empty : Transaction) : Transaction :=
  { empty with
    transactions := { list := [some (proto.wrap (signed proto body.toObject))] }
    signedTransactions := { list := [signed proto body.toObject] }
    transactionIds := {}
    nodeAccountIds := {}
    transactionValidDuration := 120
    maxTransactionFee := (some body.transactionFee).filter (· ≠ 0)
    transactionMemo := body.memo }

theorem fromProtobufTransactions_eq (empty : Transaction) :
    Transaction.fromProtobufTransactions proto.toProto empty [proto.wrap (signed proto body.toObject)]
      (body.parsed proto) = .ok (@loadedInto proto body empty) := by
  obtain ⟨_, _, duration⟩ := body.get_id
  have first : Transaction.bodyAt [body.toObject] 0 = body.toObject := rfl
  have fee : Transaction.readTransactionFee body.toObject = (some body.transactionFee).filter (· ≠ 0) := by
    rw [Transaction.readTransactionFee, get_transactionFee, Value.toLong?_long]
  have memo : (body.toObject.get "memo").toString?.getD "" = body.memo := by
    rw [get_memo]
    rfl
  have seconds : Transaction.readValidDuration body.toObject = 120 := by
    rw [Transaction.readValidDuration, duration]
    rfl
  rw [Transaction.fromProtobufTransactions]
  simp only [parsed, List.length_nil, first, fee, memo, seconds]
  rfl

/-- The class in the registry reads the body. -/
theorem load_eq (faithful : proto.Faithful) (schedulable : body.dataCase.isSchedulable = true) :
    load proto types body.toObject = Transaction.readTransaction proto.toProto types body.dataCase
      [proto.wrap (signed proto body.toObject)] (body.parsed proto) := by
  have read : Transaction.readList proto.toProto (proto.encodeList [proto.wrap (signed proto body.toObject)]) =
      .ok [proto.wrap (signed proto body.toObject)] := by
    rw [Transaction.readList, faithful.list]
    rfl
  have first : Transaction.bodyAt (body.parsed proto).bodies 0 = body.toObject := rfl
  rw [load, if_neg (by simp [toObject, Value.isNullish]), Transaction.fromBytes, read]
  simp only [bind, Except.bind, body.noteAll_wrap faithful schedulable, first,
    faithful.objectCase body schedulable, DataCase.ofName?_name]

theorem load_plain (faithful : proto.Faithful) (schedulable : body.dataCase.isSchedulable = true)
    (whole : body.dataCase ≠ .fileAppend ∧ body.dataCase ≠ .consensusSubmitMessage) :
    load proto types body.toObject = (types.readData body.dataCase body.toObject).map fun value =>
      @loadedInto proto body
        { data := .plain body.dataCase value
          defaultMaxTransactionFee := types.defaultMaxTransactionFee body.dataCase } := by
  have first : Transaction.bodyAt (body.parsed proto).bodies 0 = body.toObject := rfl
  rw [body.load_eq types faithful schedulable, Transaction.readTransaction_whole whole, first]
  simp only [bind, Except.bind, body.fromProtobufTransactions_eq]
  cases types.readData body.dataCase body.toObject <;> rfl

/-- An append that is read of one body: its contents are one chunk. -/
def loadedAppend (fileId : Option Value) (contents : Bytes) : FileAppend where
  fileId := fileId
  contents := some contents
  maxChunks := 1
  chunkSize := Transaction.readChunkSize contents.length

theorem load_fileAppend (faithful : proto.Faithful) {fileId : Option Value} {contents : Option Bytes}
    (type : body.dataCase = .fileAppend) (set : ∀ value ∈ fileId, value.isNullish = false)
    (shows : body.data = .object (.consSome "fileID" fileId (.consSome "contents" (contents.map Value.bytes) .nil))) :
    load proto types body.toObject = .ok (@loadedInto proto body
      { data := .fileAppend (loadedAppend fileId (contents.getD []))
        defaultMaxTransactionFee := 500000000 }) := by
  have schedulable : body.dataCase.isSchedulable = true := by rw [type]; rfl
  have message := body.get_data schedulable
  rw [type, shows] at message
  have name : DataCase.fileAppend.name = "fileAppend" := rfl
  rw [name] at message
  have read : Transaction.readFileAppend (body.parsed proto) =
      .ok (loadedAppend fileId (contents.getD [])) := by
    have first : Transaction.bodyAt [body.toObject] 0 = body.toObject := rfl
    have ids : (body.parsed proto).transactionIds = [] ∧ (body.parsed proto).nodeIds = [] ∧
        (body.parsed proto).bodies = [body.toObject] := ⟨rfl, rfl, rfl⟩
    have file : Transaction.readOptional (fileId.getD .undefined) = fileId := by
      cases fileId with
      | none => rfl
      | some value => simp [Transaction.readOptional, set value rfl]
    have data : ((contents.map Value.bytes).getD .undefined).toBytes?.getD [] = contents.getD [] := by
      cases contents <;> simp
    simp only [Transaction.readFileAppend, first, ids, message, List.length_nil, List.length_singleton,
      Transaction.joinContents, Value.get_object, Properties.get_consSome, Properties.get_nil, bind,
      Except.bind, Except.map, Value.isNullish, List.getElem?_cons_zero, loadedAppend]
    simp [data, file]
  rw [body.load_eq types faithful schedulable, type]
  simp only [Transaction.readTransaction, read, bind, Except.bind, body.fromProtobufTransactions_eq]

theorem load_topicMessage (faithful : proto.Faithful) {topicId : Option Value} {message : Option Bytes}
    (type : body.dataCase = .consensusSubmitMessage) (set : ∀ value ∈ topicId, value.isNullish = false)
    (topic : body.data.get "topicID" = topicId.getD .undefined)
    (text : body.data.get "message" = (message.map Value.bytes).getD .undefined) :
    load proto types body.toObject = .ok (@loadedInto proto body
      { data := .topicMessageSubmit { topicId, message := some (message.getD []) } }) := by
  have schedulable : body.dataCase.isSchedulable = true := by rw [type]; rfl
  have shown := body.get_data schedulable
  rw [type] at shown
  have name : DataCase.consensusSubmitMessage.name = "consensusSubmitMessage" := rfl
  rw [name] at shown
  have first : Transaction.bodyAt (body.parsed proto).bodies 0 = body.toObject := rfl
  have read : Transaction.readTopicMessage (body.parsed proto) =
      { topicId, message := some (message.getD []) } := by
    have named : Transaction.readOptional (topicId.getD .undefined) = topicId := by
      cases topicId with
      | none => rfl
      | some value => simp [Transaction.readOptional, set value rfl]
    have data : ((message.map Value.bytes).getD .undefined).toBytes?.getD [] = message.getD [] := by
      cases message <;> simp
    rw [Transaction.readTopicMessage, first, shown, topic, text, named, data]
  rw [body.load_eq types faithful schedulable, type, Transaction.readTransaction, read]
  exact body.fromProtobufTransactions_eq _

end ScheduledBody

/-! ## Bodies that are built again -/

namespace Transaction

/-- The default of the fee that the class in the registry has. -/
def classFee (types : TypeReaders) : DataCase → Int
  | .fileAppend => 500000000
  | .consensusSubmitMessage => 200000000
  | dataCase => types.defaultMaxTransactionFee dataCase

/-- The scalars of the messages that are written in chunks are read as empty. -/
def messageDefaults (prototype : DataCase → String → Value) : DataCase → String → Value
  | .fileAppend => fun name => if name = "contents" then .bytes [] else .null
  | .consensusSubmitMessage => fun name => if name = "message" then .bytes [] else .null
  | dataCase => prototype dataCase

variable (proto : ScheduleProto) (types : TypeReaders) (prototype : DataCase → String → Value)

/-- The class of a transaction reads the data that the transaction writes. A topic message is read without
the information on its chunks. -/
def KeepsData (tx : Transaction) : Prop :=
  match tx.data with
  | .plain dataCase data => ∃ copy,
      types.readData dataCase (tx.getScheduledTransactionBody proto.toProto).toObject = .ok copy ∧
        SameMessage (prototype dataCase) copy data
  | .fileAppend _ => True
  | .topicMessageSubmit submit => submit.chunkInfo = none ∨ submit.message = none

/-- A transaction of a type that can be scheduled. Only a plain type has a message that stands as it is,
and a message that is written has no null. -/
structure Schedulable (tx : Transaction) : Prop where
  type : tx.dataCase.isSchedulable = true
  whole : ∀ dataCase data, tx.data = .plain dataCase data →
    dataCase ≠ .fileAppend ∧ dataCase ≠ .consensusSubmitMessage
  plain : (tx.makeTransactionData proto.toProto).Plain

end Transaction

/-- Two scheduled bodies have the same type, fee, memo and data. -/
structure SameScheduled (proto : Proto) (prototype : DataCase → String → Value) (body other : Value) : Prop where
  type : proto.dataCase body = proto.dataCase other
  fee : body.get "transactionFee" = other.get "transactionFee"
  memo : body.get "memo" = other.get "memo"
  data : ∀ dataCase : DataCase, proto.dataCase other = some dataCase.name →
    SameMessage (Transaction.messageDefaults prototype dataCase) (body.get dataCase.name)
      (other.get dataCase.name)

section Rebuilt

variable {proto : ScheduleProto} {types : Transaction.TypeReaders} {prototype : DataCase → String → Value}

theorem DataCase.name_inj {c other : DataCase} (same : c.name = other.name) : c = other := by
  have found := congrArg DataCase.ofName? same
  rwa [DataCase.ofName?_name, DataCase.ofName?_name, Option.some.injEq] at found

theorem sameScheduled_iff (faithful : proto.Faithful) {body other : ScheduledBody}
    (type : body.dataCase = other.dataCase) (schedulable : other.dataCase.isSchedulable = true) :
    SameScheduled proto.toProto prototype body.toObject other.toObject ↔
      body.transactionFee = other.transactionFee ∧ body.memo = other.memo ∧
        SameMessage (Transaction.messageDefaults prototype other.dataCase) body.data other.data := by
  have case := faithful.objectCase other schedulable
  have case' := faithful.objectCase body (type ▸ schedulable)
  have shown := other.get_data schedulable
  have shown' := body.get_data (type ▸ schedulable)
  rw [type] at shown' case'
  constructor
  · intro same
    refine ⟨?_, ?_, ?_⟩
    · exact Transaction.long_inj same.fee
    · have memo := same.memo
      rw [body.get_memo, other.get_memo] at memo
      exact Value.string.inj memo
    · have data := same.data other.dataCase case
      rwa [shown, shown'] at data
  · rintro ⟨fee, memo, data⟩
    refine ⟨case'.trans case.symm, ?_, ?_, ?_⟩
    · rw [body.get_transactionFee, other.get_transactionFee, fee]
    · rw [body.get_memo, other.get_memo, memo]
    · intro dataCase is
      rw [case, Option.some.injEq] at is
      obtain rfl := DataCase.name_inj is
      rwa [shown, shown']

/-- The fee that is read is the one that was written unless it was 0 and the class has another default. -/
theorem filter_getD_eq_iff (fee default : Int) :
    ((some fee).filter (· ≠ 0)).getD default = fee ↔ (fee = 0 → default = 0) := by
  by_cases zero : fee = 0
  · simp [Option.filter, zero]
  · simp [Option.filter, zero]

theorem chunkOf_readChunkSize (contents : Bytes) :
    chunkOf contents (Transaction.readChunkSize contents.length) 0 = contents := by
  rw [chunkOf, Nat.zero_mul, List.drop_zero]
  cases contents with
  | nil => rfl
  | cons b rest => exact List.take_length

namespace Transaction

variable {tx : Transaction}

/-- A copy with the settings of a body is written with the same memo and type. -/
theorem scheduledBody_loadedInto (body : ScheduledBody) (empty : Transaction) :
    (@ScheduledBody.loadedInto proto body empty).scheduledFee =
        ((some body.transactionFee).filter (· ≠ 0)).getD empty.defaultMaxTransactionFee ∧
      (@ScheduledBody.loadedInto proto body empty).transactionMemo = body.memo ∧
      (@ScheduledBody.loadedInto proto body empty).dataCase = empty.dataCase := ⟨rfl, rfl, rfl⟩

/-- The body of the copy that is loaded is the body that was written. -/
def Rebuilds (proto : ScheduleProto) (types : TypeReaders) (prototype : DataCase → String → Value)
    (body : ScheduledBody) : Prop :=
  ∃ copy : Transaction, ScheduledBody.load proto types body.toObject = .ok copy ∧
    SameScheduled proto.toProto prototype (copy.getScheduledTransactionBody proto.toProto).toObject body.toObject

theorem rebuilds_iff_of_load (faithful : proto.Faithful) {body : ScheduledBody}
    (schedulable : body.dataCase.isSchedulable = true) {empty : Transaction}
    (loads : ScheduledBody.load proto types body.toObject =
      .ok (@ScheduledBody.loadedInto proto body empty)) (type : empty.dataCase = body.dataCase)
    (fee : empty.defaultMaxTransactionFee = classFee types body.dataCase) :
    Rebuilds proto types prototype body ↔
      (body.transactionFee = 0 → classFee types body.dataCase = 0) ∧
        SameMessage (messageDefaults prototype body.dataCase)
          ((@ScheduledBody.loadedInto proto body empty).makeTransactionData proto.toProto) body.data := by
  have same := @sameScheduled_iff proto prototype faithful
    ((@ScheduledBody.loadedInto proto body empty).getScheduledTransactionBody proto.toProto) body type schedulable
  have fees := filter_getD_eq_iff body.transactionFee (classFee types body.dataCase)
  rw [← fees, ← fee]
  constructor
  · rintro ⟨copy, read, kept⟩
    obtain rfl := Except.ok.inj (loads.symm.trans read)
    obtain ⟨feeKept, _, data⟩ := same.mp kept
    exact ⟨feeKept, data⟩
  · rintro ⟨feeKept, data⟩
    exact ⟨_, loads, same.mpr ⟨feeKept, rfl, data⟩⟩

theorem messageDefaults_of_whole {dataCase : DataCase}
    (whole : dataCase ≠ .fileAppend ∧ dataCase ≠ .consensusSubmitMessage) :
    messageDefaults prototype dataCase = prototype dataCase ∧
      classFee types dataCase = types.defaultMaxTransactionFee dataCase := by
  obtain ⟨noFile, noTopic⟩ := whole
  cases dataCase <;> first | exact ⟨rfl, rfl⟩ | exact absurd rfl noFile | exact absurd rfl noTopic

/-- A field of a message without nulls is set when it is there. -/
theorem isNullish_of_plain {name : String} {field : Option Value} {rest : Properties}
    (plain : (Value.object (.consSome name field rest)).Plain) :
    ∀ value ∈ field, value.isNullish = false := by
  rintro value rfl
  cases value with
  | undefined => exact absurd plain.1 id
  | null => exact absurd plain.1 id
  | _ => rfl

theorem rebuilds_plain (faithful : proto.Faithful) (schedulable : Schedulable proto tx) {dataCase : DataCase}
    {message : Value} (data : tx.data = .plain dataCase message) :
    Rebuilds proto types prototype (tx.getScheduledTransactionBody proto.toProto) ↔
      (tx.scheduledFee = 0 → classFee types tx.dataCase = 0) ∧ KeepsData proto types prototype tx := by
  obtain rfl : tx.dataCase = dataCase := by rw [Transaction.dataCase, data]
  have whole := schedulable.whole tx.dataCase message data
  obtain ⟨defaults, fee⟩ := @messageDefaults_of_whole types prototype tx.dataCase whole
  have shows : tx.makeTransactionData proto.toProto = message := by rw [makeTransactionData, data]
  have loads := (tx.getScheduledTransactionBody proto.toProto).load_plain types faithful schedulable.type whole
  have keeps : KeepsData proto types prototype tx ↔ ∃ copy, types.readData tx.dataCase
      (tx.getScheduledTransactionBody proto.toProto).toObject = .ok copy ∧
        SameMessage (prototype tx.dataCase) copy message := by rw [KeepsData, data]
  rw [keeps]
  cases read : types.readData tx.dataCase (tx.getScheduledTransactionBody proto.toProto).toObject with
  | error e =>
      have failed : types.readData (tx.getScheduledTransactionBody proto.toProto).dataCase
        (tx.getScheduledTransactionBody proto.toProto).toObject = .error e := read
      rw [failed, Except.map] at loads
      refine iff_of_false ?_ ?_
      · rintro ⟨copy, loaded, _⟩
        cases loads.symm.trans loaded
      · rintro ⟨_, copy, found, _⟩
        cases found
  | ok copy =>
      have done : types.readData (tx.getScheduledTransactionBody proto.toProto).dataCase
        (tx.getScheduledTransactionBody proto.toProto).toObject = .ok copy := read
      rw [done, Except.map] at loads
      refine (rebuilds_iff_of_load faithful schedulable.type loads rfl fee.symm).trans (and_congr_right fun _ => ?_)
      have type : (tx.getScheduledTransactionBody proto.toProto).dataCase = tx.dataCase := rfl
      have written : (tx.getScheduledTransactionBody proto.toProto).data = message := shows
      rw [type, written, defaults]
      constructor
      · intro same
        exact ⟨copy, rfl, same⟩
      · rintro ⟨_, ⟨⟩, same⟩
        exact same

theorem rebuilds_fileAppend (faithful : proto.Faithful) (schedulable : Schedulable proto tx) {append : FileAppend}
    (data : tx.data = .fileAppend append) :
    Rebuilds proto types prototype (tx.getScheduledTransactionBody proto.toProto) ↔
      (tx.scheduledFee = 0 → classFee types tx.dataCase = 0) ∧ KeepsData proto types prototype tx := by
  have type : tx.dataCase = .fileAppend := by rw [Transaction.dataCase, data]
  obtain ⟨contents, chunk⟩ : ∃ contents, append.contents.map (fun contents =>
      chunkOf contents append.chunkSize tx.transactionIds.index) = contents := ⟨_, rfl⟩
  have shows : tx.makeTransactionData proto.toProto =
      .object (.consSome "fileID" append.fileId (.consSome "contents" (contents.map Value.bytes) .nil)) := by
    rw [makeTransactionData, data, ← chunk, Option.map_map]
    rfl
  have plain := schedulable.plain
  rw [shows] at plain
  have loads := (tx.getScheduledTransactionBody proto.toProto).load_fileAppend types faithful type
    (isNullish_of_plain plain) shows
  have fee : classFee types (tx.getScheduledTransactionBody proto.toProto).dataCase = 500000000 := by
    change classFee types tx.dataCase = _
    rw [type]
    rfl
  refine (rebuilds_iff_of_load faithful schedulable.type loads type.symm fee.symm).trans (and_congr_right fun _ => ?_)
  refine iff_of_true ?_ (by rw [KeepsData, data]; trivial)
  have written : (tx.getScheduledTransactionBody proto.toProto).data = _ := shows
  have copied : (@ScheduledBody.loadedInto proto (tx.getScheduledTransactionBody proto.toProto)
      { data := .fileAppend (ScheduledBody.loadedAppend append.fileId (contents.getD []))
        defaultMaxTransactionFee := 500000000 }).makeTransactionData proto.toProto =
          .object (.consSome "fileID" append.fileId (.consSome "contents" (some (.bytes (contents.getD []))) .nil)) := by
    have chunk := chunkOf_readChunkSize (contents.getD [])
    simp only [makeTransactionData, ScheduledBody.loadedInto, ScheduledBody.loadedAppend, Option.map_some, chunk]
  rw [written, copied]
  apply (@Js.sameMessage_iff _ [("fileID", append.fileId), ("contents", some (.bytes (contents.getD [])))]
    [("fileID", append.fileId), ("contents", contents.map Value.bytes)] rfl (by simp)).mpr
  have defaults : messageDefaults prototype (tx.getScheduledTransactionBody proto.toProto).dataCase =
      messageDefaults prototype .fileAppend := congrArg _ type
  rw [defaults]
  cases contents <;> simp [messageDefaults]

/-- What is written of a topic message, with the information on its chunks when both are set. -/
theorem exists_topicMessage (proto : Proto) {submit : TopicMessage} (data : tx.data = .topicMessageSubmit submit) :
    ∃ (message : Option Bytes) (info : Option Value),
      tx.makeTransactionData proto = .object (.consSome "topicID" submit.topicId
        (.consSome "message" (message.map Value.bytes) (.consSome "chunkInfo" info .nil))) ∧
      (info.getD .null = .null ↔ submit.chunkInfo = none ∨ submit.message = none) := by
  obtain ⟨topicId, message, maxChunks, chunkSize, chunkInfo⟩ := submit
  rw [makeTransactionData, data]
  cases chunkInfo with
  | none => exact ⟨message, none, rfl, by simp⟩
  | some chunk =>
      cases message with
      | none => exact ⟨none, none, rfl, by simp⟩
      | some message =>
          exact ⟨some _, some (chunk.toProtobuf proto.keys), rfl, by simp [ChunkInfo.toProtobuf]⟩

theorem rebuilds_topicMessage (faithful : proto.Faithful) (schedulable : Schedulable proto tx)
    {submit : TopicMessage} (data : tx.data = .topicMessageSubmit submit) :
    Rebuilds proto types prototype (tx.getScheduledTransactionBody proto.toProto) ↔
      (tx.scheduledFee = 0 → classFee types tx.dataCase = 0) ∧ KeepsData proto types prototype tx := by
  have type : tx.dataCase = .consensusSubmitMessage := by rw [Transaction.dataCase, data]
  obtain ⟨message, info, shows, chunked⟩ := exists_topicMessage proto.toProto data
  have plain := schedulable.plain
  rw [shows] at plain
  have written : (tx.getScheduledTransactionBody proto.toProto).data = _ := shows
  have topic : (tx.getScheduledTransactionBody proto.toProto).data.get "topicID" =
      submit.topicId.getD .undefined := by
    rw [written]
    simp [Properties.get_consSome]
  have text : (tx.getScheduledTransactionBody proto.toProto).data.get "message" =
      (message.map Value.bytes).getD .undefined := by
    rw [written]
    simp [Properties.get_consSome]
  have loads := (tx.getScheduledTransactionBody proto.toProto).load_topicMessage types faithful type
    (isNullish_of_plain plain) topic text
  have fee : classFee types (tx.getScheduledTransactionBody proto.toProto).dataCase = 200000000 := by
    change classFee types tx.dataCase = _
    rw [type]
    rfl
  refine (rebuilds_iff_of_load faithful schedulable.type loads type.symm fee.symm).trans (and_congr_right fun _ => ?_)
  rw [written, KeepsData, data]
  refine (@Js.sameMessage_iff _ [("topicID", submit.topicId), ("message", some (.bytes (message.getD []))),
    ("chunkInfo", none)] [("topicID", submit.topicId), ("message", message.map Value.bytes),
      ("chunkInfo", info)] rfl (by simp)).trans ?_
  have defaults : messageDefaults prototype (tx.getScheduledTransactionBody proto.toProto).dataCase =
      messageDefaults prototype .consensusSubmitMessage := congrArg _ type
  rw [defaults]
  change _ ↔ submit.chunkInfo = none ∨ submit.message = none
  rw [← chunked]
  cases message <;> simp [messageDefaults, eq_comm]

/-- The body of a scheduled transaction is built again from its copy exactly when the class reads the data,
and a fee of 0 is the default. -/
theorem rebuilds_iff (faithful : proto.Faithful) (schedulable : Schedulable proto tx) :
    Rebuilds proto types prototype (tx.getScheduledTransactionBody proto.toProto) ↔
      (tx.scheduledFee = 0 → classFee types tx.dataCase = 0) ∧ KeepsData proto types prototype tx := by
  cases data : tx.data with
  | plain dataCase message => exact rebuilds_plain faithful schedulable data
  | fileAppend append => exact rebuilds_fileAppend faithful schedulable data
  | topicMessageSubmit submit => exact rebuilds_topicMessage faithful schedulable data

end Transaction

end Rebuilt

end HederaSdk
