import HederaSdk.Schedule.ScheduledBody
import HederaSdk.Transaction.PrefixProto
import HederaSdk.Update.Copies

/-!
# Schedules

A schedule is written with the body of the transaction that it holds. It is read through the options of
its constructor, which has no place for the expiration time and for the flag to wait for it.
-/

namespace HederaSdk

open Js (Value Properties SameMessage)
open Transaction (TypeReaders)

structure ScheduleCreate where
  adminKey : Option Key := none
  scheduledTransaction : Option Transaction := none
  payerAccountId : Option AccountId := none
  scheduleMemo : Option String := none
  expirationTime : Option Timestamp := none
  waitForExpiry : Option Bool := none

namespace ScheduleCreate

variable (proto : ScheduleProto) (types : TypeReaders) (prototype : DataCase → String → Value)

/-! ## Writing -/

/-- The fields besides the scheduled body. -/
def settings (keys : KeyCodec) (create : ScheduleCreate) : List (String × Option Value) :=
  [("memo", create.scheduleMemo.map Value.string),
    ("adminKey", create.adminKey.map Key.toValue),
    ("payerAccountID", create.payerAccountId.map (AccountId.toProtobuf keys)),
    ("expirationTime", create.expirationTime.map Timestamp.toProtobuf),
    ("waitForExpiry", create.waitForExpiry.map Value.boolean)]

/-- `_makeTransactionData` -/
def makeTransactionData (create : ScheduleCreate) : Value :=
  .message (("scheduledTransactionBody", create.scheduledTransaction.map fun tx =>
    (tx.getScheduledTransactionBody proto.toProto).toObject) :: create.settings proto.keys)

/-- A memo that is not set is read as empty, a flag as not set. -/
def defaults (name : String) : Value :=
  if name = "memo" then .string "" else if name = "waitForExpiry" then .boolean false else .null

/-! ## Reading -/

/-- The options of the constructor. -/
structure Props where
  adminKey : Option Key
  payerAccountID : Option AccountId
  scheduleMemo : Option String
  expirationTime : Option Timestamp
  waitForExpiry : Option Bool

/-- The constructor, which takes three of its options. -/
def ofProps (props : Props) : ScheduleCreate where
  adminKey := props.adminKey
  payerAccountId := props.payerAccountID
  scheduleMemo := props.scheduleMemo

def readProps (keys : KeyCodec) (decoders : PublicKey.Decoders) (create : Value) : Except String Props := do
  let adminKey ← Key.readField decoders (create.get "adminKey")
  let payerAccountID ← readField (AccountId.fromProtobuf keys) (create.get "payerAccountID")
  .ok {
    adminKey
    payerAccountID
    scheduleMemo := (create.read defaults "memo").toString?
    waitForExpiry := (create.read defaults "waitForExpiry").toBool?
    expirationTime := readMessage Timestamp.fromProtobuf (create.get "expirationTime") }

/-- `_fromProtobuf` -/
def fromProtobuf (create : Value) : Except JsError ScheduleCreate := do
  let props ← (readProps proto.keys proto.decoders create).mapError JsError.error
  let scheduledTransaction ← ScheduledBody.load proto types (create.get "scheduledTransactionBody")
  .ok { ofProps props with scheduledTransaction := some scheduledTransaction }

/-- The registry with the class of schedules. -/
def readers : TypeReaders where
  readData dataCase body :=
    match dataCase with
    | .scheduleCreate => (fromProtobuf proto types (body.get "scheduleCreate")).map (makeTransactionData proto)
    | dataCase => types.readData dataCase body
  defaultMaxTransactionFee
    | .scheduleCreate => 500000000
    | dataCase => types.defaultMaxTransactionFee dataCase

/-! ## Copies -/

/-- Two messages of schedules that no reading tells apart. -/
structure SameSchedule (message other : Value) : Prop where
  settings : ∀ name, name ≠ "scheduledTransactionBody" →
    message.read defaults name = other.read defaults name
  scheduled : SameScheduled proto.toProto prototype (message.get "scheduledTransactionBody")
    (other.get "scheduledTransactionBody")

/-- The copy that is read of the bytes makes the same data. -/
def KeepsSchedule (bytes : Bytes) (create : ScheduleCreate) : Prop :=
  ∃ copy data, Transaction.fromBytes proto.toProto (readers proto types) bytes = .ok copy ∧
    copy.data = .plain .scheduleCreate data ∧
    SameSchedule proto prototype data (create.makeTransactionData proto)

/-- What is set of a schedule is read as it was written: nothing waits for an expiration time, contract ids
in the key go by number, a scheduled fee of 0 is the default of its type, and the class of the scheduled
transaction reads its own data. -/
structure IsKept (tx : Transaction) (create : ScheduleCreate) : Prop where
  keys : ∀ key ∈ create.adminKey, key.HasNumbers
  time : create.expirationTime = none
  flag : create.waitForExpiry ≠ some true
  fee : tx.scheduledFee = 0 → Transaction.classFee types tx.dataCase = 0
  data : Transaction.KeepsData proto types prototype tx

section Reading

variable {proto types prototype} {create : ScheduleCreate} {tx : Transaction}

/-- What is read of the settings. -/
def onWire (create : ScheduleCreate) : Props where
  adminKey := create.adminKey.map Key.onWire
  payerAccountID := create.payerAccountId.map AccountId.onWire
  scheduleMemo := some (create.scheduleMemo.getD "")
  expirationTime := create.expirationTime.map Timestamp.onWire
  waitForExpiry := some (create.waitForExpiry.getD false)

theorem readProps_makeTransactionData (faithful : proto.keys.Faithful) (create : ScheduleCreate) :
    readProps proto.keys proto.decoders (create.makeTransactionData proto) = .ok create.onWire := by
  have memo (field : Option String) :
      ((field.map Value.string).getD (defaults "memo")).toString? = some (field.getD "") := by
    cases field <;> rfl
  have flag (field : Option Bool) :
      ((field.map Value.boolean).getD (defaults "waitForExpiry")).toBool? = some (field.getD false) := by
    cases field <;> rfl
  simp only [readProps, makeTransactionData, settings, Value.message, Properties.ofFields, Value.get_object,
    Js.Properties.get_consSome, Properties.get_nil, String.reduceEq, if_true, if_false,
    readField_accountId faithful, Key.readField_map, readMessage_timestamp, Value.read,
    Js.Properties.find?_consSome, Properties.find?, Option.or_none, memo, flag]
  rfl

theorem get_scheduledTransactionBody (create : ScheduleCreate) :
    (create.makeTransactionData proto).get "scheduledTransactionBody" =
      (create.scheduledTransaction.map fun tx =>
        (tx.getScheduledTransactionBody proto.toProto).toObject).getD .undefined := by
  rw [makeTransactionData, Value.message, Properties.ofFields, Value.get_object, Properties.get_consSome,
    if_pos rfl]
  cases create.scheduledTransaction with
  | some tx => rfl
  | none =>
      simp [settings, Properties.ofFields, Properties.get_consSome]

/-- The settings of the copy are those of the schedule when nothing waits for an expiration time. -/
theorem sameSettings_iff (create copy : ScheduleCreate) (made : copy.settings proto.keys =
    (ofProps create.onWire).settings proto.keys) :
    (∀ name, name ≠ "scheduledTransactionBody" → (copy.makeTransactionData proto).read defaults name =
        (create.makeTransactionData proto).read defaults name) ↔
      (∀ key ∈ create.adminKey, key.HasNumbers) ∧ create.expirationTime = none ∧
        create.waitForExpiry ≠ some true := by
  have rest (any : ScheduleCreate) (name : String) (other : name ≠ "scheduledTransactionBody") :
      (any.makeTransactionData proto).read defaults name =
        (Value.message (any.settings proto.keys)).read defaults name := by
    simp only [makeTransactionData, Value.message, Value.read, Properties.ofFields,
      Properties.find?_consSome, if_neg other.symm]
  have own (any : ScheduleCreate) : (Value.message (any.settings proto.keys)).read defaults
      "scheduledTransactionBody" = .null := by
    have missing := @Js.Properties.find?_ofFields (any.settings proto.keys) "scheduledTransactionBody"
      (by simp [settings])
    rw [Value.message, Value.read, missing]
    rfl
  have fields : (∀ name, name ≠ "scheduledTransactionBody" → (copy.makeTransactionData proto).read defaults name =
      (create.makeTransactionData proto).read defaults name) ↔
        SameMessage defaults (.message ((ofProps create.onWire).settings proto.keys))
          (.message (create.settings proto.keys)) := by
    rw [← made]
    constructor
    · intro same name
      by_cases scheduled : name = "scheduledTransactionBody"
      · rw [scheduled, own, own]
      · rw [← rest copy name scheduled, ← rest create name scheduled]
        exact same name scheduled
    · intro same name other
      rw [rest copy name other, rest create name other]
      exact same name
  rw [fields, @Js.sameMessage_iff _ ((ofProps create.onWire).settings proto.keys) (create.settings proto.keys)
    rfl (by simp [settings])]
  have memo (field : Option String) : ((some (field.getD "")).map Value.string).getD (defaults "memo") =
      (field.map Value.string).getD (defaults "memo") := by
    cases field <;> rfl
  have time (field : Option Timestamp) : Value.null = (field.map Timestamp.toProtobuf).getD .null ↔
      field = none := by
    cases field <;> simp [Timestamp.toProtobuf]
  have flag (field : Option Bool) : Value.boolean false = (field.map Value.boolean).getD (.boolean false) ↔
      field ≠ some true := by
    rcases field with _ | _ | _ <;> simp
  have timeDefault : defaults "expirationTime" = .null := rfl
  have flagDefault : defaults "waitForExpiry" = .boolean false := rfl
  simp only [settings, ofProps, onWire, List.forall₂_cons, List.Forall₂.nil, map_toProtobuf_onWire,
    Key.sameKey_iff, memo, Option.map_none, Option.getD_none, timeDefault, flagDefault, time, flag, true_and,
    and_true]

theorem plain_makeTransactionData (scheduled : create.scheduledTransaction = some tx)
    (schedulable : Transaction.Schedulable proto tx) : (create.makeTransactionData proto).Plain := by
  apply Value.plain_message
  have body : PlainField (create.scheduledTransaction.map fun tx =>
      (tx.getScheduledTransactionBody proto.toProto).toObject) := by
    rw [scheduled]
    rintro value ⟨⟩
    refine ⟨⟨trivial, trivial, trivial, trivial⟩, trivial, Properties.plain_consSome ?_ trivial⟩
    intro data shown
    split at shown
    · cases shown
      exact schedulable.plain
    · cases shown
  have text := @plain_map _ Value.string fun _ => trivial
  have flag := @plain_map _ Value.boolean fun _ => trivial
  simp only [settings, List.forall_mem_cons, body, text, flag, Key.plain_field, plain_accountId,
    plain_timestamp, implies_true, List.not_mem_nil, false_implies, and_true]

/-- The copy of a schedule makes the same data when the settings are read as they were written and the
scheduled body is built again. -/
theorem keepsSchedule_iff_rebuilds (faithful : proto.Faithful) {base : Transaction}
    (type : base.data = .plain .scheduleCreate (create.makeTransactionData proto))
    (scheduled : create.scheduledTransaction = some tx) (schedulable : Transaction.Schedulable proto tx)
    {sha384 : Bytes → Bytes} {bytes : Bytes} (written : Transaction.Written proto.toProto sha384 base bytes) :
    KeepsSchedule proto types prototype bytes create ↔ ((∀ key ∈ create.adminKey, key.HasNumbers) ∧
      create.expirationTime = none ∧ create.waitForExpiry ≠ some true) ∧
        Transaction.Rebuilds proto types prototype (tx.getScheduledTransactionBody proto.toProto) := by
  obtain ⟨body, loaded, shown, keeps, read⟩ := written.fromBytes faithful.toFaithful (readers proto types) type
    (by decide) (plain_makeTransactionData scheduled schedulable)
  have own : (create.makeTransactionData proto).get "scheduledTransactionBody" =
      (tx.getScheduledTransactionBody proto.toProto).toObject := by
    rw [get_scheduledTransactionBody, scheduled]
    rfl
  have reads : (readers proto types).readData .scheduleCreate body =
      (ScheduledBody.load proto types (tx.getScheduledTransactionBody proto.toProto).toObject).map fun copy =>
        makeTransactionData proto { ofProps create.onWire with scheduledTransaction := some copy } := by
    have name : DataCase.scheduleCreate.name = "scheduleCreate" := rfl
    rw [name] at shown
    simp only [readers, shown, fromProtobuf, readProps_makeTransactionData faithful.keys, own, Except.mapError,
      bind, Except.bind]
    cases ScheduledBody.load proto types (tx.getScheduledTransactionBody proto.toProto).toObject <;> rfl
  rw [reads] at read
  cases load : ScheduledBody.load proto types (tx.getScheduledTransactionBody proto.toProto).toObject with
  | error e =>
      rw [load] at read
      refine iff_of_false ?_ ?_
      · rintro ⟨copy, data, copied, _⟩
        cases read.symm.trans copied
      · rintro ⟨_, copy, found, _⟩
        cases load.symm.trans found
  | ok copy =>
      rw [load] at read
      have same := @sameSettings_iff proto create { ofProps create.onWire with scheduledTransaction := some copy } rfl
      have copied : (makeTransactionData proto { ofProps create.onWire with
          scheduledTransaction := some copy }).get "scheduledTransactionBody" =
            (copy.getScheduledTransactionBody proto.toProto).toObject :=
        get_scheduledTransactionBody _
      rw [← same]
      constructor
      · rintro ⟨found, data, ran, foundData, kept⟩
        obtain rfl := Except.ok.inj (read.symm.trans ran)
        cases (keeps _).symm.trans foundData
        have scheduled := kept.scheduled
        rw [copied, own] at scheduled
        exact ⟨kept.settings, copy, load, scheduled⟩
      · rintro ⟨settings, other, found, scheduled⟩
        obtain rfl := Except.ok.inj (load.symm.trans found)
        refine ⟨_, _, read, keeps _, settings, ?_⟩
        rw [copied, own]
        exact scheduled

end Reading

/-! ## Scheduled updates -/

section Updates

variable {proto types} {tx : Transaction} {update : Update}

/-- The classes of updates read the data of a scheduled update that is kept. -/
theorem keepsData_update (faithful : proto.Faithful) (others : TypeReaders)
    (data : tx.data = .plain update.dataCase (update.makeTransactionData proto.keys))
    (soon : ∀ time ∈ update.expirationTime, time.seconds < 2147483648) :
    Transaction.KeepsData proto (Update.readers proto.toProto others) (fun _ => update.prototype) tx ↔
      update.IsKept := by
  have case : tx.dataCase = update.dataCase := by rw [Transaction.dataCase, data]
  have schedulable : tx.dataCase.isSchedulable = true := by
    rw [case]
    cases update <;> rfl
  have shown := (tx.getScheduledTransactionBody proto.toProto).get_data schedulable
  have made : (tx.getScheduledTransactionBody proto.toProto).data = update.makeTransactionData proto.keys := by
    change tx.makeTransactionData proto.toProto = _
    rw [Transaction.makeTransactionData, data]
  have type : (tx.getScheduledTransactionBody proto.toProto).dataCase = update.dataCase := case
  rw [type, made] at shown
  have reads : (Update.readers proto.toProto others).readData update.dataCase
      (tx.getScheduledTransactionBody proto.toProto).toObject =
        .ok (update.onWire.makeTransactionData proto.keys) := by
    simp only [Update.readers, shown, Update.fromProtobuf_makeTransactionData faithful.keys]
  rw [Transaction.KeepsData, data]
  simp only [reads, Except.ok.injEq, exists_eq_left']
  exact Update.sameMessage_iff proto.keys soon

end Updates

section Samples

def prefixSchedules : ScheduleProto := { prefixProto with encodeObject := writeValue }

theorem prefixSchedules_faithful : prefixSchedules.Faithful where
  toFaithful := prefixProto_faithful
  object body := by
    have found := reads_value body.toObject _ [] (Nat.le_refl _)
    rw [List.append_nil] at found
    simp [prefixSchedules, prefixProto, decodeWith, Library.PrefixCode.readAll, found]
  objectCase body schedulable := by
    simp [prefixSchedules, prefixProto, ScheduledBody.toObject, schedulable, lastKey, Properties.consSome]
  encodeObject_ne body := by
    simp [prefixSchedules, ScheduledBody.toObject, writeValue]

/-- A transfer that pays up to a fee. -/
def sampleScheduled : Transaction where
  maxTransactionFee := some 100
  data := .plain .cryptoTransfer (.object .nil)

theorem schedulable_sampleScheduled : Transaction.Schedulable prefixSchedules sampleScheduled where
  type := rfl
  whole := by
    rintro _ _ ⟨⟩
    decide
  plain := trivial

/-- A schedule for one node, before it is frozen. -/
def sampleOf (create : ScheduleCreate) : Transaction where
  nodeAccountIds := { list := [.ofNum 3] }
  data := .plain .scheduleCreate (create.makeTransactionData prefixSchedules)

theorem sampleOf_written (create : ScheduleCreate) :
    ∃ bytes, Transaction.Written prefixSchedules.toProto id (sampleOf create) bytes :=
  ⟨_, .unfrozen rfl (show (Transaction.toBytes prefixProto ⟨0, 0⟩).run (sampleOf create) = (.ok _, _) from rfl)⟩

/-- The copy of the sample does not make the data of the schedule. -/
def IsLost (create : ScheduleCreate) : Prop :=
  ∃ bytes, Transaction.Written prefixSchedules.toProto id (sampleOf create) bytes ∧
    ¬ KeepsSchedule prefixSchedules Transaction.wholeMessage (fun _ => noDefaults) bytes create

/-- The transfer, to be had for nothing. -/
def freeScheduled : Transaction := { sampleScheduled with maxTransactionFee := some 0 }

end Samples

end ScheduleCreate

end HederaSdk
