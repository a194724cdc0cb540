import HederaSdk.Compare
import HederaSdk.KeyList
import HederaSdk.Transaction.Reading

/-!
# Fields of a message

A message has a property for each field that is set. A plain scalar that is not set is read from
the prototype of the message, a field that is a message itself is null there. A wrapper is a message
with one scalar, so it tells a scalar that is not set from one that is set to its default.

`onWire` is what is read back of a value.
-/

namespace HederaSdk

open Library
open Js (Value Properties)

/-! ## Messages -/

/-- What is set of a field is plain. -/
def PlainField (field : Option Value) : Prop := ∀ value ∈ field, value.Plain

namespace Js

def Properties.find? : Properties → String → Option Value
  | .nil, _ => none
  | .cons key value rest, k => if key = k then some value else rest.find? k

/-- The properties of the fields that are set. -/
def Properties.ofFields : List (String × Option Value) → Properties
  | [] => .nil
  | (name, value) :: rest => .consSome name value (ofFields rest)

namespace Value

/-- `Object.hasOwn(v, k)` -/
def hasOwn : Value → String → Bool
  | .object properties, k => (properties.find? k).isSome
  | _, _ => false

def message (fields : List (String × Option Value)) : Value := .object (.ofFields fields)

/-- Reading a property of a message with the prototype. -/
def read (prototype : String → Value) (name : String) : Value → Value
  | .object properties => (properties.find? name).getD (prototype name)
  | _ => prototype name

end Value

/-- Two messages that no reading tells apart: a scalar that is not set counts as its default. -/
def SameMessage (prototype : String → Value) (message other : Value) : Prop :=
  ∀ name, message.read prototype name = other.read prototype name

theorem Properties.find?_consSome (key : String) (value : Option Value) (rest : Properties) (k : String) :
    (Properties.consSome key value rest).find? k =
      if key = k then value.or (rest.find? k) else rest.find? k := by
  cases value with
  | none => simp [Properties.consSome]
  | some value => simp [Properties.consSome, Properties.find?]

theorem Properties.find?_ofFields {fields : List (String × Option Value)} {name : String}
    (other : name ∉ fields.map Prod.fst) : (Properties.ofFields fields).find? name = none := by
  induction fields with
  | nil => rfl
  | cons field rest inductionHypothesis =>
      rw [List.map_cons, List.mem_cons, not_or] at other
      rw [Properties.ofFields, Properties.find?_consSome, if_neg (Ne.symm other.1)]
      exact inductionHypothesis other.2

theorem Value.plain_message {fields : List (String × Option Value)}
    (plain : ∀ field ∈ fields, PlainField field.2) : (Value.message fields).Plain := by
  induction fields with
  | nil => exact trivial
  | cons field rest inductionHypothesis =>
      obtain ⟨first, others⟩ := List.forall_mem_cons.mp plain
      exact Properties.plain_consSome first (inductionHypothesis others)

/-- Messages of one kind are the same when they are so field by field. -/
theorem sameMessage_iff (prototype : String → Value) {fields others : List (String × Option Value)}
    (names : fields.map Prod.fst = others.map Prod.fst) (distinct : (fields.map Prod.fst).Nodup) :
    SameMessage prototype (.message fields) (.message others) ↔
      List.Forall₂ (fun field other => field.2.getD (prototype field.1) = other.2.getD (prototype field.1))
        fields others := by
  induction fields generalizing others with
  | nil =>
      obtain rfl : others = [] := by simpa using names.symm
      exact iff_of_true (fun _ => rfl) .nil
  | cons field rest inductionHypothesis =>
      obtain ⟨name, value⟩ := field
      cases others with
      | nil => cases names
      | cons other others =>
          obtain ⟨otherName, otherValue⟩ := other
          simp only [List.map_cons, List.cons.injEq] at names distinct
          obtain ⟨rfl, names⟩ := names
          obtain ⟨own, distinct⟩ := List.nodup_cons.mp distinct
          have otherOwn := names ▸ own
          rw [List.forall₂_cons, ← inductionHypothesis names distinct]
          have first (rest : List (String × Option Value)) (own : name ∉ rest.map Prod.fst)
              (value : Option Value) : (Value.message ((name, value) :: rest)).read prototype name =
                value.getD (prototype name) := by
            simp only [Value.message, Value.read, Properties.ofFields, Properties.find?_consSome, if_true,
              Properties.find?_ofFields own, Option.or_none]
          have later (rest : List (String × Option Value)) (value : Option Value) {k : String}
              (different : k ≠ name) : (Value.message ((name, value) :: rest)).read prototype k =
                (Value.message rest).read prototype k := by
            simp only [Value.message, Value.read, Properties.ofFields, Properties.find?_consSome,
              if_neg different.symm]
          have missing (rest : List (String × Option Value)) (own : name ∉ rest.map Prod.fst) :
              (Value.message rest).read prototype name = prototype name := by
            simp only [Value.message, Value.read, Properties.find?_ofFields own, Option.getD_none]
          constructor
          · intro same
            refine ⟨?_, fun k => ?_⟩
            · rw [← first rest own, ← first others otherOwn]
              exact same name
            · by_cases here : k = name
              · rw [here, missing rest own, missing others otherOwn]
              · rw [← later rest value here, ← later others otherValue here]
                exact same k
          · rintro ⟨here, others'⟩ k
            by_cases same : k = name
            · rw [same, first rest own, first others otherOwn]
              exact here
            · rw [later rest value same, later others otherValue same]
              exact others' k

end Js

/-! ## Reading fields -/

/-- `v != null ? read(v) : undefined` -/
def readField {α : Type} (read : Value → Except String α) (v : Value) : Except String (Option α) :=
  if v.isNullish then .ok none else (read v).map some

def readMessage {α : Type} (read : Value → α) (v : Value) : Option α :=
  if v.isNullish then none else some (read v)

/-- `{ value }` -/
def wrapper (v : Value) : Value := .object (.cons "value" v .nil)

/-- The scalar of a wrapper that is set and has one of its own. -/
def readWrapper {α : Type} (read : Value → Option α) (v : Value) : Option α :=
  if v.isNullish then none else if v.hasOwn "value" then read (v.get "value") else none

section Reading

variable {α β : Type} {f : α → Value} {g : α → β}

theorem readField_map {read : Value → Except String β} (set : ∀ a, (f a).isNullish = false)
    (reads : ∀ a, read (f a) = .ok (g a)) (field : Option α) :
    readField read ((field.map f).getD .undefined) = .ok (field.map g) := by
  cases field with
  | none => rfl
  | some a => simp [readField, set, reads, Except.map]

theorem readMessage_map {read : Value → β} (set : ∀ a, (f a).isNullish = false)
    (reads : ∀ a, read (f a) = g a) (field : Option α) :
    readMessage read ((field.map f).getD .undefined) = field.map g := by
  cases field with
  | none => rfl
  | some a => simp [readMessage, set, reads]

theorem readWrapper_map {read : Value → Option β} (reads : ∀ a, read (f a) = some (g a))
    (field : Option α) :
    readWrapper read ((field.map fun a => wrapper (f a)).getD .undefined) = field.map g := by
  cases field with
  | none => rfl
  | some a => simp [readWrapper, wrapper, Value.isNullish, Value.hasOwn, Properties.find?, reads]

end Reading

/-! ## Ids -/

/-- The message of an id of three numbers. -/
def numbersMessage (numName : String) (shard realm num : Int) : Value :=
  .object (.cons numName (.long num false)
    (.cons "shardNum" (.long shard false) (.cons "realmNum" (.long realm false) .nil)))

def readNumber (name : String) (v : Value) : Int := (v.get name).toLong?.getD 0

theorem readNumber_numbersMessage {numName : String} (own : numName ≠ "shardNum" ∧ numName ≠ "realmNum")
    (shard realm num : Int) :
    readNumber numName (numbersMessage numName shard realm num) = num ∧
      readNumber "shardNum" (numbersMessage numName shard realm num) = shard ∧
        readNumber "realmNum" (numbersMessage numName shard realm num) = realm := by
  simp [readNumber, numbersMessage, own]

theorem plain_numbersMessage (numName : String) (shard realm num : Int) :
    (numbersMessage numName shard realm num).Plain := by
  simp [numbersMessage, Value.Plain, Properties.Plain, Value.long]

structure FileId where
  shard : Int
  realm : Int
  num : Int
  checksum : Option String := none
  deriving DecidableEq

namespace FileId

def toProtobuf (id : FileId) : Value := numbersMessage "fileNum" id.shard id.realm id.num

def fromProtobuf (id : Value) : FileId where
  shard := readNumber "shardNum" id
  realm := readNumber "realmNum" id
  num := readNumber "fileNum" id

def onWire (id : FileId) : FileId := { id with checksum := none }

theorem fromProtobuf_toProtobuf (id : FileId) : fromProtobuf id.toProtobuf = id.onWire := by
  obtain ⟨num, shard, realm⟩ := @readNumber_numbersMessage "fileNum" (by decide) id.shard id.realm id.num
  rw [fromProtobuf, toProtobuf, num, shard, realm]
  rfl

theorem readMessage_map (field : Option FileId) :
    readMessage fromProtobuf ((field.map toProtobuf).getD .undefined) = field.map onWire :=
  HederaSdk.readMessage_map (fun _ => rfl) fromProtobuf_toProtobuf field

theorem map_toProtobuf_onWire (field : Option FileId) :
    (field.map onWire).map toProtobuf = field.map toProtobuf := by
  rw [Option.map_map]
  rfl

end FileId

structure TopicId where
  shard : Int
  realm : Int
  num : Int
  checksum : Option String := none
  deriving DecidableEq

namespace TopicId

def toProtobuf (id : TopicId) : Value := numbersMessage "topicNum" id.shard id.realm id.num

def fromProtobuf (id : Value) : TopicId where
  shard := readNumber "shardNum" id
  realm := readNumber "realmNum" id
  num := readNumber "topicNum" id

def onWire (id : TopicId) : TopicId := { id with checksum := none }

theorem fromProtobuf_toProtobuf (id : TopicId) : fromProtobuf id.toProtobuf = id.onWire := by
  obtain ⟨num, shard, realm⟩ := @readNumber_numbersMessage "topicNum" (by decide) id.shard id.realm id.num
  rw [fromProtobuf, toProtobuf, num, shard, realm]
  rfl

theorem readMessage_map (field : Option TopicId) :
    readMessage fromProtobuf ((field.map toProtobuf).getD .undefined) = field.map onWire :=
  HederaSdk.readMessage_map (fun _ => rfl) fromProtobuf_toProtobuf field

theorem map_toProtobuf_onWire (field : Option TopicId) :
    (field.map onWire).map toProtobuf = field.map toProtobuf := by
  rw [Option.map_map]
  rfl

end TopicId

namespace TokenId

def toProtobuf (id : TokenId) : Value := numbersMessage "tokenNum" id.shard id.realm id.num

def fromProtobuf (id : Value) : TokenId where
  shard := readNumber "shardNum" id
  realm := readNumber "realmNum" id
  num := readNumber "tokenNum" id

theorem fromProtobuf_toProtobuf (id : TokenId) : fromProtobuf id.toProtobuf = id.onWire := by
  obtain ⟨num, shard, realm⟩ := @readNumber_numbersMessage "tokenNum" (by decide) id.shard id.realm id.num
  rw [fromProtobuf, toProtobuf, num, shard, realm]
  rfl

theorem readMessage_map (field : Option TokenId) :
    readMessage fromProtobuf ((field.map toProtobuf).getD .undefined) = field.map onWire :=
  HederaSdk.readMessage_map (fun _ => rfl) fromProtobuf_toProtobuf field

theorem map_toProtobuf_onWire (field : Option TokenId) :
    (field.map onWire).map toProtobuf = field.map toProtobuf := by
  rw [Option.map_map]
  rfl

end TokenId

/-! ## Fields that are read back -/

section Fields

variable {keys : KeyCodec}

theorem readField_accountId (faithful : keys.Faithful) (field : Option AccountId) :
    readField (AccountId.fromProtobuf keys) ((field.map (AccountId.toProtobuf keys)).getD .undefined) =
      .ok (field.map AccountId.onWire) :=
  readField_map (fun _ => rfl) (AccountId.fromProtobuf_toProtobuf faithful) field

theorem readMessage_timestamp (field : Option Timestamp) :
    readMessage Timestamp.fromProtobuf ((field.map Timestamp.toProtobuf).getD .undefined) =
      field.map Timestamp.onWire :=
  readMessage_map (fun _ => rfl) Timestamp.fromProtobuf_toProtobuf field

/-- A `Duration` of some seconds. -/
def durationMessage (seconds : Int) : Value := .object (.cons "seconds" (.long seconds false) .nil)

def readDuration (duration : Value) : Int := (duration.get "seconds").toLong?.getD 0

theorem readMessage_duration (field : Option Int) :
    readMessage readDuration ((field.map durationMessage).getD .undefined) = field := by
  have reads (seconds : Int) : readDuration (durationMessage seconds) = seconds := by
    simp [readDuration, durationMessage]
  rw [readMessage_map (fun _ => rfl) reads, Option.map_id']

theorem readWrapper_boolean (field : Option Bool) :
    readWrapper Value.toBool? ((field.map fun b => wrapper (.boolean b)).getD .undefined) = field := by
  rw [readWrapper_map Value.toBool?_boolean, Option.map_id']

theorem readWrapper_string (field : Option String) :
    readWrapper Value.toString? ((field.map fun text => wrapper (.string text)).getD .undefined) = field := by
  rw [readWrapper_map Value.toString?_string, Option.map_id']

theorem readWrapper_bytes (field : Option Bytes) :
    readWrapper Value.toBytes? ((field.map fun data => wrapper (.bytes data)).getD .undefined) = field := by
  rw [readWrapper_map Value.toBytes?_bytes, Option.map_id']

theorem readWrapper_number (field : Option Int) :
    readWrapper Value.toNumber? ((field.map fun n => wrapper (.number n)).getD .undefined) = field := by
  cases field <;> rfl

theorem toLong?_long_field (field : Option Int) :
    ((field.map (Value.long · false)).getD .undefined).toLong? = field := by
  cases field <;> simp

theorem toString?_string_field (field : Option String) :
    ((field.map Value.string).getD .undefined).toString? = field := by
  cases field <;> rfl

/-! ## Fields without a null -/

theorem plain_map {α : Type} {f : α → Value} (plain : ∀ a, (f a).Plain) (field : Option α) :
    PlainField (field.map f) := by
  intro value set
  obtain ⟨a, _, rfl⟩ := Option.map_eq_some_iff.mp set
  exact plain a

theorem plain_accountId (keys : KeyCodec) (field : Option AccountId) :
    PlainField (field.map (AccountId.toProtobuf keys)) := plain_map (AccountId.plain_toProtobuf keys) field

theorem plain_numbers {α : Type} {f : α → Value} {numName : String} {shard realm num : α → Int}
    (made : ∀ a, f a = numbersMessage numName (shard a) (realm a) (num a)) (field : Option α) :
    PlainField (field.map f) := by
  apply plain_map
  intro a
  rw [made]
  exact plain_numbersMessage _ _ _ _

theorem plain_timestamp (field : Option Timestamp) : PlainField (field.map Timestamp.toProtobuf) := by
  apply plain_map
  intro time
  exact ⟨⟨trivial, trivial, trivial, trivial⟩, trivial, trivial⟩

theorem plain_duration (field : Option Int) : PlainField (field.map durationMessage) := by
  apply plain_map
  intro seconds
  exact ⟨⟨trivial, trivial, trivial, trivial⟩, trivial⟩

theorem plain_long (field : Option Int) : PlainField (field.map (Value.long · false)) := by
  apply plain_map
  intro n
  exact ⟨trivial, trivial, trivial, trivial⟩

theorem plain_wrapper {α : Type} {f : α → Value} (plain : ∀ a, (f a).Plain) (field : Option α) :
    PlainField (field.map fun a => wrapper (f a)) := by
  apply plain_map
  intro a
  exact ⟨plain a, trivial⟩

theorem plain_boolean (field : Option Bool) : PlainField (field.map fun b => wrapper (.boolean b)) :=
  @plain_wrapper _ Value.boolean (fun _ => trivial) field

theorem plain_string (field : Option String) : PlainField (field.map fun text => wrapper (.string text)) :=
  @plain_wrapper _ Value.string (fun _ => trivial) field

theorem plain_number (field : Option Int) : PlainField (field.map fun n => wrapper (.number n)) :=
  @plain_wrapper _ Value.number (fun _ => trivial) field

theorem plain_bytes (field : Option Bytes) : PlainField (field.map fun data => wrapper (.bytes data)) :=
  @plain_wrapper _ Value.bytes Js.plain_bytes field

/-! ## Fields that are written again -/

theorem map_toProtobuf_onWire (keys : KeyCodec) (field : Option AccountId) :
    (field.map AccountId.onWire).map (AccountId.toProtobuf keys) = field.map (AccountId.toProtobuf keys) := by
  rw [Option.map_map]
  exact congrArg (Option.map · field) (funext (AccountId.toProtobuf_onWire keys))

theorem Timestamp.toInt_toInt (n : Int) : Timestamp.toInt (Timestamp.toInt n) = Timestamp.toInt n :=
  Int.bmod_bmod

/-- A valid start is written again as it was when its seconds fit 32 bits. -/
theorem sameTimestamp_iff (field : Option Timestamp) (default : Value) :
    ((field.map Timestamp.onWire).map Timestamp.toProtobuf).getD default =
        (field.map Timestamp.toProtobuf).getD default ↔
      ∀ time ∈ field, Timestamp.toInt time.seconds = time.seconds := by
  cases field with
  | none => simp
  | some time =>
      have seconds : Value.long (Timestamp.toInt time.seconds) false = Value.long time.seconds false ↔
          Timestamp.toInt time.seconds = time.seconds := by
        constructor
        · intro same
          have read := congrArg Value.toLong? same
          rwa [Value.toLong?_long, Value.toLong?_long, Option.some.injEq] at read
        · exact congrArg (Value.long · false)
      simp only [Option.map_some, Option.getD_some, Timestamp.toProtobuf, Timestamp.onWire,
        Timestamp.toInt_toInt, Value.object.injEq, Properties.cons.injEq, true_and, and_true, seconds,
        Option.mem_some_iff, forall_eq']

end Fields

end HederaSdk
