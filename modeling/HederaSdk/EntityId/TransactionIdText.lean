import HederaSdk.EntityId.AccountText
import HederaSdk.Library.Method
import HederaSdk.Library.Split
import HederaSdk.Transaction.PrefixProto

/-!
# Reading a transaction id

A transaction id has a message and a text, and each has a reader. The reader of the message
cuts the seconds of the valid start to 32 bits. The reader of the text takes the account by
the reader of accounts, which takes any 40 characters for an EVM address.
-/

namespace HederaSdk

open Library
open Library.Split (firstTwo)
open Js (Value)

namespace TransactionId

/-- The ids that an SDK user has. -/
structure InRange (id : TransactionId) : Prop where
  account : id.accountId.InRange
  seconds : 0 ≤ id.validStart.seconds ∧ IsLong id.validStart.seconds
  nanos : 0 ≤ id.validStart.nanos ∧ id.validStart.nanos < 1000000000
  nonce : ∀ nonce, id.nonce = some nonce → 1 ≤ nonce ∧ nonce < 2147483648

/-! ## The text -/

/-- A transaction id as it is read from a text. -/
structure Reading where
  accountId : EntityId
  validStart : Timestamp
  scheduled : Bool
  nonce : Option Int

/-- Using a part that is not there. -/
def missing {α : Type} (property : String) : Except JsError α :=
  .error (.typeError s!"Cannot read properties of undefined (reading '{property}')")

/-- The nanoseconds, whether the transaction is scheduled, and the nonce. -/
def readSuffix (rest : List Char) : Except JsError (List Char × Bool × Option (List Char)) :=
  if '?' ∈ rest then
    match firstTwo "?scheduled".toList rest with
    | (_, none) => missing "includes"
    | (nanos, some rest) => .ok (nanos, true, if '/' ∈ rest then some (rest.erase '/') else none)
  else if '/' ∈ rest then
    match firstTwo ['/'] rest with
    | (nanos, nonce) => .ok (nanos, false, nonce)
  else .ok (rest, false, none)

def readNonce : Option (List Char) → Except JsError (Option Int)
  | none => .ok none
  | some nonce => (Long.fromString.fromString (.ofList nonce)).map some

/-- The constructor reads a nonce of 0 as no nonce. -/
def construct (decoders : PublicKey.Decoders) (account seconds nanos : List Char) (scheduled : Bool)
    (nonce : Option (List Char)) : Except JsError Reading := do
  let accountId ← AccountId.fromString Long.fromString decoders (.ofList account)
  let seconds ← Long.fromString.fromString (.ofList seconds)
  let nanos ← Long.fromString.fromString (.ofList nanos)
  let nonce ← readNonce nonce
  return { accountId, validStart := ⟨seconds, nanos⟩, scheduled, nonce := nonce.filter (· ≠ 0) }

def fromString (decoders : PublicKey.Decoders) (wholeId : String) : Except JsError Reading :=
  match firstTwo ['@'] wholeId.toList with
  | (_, none) => missing "split"
  | (account, some rest) =>
      match firstTwo ['.'] rest with
      | (_, none) => missing "includes"
      | (seconds, some rest) =>
          (readSuffix rest).bind fun parts => construct decoders account seconds parts.1 parts.2.1 parts.2.2

/-- What was read is the id. -/
def Reading.Is (read : Reading) (id : TransactionId) : Prop :=
  read.accountId.equals id.accountId.toEntityId = true ∧ read.validStart = id.validStart ∧
    read.scheduled = id.scheduled ∧ read.nonce = id.nonce

theorem isDigit_of_mem_padded {n : Int} (positive : 0 ≤ n) {c : Char}
    (member : c ∈ Text.padded 9 (Text.decimal n)) : c.isDigit = true := by
  rcases List.mem_append.mp member with zero | digit
  · rw [(List.mem_replicate.mp zero).2]
    decide
  · exact Text.isDigit_of_mem_decimal positive digit

theorem spelled_padded {n : Int} (positive : 0 ≤ n) (length : Nat) :
    Long.spelled (Text.padded length (Text.decimal n)) = n := by
  have zeros (k : Nat) (text : List Char) :
      Nat.ofDigitChars 10 (List.replicate k '0' ++ text) 0 = Nat.ofDigitChars 10 text 0 := by
    induction k with
    | zero => rfl
    | succ k inductionHypothesis => exact inductionHypothesis
  rw [Long.spelled, Text.padded, zeros]
  exact Long.spelled_decimal positive

/-- The zeros before the nanoseconds do not count. -/
theorem read_padded {n : Int} (positive : 0 ≤ n) (small : n < 1000000000) :
    Long.fromString.fromString (.ofList (Text.padded 9 (Text.decimal n))) = .ok n := by
  have some : Text.padded 9 (Text.decimal n) ≠ [] := by simp [Text.padded, Text.decimal_ne_nil]
  have digits := fun c => @isDigit_of_mem_padded n positive c
  rw [Long.fromString_digits some digits, spelled_padded positive]
  exact congrArg Except.ok (Long.wrap_of_small positive (by omega))

theorem readSuffix_scheduled {nanos behind : List Char} (free : '?' ∉ nanos) (free' : '?' ∉ behind) :
    readSuffix (nanos ++ ("?scheduled".toList ++ behind)) =
      .ok (nanos, true, if '/' ∈ behind then some (behind.erase '/') else none) := by
  have mark : "?scheduled".toList = '?' :: "scheduled".toList := rfl
  have member : '?' ∈ nanos ++ ("?scheduled".toList ++ behind) := by
    rw [mark]
    exact List.mem_append_right _ List.mem_cons_self
  rw [readSuffix, if_pos member, mark, Split.firstTwo_append free free']

theorem readSuffix_nonce {nanos nonce : List Char} (free : '?' ∉ nanos) (free' : '?' ∉ nonce)
    (noSlash : '/' ∉ nanos) (noSlash' : '/' ∉ nonce) :
    readSuffix (nanos ++ '/' :: nonce) = .ok (nanos, false, some nonce) := by
  have noMark : '?' ∉ nanos ++ '/' :: nonce := by simp [free, free']
  have slash : '/' ∈ nanos ++ '/' :: nonce := List.mem_append_right _ List.mem_cons_self
  rw [readSuffix, if_neg noMark, if_pos slash, Split.firstTwo_cons noSlash noSlash']

theorem readSuffix_bare {nanos : List Char} (free : '?' ∉ nanos) (noSlash : '/' ∉ nanos) :
    readSuffix nanos = .ok (nanos, false, none) := by
  rw [readSuffix, if_neg free, if_neg noSlash]

/-- The suffix is read behind any digits. -/
theorem readSuffix_suffix {id : TransactionId} (positive : ∀ nonce, id.nonce = some nonce → 0 ≤ nonce)
    {nanos : List Char} (digits : ∀ c ∈ nanos, c.isDigit = true) :
    readSuffix (nanos ++ id.suffix) = .ok (nanos, id.scheduled, id.nonce.map Text.decimal) := by
  have free {c : Char} (separator : c.isDigit = false) {text : List Char}
      (all : ∀ d ∈ text, d.isDigit = true) : c ∉ text := by
    intro member
    rw [all c member] at separator
    cases separator
  have noMark := free (c := '?') (by decide) digits
  have noSlash := free (c := '/') (by decide) digits
  obtain ⟨accountId, validStart, scheduled, nonce⟩ := id
  cases nonce with
  | none =>
      cases scheduled with
      | false =>
          rw [suffix, if_neg Bool.false_ne_true, List.append_nil, List.append_nil]
          exact readSuffix_bare noMark noSlash
      | true =>
          rw [suffix, if_pos rfl]
          exact readSuffix_scheduled noMark List.not_mem_nil
  | some nonce =>
      have nonces : ∀ c ∈ Text.decimal nonce, c.isDigit = true := fun c =>
        Text.isDigit_of_mem_decimal (positive nonce rfl)
      have noMark' := free (c := '?') (by decide) nonces
      cases scheduled with
      | false =>
          rw [suffix, if_neg Bool.false_ne_true, List.nil_append]
          exact readSuffix_nonce noMark noMark' noSlash (free (by decide) nonces)
      | true =>
          have noMark'' : '?' ∉ '/' :: Text.decimal nonce := by simp [noMark']
          rw [suffix, if_pos rfl]
          change readSuffix (nanos ++ ("?scheduled".toList ++ '/' :: Text.decimal nonce)) = _
          rw [readSuffix_scheduled noMark noMark'', if_pos List.mem_cons_self, List.erase_cons_head]
          rfl

theorem readNonce_decimal {nonce : Option Int} (range : ∀ n, nonce = some n → 0 ≤ n ∧ IsLong n) :
    readNonce (nonce.map Text.decimal) = .ok nonce := by
  cases nonce with
  | none => rfl
  | some n =>
      rw [Option.map_some, readNonce, AccountId.read_decimal (range n rfl)]
      rfl

theorem not_mem_suffix {c : Char} (digit : c.isDigit = false) (mark : c ∉ "?scheduled/-".toList)
    (id : TransactionId) : c ∉ id.suffix := by
  have marks : "?scheduled/-".toList = "?scheduled".toList ++ ['/', '-'] := rfl
  rw [marks, List.mem_append, not_or] at mark
  have noMinus : c ≠ '-' := fun minus => mark.2 (by simp [minus])
  have noDecimal := separator_not_mem_decimal digit noMinus
  intro member
  rcases List.mem_append.mp member with inMark | inNonce
  · cases scheduled : id.scheduled with
    | false =>
        rw [scheduled] at inMark
        cases inMark
    | true =>
        rw [scheduled] at inMark
        exact mark.1 inMark
  · cases nonce : id.nonce with
    | none =>
        rw [nonce] at inNonce
        cases inNonce
    | some n =>
        rw [nonce] at inNonce
        rcases List.mem_cons.mp inNonce with slash | inDecimal
        · exact mark.2 (by simp [slash])
        · exact noDecimal n inDecimal

/-- The parts of the text are read one by one. -/
theorem fromString_toString {id : TransactionId} (range : id.InRange) (decoders : PublicKey.Decoders) :
    fromString decoders id.toString =
      (AccountId.fromString Long.fromString decoders id.accountId.toString).map fun accountId =>
        { accountId, validStart := id.validStart, scheduled := id.scheduled, nonce := id.nonce } := by
  have padded : ∀ c ∈ Text.padded 9 (Text.decimal id.validStart.nanos), c.isDigit = true := fun c =>
    isDigit_of_mem_padded range.nanos.1
  have notPadded {c : Char} (separator : c.isDigit = false) :
      c ∉ Text.padded 9 (Text.decimal id.validStart.nanos) := by
    intro member
    rw [padded c member] at separator
    cases separator
  have noDot : '.' ∉ Text.padded 9 (Text.decimal id.validStart.nanos) ++ id.suffix := by
    rw [List.mem_append, not_or]
    exact ⟨notPadded (by decide), not_mem_suffix (by decide) (by simp) id⟩
  have noAt : '@' ∉ Text.decimal id.validStart.seconds ++
      '.' :: (Text.padded 9 (Text.decimal id.validStart.nanos) ++ id.suffix) := by
    simp only [List.mem_append, List.mem_cons, not_or]
    exact ⟨separator_not_mem_decimal (by decide) (by decide) _, by decide, notPadded (by decide),
      not_mem_suffix (by decide) (by simp) id⟩
  have parts := Split.firstTwo_cons id.accountId.separator_not_mem_toString noAt
  have start := Split.firstTwo_cons
    (separator_not_mem_decimal (by decide) (by decide) id.validStart.seconds) noDot
  have suffixes := readSuffix_suffix (fun nonce set => by have := range.nonce nonce set; omega) padded
  have nonces : readNonce (id.nonce.map Text.decimal) = .ok id.nonce := by
    apply readNonce_decimal
    intro n set
    have := range.nonce n set
    exact ⟨by omega, by omega, by omega⟩
  have kept : id.nonce.filter (· ≠ 0) = id.nonce := by
    cases set : id.nonce with
    | none => rfl
    | some n =>
        have := range.nonce n set
        exact Option.filter_some_pos (by simp; omega)
  rw [fromString, toList_toString, parts]
  simp only [start, suffixes, Except.bind]
  rw [construct, String.ofList_toList, AccountId.read_decimal range.seconds,
    read_padded range.nanos.1 range.nanos.2, nonces]
  cases AccountId.fromString Long.fromString decoders id.accountId.toString with
  | error refused => rfl
  | ok account =>
      simp only [bind, Except.bind, Except.map, kept]
      rfl

/-! ## The message -/

/-- The generated encoder and decoder of `proto.TransactionID`. -/
structure Codec where
  keys : KeyCodec
  encode : Value → Bytes
  decode : Bytes → Except JsError Value

/-- What the generated code does for a transaction id. -/
structure Codec.Faithful (codec : Codec) : Prop where
  keys : codec.keys.Faithful
  decode_encode : ∀ id : TransactionId,
    codec.decode (codec.encode (id.toProtobuf codec.keys)) = .ok (id.toProtobuf codec.keys)

def toBytes (codec : Codec) (id : TransactionId) : Bytes := codec.encode (id.toProtobuf codec.keys)

def fromBytes (codec : Codec) (bytes : Bytes) : Except JsError TransactionId :=
  (codec.decode bytes).bind fun message => (fromProtobuf codec.keys message).mapError JsError.error

theorem fromBytes_toBytes {codec : Codec} (faithful : codec.Faithful) (id : TransactionId) :
    fromBytes codec (id.toBytes codec) = .ok id.onWire := by
  rw [fromBytes, toBytes, faithful.decode_encode]
  simp only [Except.bind, fromProtobuf_toProtobuf faithful.keys]
  rfl

/-! ## Both ways -/

/-- The bytes and the text of an id are both read as the id. -/
structure ComesBack (codec : Codec) (decoders : PublicKey.Decoders) (id : TransactionId) : Prop where
  bytes : ∃ read, fromBytes codec (id.toBytes codec) = .ok read ∧ read.identity = id.identity
  text : ∃ read, fromString decoders id.toString = .ok read ∧ read.Is id

variable {codec : Codec} {decoders : PublicKey.Decoders} {id : TransactionId}

/-- The text is read as the id when the account's text is read as the account. -/
theorem reads_text_iff (readsDer : decoders.ReadsDer) (range : id.InRange) :
    (∃ read, fromString decoders id.toString = .ok read ∧ read.Is id) ↔
      ¬ id.accountId.LooksLikeEvmAddress := by
  rw [fromString_toString range, ← AccountId.readsBack_iff readsDer range.account]
  constructor
  · rintro ⟨read, reading, same⟩
    obtain ⟨account, found, rfl⟩ := except_map_eq_ok.mp reading
    exact ⟨⟨account, found, same.1⟩,
      fun _ rangeOther text => AccountId.equals_of_toString range.account rangeOther text⟩
  · rintro ⟨⟨account, found, same⟩, _⟩
    rw [found]
    exact ⟨_, rfl, same, rfl, rfl, rfl⟩

/-- The bytes are read as the id when 32 bits hold the seconds. -/
theorem reads_bytes_iff (faithful : codec.Faithful) (range : id.InRange) :
    (∃ read, fromBytes codec (id.toBytes codec) = .ok read ∧ read.identity = id.identity) ↔
      id.validStart.seconds < 2147483648 := by
  rw [fromBytes_toBytes faithful]
  constructor
  · rintro ⟨read, reading, same⟩
    obtain rfl := Except.ok.inj reading
    have starts : id.validStart.onWire = id.validStart := congrArg (·.2.1) same
    have seconds : Timestamp.toInt id.validStart.seconds = id.validStart.seconds :=
      congrArg Timestamp.seconds starts
    have bound : Timestamp.toInt id.validStart.seconds < 2147483648 := Int.bmod_lt (by decide)
    rwa [seconds] at bound
  · intro small
    have carried : id.Carried := {
      account := range.account.isLong_name
      seconds := ⟨range.seconds.1, small⟩
      nanos := range.nanos
      nonce := by
        intro nonce set
        have := range.nonce nonce set
        omega }
    exact ⟨_, rfl, carried.identity_onWire⟩

section Samples

/-- The codec of executable objects. -/
def prefixCodec : Codec where
  keys := prefixKeys
  encode := writeValue
  decode input := decodeWith (readValue input.length) input

theorem prefixCodec_faithful : prefixCodec.Faithful where
  keys := prefixKeys_faithful
  decode_encode := by
    intro id
    have found := reads_value (id.toProtobuf prefixKeys) _ [] (Nat.le_refl _)
    rw [List.append_nil] at found
    simp [prefixCodec, decodeWith, PrefixCode.readAll, found]

/-- The id of a scheduled transaction of an account. -/
def scheduledId : TransactionId where
  accountId := AccountId.smallId
  validStart := ⟨1700000000, 7⟩
  scheduled := true
  nonce := some 117

/-- An id that starts when 32 bits no longer hold the seconds. -/
def lateId : TransactionId := withValidStart AccountId.smallId ⟨2147483648, 0⟩

end Samples

end TransactionId

end HederaSdk
