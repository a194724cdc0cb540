import HederaSdk.Ids
import HederaSdk.Library.Text

/-!
# The texts of ids

The SDK files signatures and chunks under the texts of ids. A text does not show
everything that an id holds: beside an alias the number does not count, and a
checksum is only for the eye. `identity` is what counts, and two ids have one text
exactly when they have one identity. Numbers are those of a `Long`.
-/

namespace HederaSdk

open Library

/-- The range of a 64-bit `Long`. -/
def IsLong (n : Int) : Prop := -9223372036854775808 ≤ n ∧ n < 9223372036854775808

instance (n : Int) : Decidable (IsLong n) := inferInstanceAs (Decidable (_ ∧ _))

@[simp] theorem toString_string (text : String) : toString text = text := rfl

/-! ## Hex texts -/

theorem hexDigit_ne_separator (n : Nat) (h : n < 16) : hexDigit n ≠ '@' ∧ hexDigit n ≠ '.' := by
  have all : ∀ n : Fin 16, hexDigit n ≠ '@' ∧ hexDigit n ≠ '.' := by decide
  exact all ⟨n, h⟩

theorem not_mem_hexEncode (data : Bytes) : '@' ∉ (hexEncode data).toList := by
  rw [hexEncode, String.toList_ofList]
  intro member
  obtain ⟨b, _, digit⟩ := List.mem_flatMap.mp member
  have bound := b.toNat_lt
  simp only [List.mem_cons, List.not_mem_nil, or_false] at digit
  rcases digit with high | low
  · exact (hexDigit_ne_separator (b.toNat / 16) (by omega)).1 high.symm
  · exact (hexDigit_ne_separator (b.toNat % 16) (by omega)).1 low.symm

theorem PublicKey.length_toBytesDer (key : PublicKey) :
    key.toBytesDer.length = 44 ∨ key.toBytesDer.length = 47 := by
  obtain ⟨type, raw, valid⟩ := key
  cases type with
  | ed25519 =>
      have length : raw.length = 32 := valid
      exact .inl (by simp [toBytesDer, ed25519DerPrefix, length])
  | secp256k1 =>
      have length : raw.length = 33 := valid
      exact .inr (by simp [toBytesDer, legacyDerPrefix, length])

theorem PublicKey.toBytesDer_injective : Function.Injective toBytesDer := by
  rintro ⟨type, raw, valid⟩ ⟨type', raw', valid'⟩ same
  have lengths := congrArg List.length same
  cases type <;> cases type' <;>
    simp_all [toBytesDer, ed25519DerPrefix, legacyDerPrefix, KeyType.rawLength]

@[simp] theorem PublicKey.toString_inj {key other : PublicKey} :
    key.toString = other.toString ↔ key = other := by
  rw [toString, toString, hexEncode_inj, toBytesDer_injective.eq_iff]

/-! ## Accounts -/

theorem separator_not_mem_decimal {c : Char} (digit : c.isDigit = false) (minus : c ≠ '-') (n : Int) :
    c ∉ Text.decimal n := by
  intro member
  rcases Text.mem_decimal member with isDigit | isMinus
  · rw [digit] at isDigit
    cases isDigit
  · exact minus isMinus

/-- How an account is named within its realm: an alias takes the place of the number. -/
inductive AccountName where
  | number (num : Int)
  | aliasKey (key : PublicKey)
  | evmAddress (address : EvmAddress)
  deriving DecidableEq

namespace AccountName

def text : AccountName → List Char
  | .number num => Text.decimal num
  | .aliasKey key => key.toString.toList
  | .evmAddress address => (hexEncode address.1).toList

def IsLong : AccountName → Prop
  | .number num => HederaSdk.IsLong num
  | _ => True

instance (name : AccountName) : Decidable name.IsLong := by
  cases name <;> unfold IsLong <;> infer_instance

/-- The texts of numbers, addresses and keys have different lengths. -/
theorem length_text {name : AccountName} (long : name.IsLong) :
    match name with
    | .number _ => name.text.length ≤ 20
    | .aliasKey _ => 88 ≤ name.text.length
    | .evmAddress _ => name.text.length = 40 := by
  cases name with
  | number num =>
      simp only [IsLong, HederaSdk.IsLong] at long
      have bound : num.natAbs < 10 ^ 19 := by omega
      exact Text.length_decimal_le (by decide) bound
  | aliasKey key =>
      have := key.length_toBytesDer
      simp only [text, PublicKey.toString, length_hexEncode]
      omega
  | evmAddress address => simp only [text, length_hexEncode, address.2]

theorem text_inj {first second : AccountName} (longFirst : first.IsLong) (longSecond : second.IsLong) :
    first.text = second.text ↔ first = second := by
  refine ⟨fun same => ?_, fun same => same ▸ rfl⟩
  have lengths := congrArg List.length same
  have lengthFirst := length_text longFirst
  have lengthSecond := length_text longSecond
  cases first <;> cases second
  case number.number => exact congrArg number (Text.decimal_injective same)
  case aliasKey.aliasKey => exact congrArg aliasKey (PublicKey.toString_inj.mp (String.toList_inj.mp same))
  case evmAddress.evmAddress =>
    exact congrArg evmAddress (Subtype.ext (hexEncode_inj.mp (String.toList_inj.mp same)))
  all_goals
    simp only at lengthFirst lengthSecond
    omega

theorem separator_not_mem_text (name : AccountName) : '@' ∉ name.text := by
  cases name with
  | number num => exact separator_not_mem_decimal (by decide) (by decide) num
  | aliasKey key => exact not_mem_hexEncode _
  | evmAddress address => exact not_mem_hexEncode _

end AccountName

namespace AccountId

def name (id : AccountId) : AccountName :=
  match id.aliasKey, id.evmAddress with
  | some key, _ => .aliasKey key
  | none, some address => .evmAddress address
  | none, none => .number id.num

/-- What counts of an account id. -/
def identity (id : AccountId) : Int × Int × AccountName := (id.shard, id.realm, id.name)

theorem toList_toString (id : AccountId) : id.toString.toList =
    Text.decimal id.shard ++ '.' :: (Text.decimal id.realm ++ '.' :: id.name.text) := by
  obtain ⟨shard, realm, num, aliasKey, evmAddress, checksum⟩ := id
  cases aliasKey <;> cases evmAddress <;>
    simp [toString, name, AccountName.text, Text.decimal, String.toList_append]

theorem identity_onWire (id : AccountId) : id.onWire.identity = id.identity := by
  obtain ⟨shard, realm, num, aliasKey, evmAddress, checksum⟩ := id
  cases aliasKey <;> cases evmAddress <;> rfl

theorem toString_inj {a b : AccountId} (longA : a.name.IsLong) (longB : b.name.IsLong) :
    a.toString = b.toString ↔ a.identity = b.identity := by
  have noDot := separator_not_mem_decimal (c := '.') (by decide) (by decide)
  rw [← String.toList_inj, toList_toString, toList_toString, identity, identity, Prod.mk.injEq,
    Prod.mk.injEq, ← AccountName.text_inj longA longB]
  constructor
  · intro same
    obtain ⟨shards, rest⟩ := Text.separated_unique (noDot _) (noDot _) same
    obtain ⟨realms, names⟩ := Text.separated_unique (noDot _) (noDot _) rest
    exact ⟨Text.decimal_injective shards, Text.decimal_injective realms, names⟩
  · rintro ⟨shards, realms, names⟩
    rw [shards, realms, names]

/-- Different ids have different texts. -/
theorem nodup_toString {ids : List AccountId} (long : ∀ id ∈ ids, id.name.IsLong)
    (different : (ids.map identity).Nodup) : (ids.map toString).Nodup := by
  rw [List.Nodup, List.pairwise_map] at different ⊢
  refine different.imp_of_mem fun inA inB apart same => apart ?_
  exact (toString_inj (long _ inA) (long _ inB)).mp same

theorem separator_not_mem_toString (id : AccountId) : '@' ∉ id.toString.toList := by
  have digits := separator_not_mem_decimal (c := '@') (by decide) (by decide)
  simp [toList_toString, digits, id.name.separator_not_mem_text]

end AccountId

/-! ## Transactions -/

theorem toList_padStart (length : Nat) (text : String) :
    (padStart length text).toList = Text.padded length text.toList := by
  simp [padStart, Text.padded, String.toList_append, String.length_toList]

namespace Timestamp

theorem toList_toString (t : Timestamp) : t.toString.toList =
    Text.decimal t.seconds ++ '.' :: Text.padded 9 (Text.decimal t.nanos) := by
  simp [toString, toList_padStart, Text.decimal, String.toList_append]

end Timestamp

namespace TransactionId

/-- The text behind the valid start. -/
def suffix (id : TransactionId) : List Char :=
  (if id.scheduled then "?scheduled".toList else []) ++
    match id.nonce with
    | some nonce => '/' :: Text.decimal nonce
    | none => []

/-- What counts of a transaction id. -/
def identity (id : TransactionId) : (Int × Int × AccountName) × Timestamp × Bool × Option Int :=
  (id.accountId.identity, id.validStart, id.scheduled, id.nonce)

theorem toList_toString (id : TransactionId) : id.toString.toList =
    id.accountId.toString.toList ++ '@' :: (Text.decimal id.validStart.seconds ++ '.' ::
      (Text.padded 9 (Text.decimal id.validStart.nanos) ++ id.suffix)) := by
  obtain ⟨accountId, validStart, scheduled, nonce⟩ := id
  cases scheduled <;> cases nonce <;>
    simp [toString, suffix, Timestamp.toList_toString, Text.decimal, String.toList_append]

theorem suffix_inj {a b : TransactionId} (same : a.suffix = b.suffix) :
    a.scheduled = b.scheduled ∧ a.nonce = b.nonce := by
  obtain ⟨_, _, scheduledA, nonceA⟩ := a
  obtain ⟨_, _, scheduledB, nonceB⟩ := b
  cases scheduledA <;> cases scheduledB <;> rcases nonceA with _ | nonceA <;>
    rcases nonceB with _ | nonceB <;> simp [suffix] at same ⊢ <;> exact same

theorem head?_suffix (id : TransactionId) : ∀ c ∈ id.suffix.head?, ¬ (c.isDigit = true ∨ c = '-') := by
  obtain ⟨_, _, scheduled, nonce⟩ := id
  cases scheduled <;> cases nonce <;> simp [suffix]

/-- The text is made of the texts of the parts. -/
theorem toString_eq_iff {a b : TransactionId} : a.toString = b.toString ↔
    a.accountId.toString = b.accountId.toString ∧ a.validStart = b.validStart ∧
      a.scheduled = b.scheduled ∧ a.nonce = b.nonce := by
  have noDot := separator_not_mem_decimal (c := '.') (by decide) (by decide)
  have padded (n : Int) : ∀ c ∈ Text.padded 9 (Text.decimal n), c.isDigit = true ∨ c = '-' := by
    intro c member
    rcases List.mem_append.mp member with zero | digit
    · rw [(List.mem_replicate.mp zero).2]
      exact .inl (by decide)
    · exact Text.mem_decimal digit
  constructor
  · intro same
    rw [← String.toList_inj, toList_toString, toList_toString] at same
    obtain ⟨accounts, rest⟩ := Text.separated_unique a.accountId.separator_not_mem_toString
      b.accountId.separator_not_mem_toString same
    obtain ⟨seconds, rest⟩ := Text.separated_unique (noDot _) (noDot _) rest
    obtain ⟨nanos, suffixes⟩ := Text.span_unique (padded _) (padded _) a.head?_suffix b.head?_suffix rest
    refine ⟨String.toList_inj.mp accounts, ?_, suffix_inj suffixes⟩
    obtain ⟨_, ⟨secondsA, nanosA⟩, _, _⟩ := a
    obtain ⟨_, ⟨secondsB, nanosB⟩, _, _⟩ := b
    rw [Timestamp.mk.injEq]
    exact ⟨Text.decimal_injective seconds, Text.padded_decimal_injective 9 nanos⟩
  · rintro ⟨account, start, scheduled, nonce⟩
    rw [toString, toString, account, start, scheduled, nonce]

theorem toString_inj {a b : TransactionId} (longA : a.accountId.name.IsLong)
    (longB : b.accountId.name.IsLong) : a.toString = b.toString ↔ a.identity = b.identity := by
  rw [toString_eq_iff, AccountId.toString_inj longA longB]
  simp only [identity, Prod.mk.injEq]

/-- The ids that are read back as they are: seconds below 2^31, a nonce other than 0. -/
structure Carried (id : TransactionId) : Prop where
  account : id.accountId.name.IsLong
  seconds : 0 ≤ id.validStart.seconds ∧ id.validStart.seconds < 2147483648
  nanos : 0 ≤ id.validStart.nanos ∧ id.validStart.nanos < 1000000000
  nonce : ∀ nonce, id.nonce = some nonce → nonce ≠ 0 ∧ -2147483648 ≤ nonce ∧ nonce < 2147483648

theorem Carried.validStart_onWire {id : TransactionId} (carried : id.Carried) :
    id.validStart.onWire = id.validStart := by
  have seconds : Timestamp.toInt id.validStart.seconds = id.validStart.seconds :=
    Int.bmod_eq_of_le (by have := carried.seconds; omega) (by have := carried.seconds; omega)
  have nanos : Timestamp.toInt id.validStart.nanos = id.validStart.nanos :=
    Int.bmod_eq_of_le (by have := carried.nanos; omega) (by have := carried.nanos; omega)
  rw [Timestamp.onWire, seconds, nanos]

theorem Carried.identity_onWire {id : TransactionId} (carried : id.Carried) :
    id.onWire.identity = id.identity := by
  have nonce : (id.nonce.map Timestamp.toInt).filter (· ≠ 0) = id.nonce := by
    cases set : id.nonce with
    | none => rfl
    | some nonce =>
        obtain ⟨nonzero, low, high⟩ := carried.nonce nonce set
        have same : Timestamp.toInt nonce = nonce :=
          Int.bmod_eq_of_le (by omega) (by omega)
        simp [same, nonzero]
  rw [identity, identity, onWire, AccountId.identity_onWire, carried.validStart_onWire, nonce]

theorem Carried.long_onWire {id : TransactionId} (carried : id.Carried) :
    id.onWire.accountId.name.IsLong := by
  have same : id.accountId.onWire.name = id.accountId.name :=
    congrArg (·.2.2) (AccountId.identity_onWire id.accountId)
  rw [onWire, same]
  exact carried.account

/-- On the wire two ids have one text when they are one id. -/
theorem Carried.toString_onWire_inj {a b : TransactionId} (carriedA : a.Carried)
    (carriedB : b.Carried) : a.onWire.toString = b.onWire.toString ↔ a.identity = b.identity := by
  rw [toString_inj carriedA.long_onWire carriedB.long_onWire, carriedA.identity_onWire,
    carriedB.identity_onWire]

end TransactionId

end HederaSdk
