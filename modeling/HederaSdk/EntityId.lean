import HederaSdk.Checksum
import HederaSdk.IdText
import HederaSdk.Library.Method
import Mathlib.Algebra.GroupWithZero.Nat

/-!
# Texts of ids with a checksum

Six classes of ids are read from a text and share the helpers for it. Each class
wires the helpers itself: four keep the checksum of the text, while `AccountId` and
`ContractId` build the id from the numbers alone. An id without a checksum is
accepted by every client.

The reader of a `Long` is another package. It is a parameter here.
-/

namespace HederaSdk

open Library

/-- An id as it is read from a text. The EVM address of a text may have any length. -/
structure EntityId where
  shard : Int
  realm : Int
  num : Int
  aliasKey : Option PublicKey := none
  evmAddress : Option Bytes := none
  checksum : Option String := none
  deriving DecidableEq

/-- `Long.fromString` -/
structure LongReader where
  fromString : String → Except JsError Int

/-- A long that is not negative is read from its decimal text. -/
structure LongReader.Faithful (longs : LongReader) : Prop where
  fromString_toString : ∀ n, 0 ≤ n → IsLong n → longs.fromString (toString n) = .ok n

/-- Decimal texts, read as the 64 bits of their number. -/
def LongReader.ofDecimal : LongReader where
  fromString text :=
    if text.toList = [] then .error (.error "empty string")
    else if text.toList.all Char.isDigit then
      .ok (Int.bmod (Nat.ofDigitChars 10 text.toList 0) 18446744073709551616)
    else .error (.error s!"no decimal text: {text}")

theorem LongReader.ofDecimal_faithful : ofDecimal.Faithful where
  fromString_toString n positive long := by
    have digits : (toString n).toList = Nat.toDigits 10 n.toNat := by
      have := Text.decimal_eq n
      rwa [if_pos positive] at this
    have all : (Nat.toDigits 10 n.toNat).all Char.isDigit = true :=
      List.all_eq_true.mpr fun c member =>
        Nat.isDigit_of_mem_toDigits (by decide) (by decide) member
    have nonempty : Nat.toDigits 10 n.toNat ≠ [] := Nat.toDigits_ne_nil
    have small : n < 9223372036854775808 := long.2
    have wrapped : Int.bmod n 18446744073709551616 = n :=
      Int.bmod_eq_of_le (by omega) (by omega)
    simp only [ofDecimal, digits, nonempty, all, if_false, if_true, Nat.ofDigitChars_ten_toDigits,
      Int.toNat_of_nonneg positive, wrapped]

/-! ## Hex texts -/

def hexValue (c : Char) : Option Nat :=
  if '0' ≤ c ∧ c ≤ '9' then some (c.toNat - 48)
  else if 'a' ≤ c ∧ c ≤ 'f' then some (c.toNat - 87)
  else if 'A' ≤ c ∧ c ≤ 'F' then some (c.toNat - 55)
  else none

/-- `Buffer.from(text, "hex")`: bytes up to the first pair that is no byte. -/
def decodePairs : List Char → Bytes
  | high :: low :: rest =>
      match hexValue high, hexValue low with
      | some high, some low => UInt8.ofNat (16 * high + low) :: decodePairs rest
      | _, _ => []
  | _ => []

/-- `hex.decode` -/
def hexDecode (text : String) : Bytes :=
  match text.toList with
  | '0' :: 'x' :: digits => decodePairs digits
  | digits => decodePairs digits

def PublicKey.fromString (decoders : Decoders) (text : String) : Except String PublicKey :=
  fromBytes decoders (hexDecode text)

/-- `text.length`, in units of UTF-16. -/
def utf16Length (text : String) : Nat :=
  (text.toList.map fun c => if c.toNat < 65536 then 1 else 2).sum

/-! ## The helpers -/

namespace EntityIdHelper

structure Match where
  first : List Char
  realmAndNum : Option (List Char × List Char)
  checksum : Option (List Char)

def isHex (c : Char) : Bool := (hexValue c).isSome

def isLetter (c : Char) : Bool := decide ('a' ≤ c ∧ c ≤ 'z')

/-- `(?:\.(\d+)\.([a-fA-F0-9]+))?`, with the rest of the text. -/
def matchRealmAndNum : List Char → Option (Option (List Char × List Char) × List Char)
  | '.' :: text =>
      match text.takeWhile Char.isDigit, text.dropWhile Char.isDigit with
      | [], _ => none
      | realm, '.' :: text =>
          match text.takeWhile isHex with
          | [] => none
          | num => some (some (realm, num), text.dropWhile isHex)
      | _, _ => none
  | text => some (none, text)

/-- `(?:-([a-z]{5}))?$` -/
def matchChecksum : List Char → Option (Option (List Char))
  | [] => some none
  | '-' :: letters =>
      if letters.length = 5 ∧ letters.all isLetter then some (some letters) else none
  | _ => none

/-- `ENTITY_ID_REGEX`: a number, or a shard, a realm and a number or hex text, and
then a checksum or nothing. -/
def exec (text : List Char) : Option Match :=
  match text.takeWhile Char.isDigit with
  | [] => none
  | first =>
      (matchRealmAndNum (text.dropWhile Char.isDigit)).bind fun (realmAndNum, rest) =>
        (matchChecksum rest).map fun checksum => { first, realmAndNum, checksum }

structure Parts where
  shard : String
  realm : String
  numOrHex : String
  checksum : Option String

def Match.parts (found : Match) : Parts :=
  let checksum := found.checksum.map String.ofList
  match found.realmAndNum with
  | none => { shard := "0", realm := "0", numOrHex := .ofList found.first, checksum }
  | some (realm, num) =>
      { shard := .ofList found.first, realm := .ofList realm, numOrHex := .ofList num, checksum }

def fromStringSplitter (text : String) : Except JsError Parts :=
  match exec text.toList with
  | none => .error (.error s!"failed to parse entity id: {text}")
  | some found => .ok found.parts

/-- `constructor` -/
def construct (shard realm num : Int) : Except JsError EntityId :=
  if shard < 0 ∨ realm < 0 ∨ num < 0 then
    .error (.error "negative numbers are not allowed in IDs")
  else .ok { shard, realm, num }

variable (longs : LongReader)

/-- The numbers and the checksum of a text. No text is `NaN`. -/
def fromString (text : String) : Except JsError (Int × Int × Int × Option String) := do
  let result ← fromStringSplitter text
  let shard ← longs.fromString result.shard
  let realm ← longs.fromString result.realm
  let num ← longs.fromString result.numOrHex
  return (shard, realm, num, result.checksum)

def validateChecksum (id : EntityId) (ledgerId : Option Bytes) : Except JsError Unit :=
  match ledgerId, id.checksum with
  | some ledgerId, some present =>
      let text := s!"{id.shard}.{id.realm}.{id.num}"
      let expectedChecksum := HederaSdk.checksum ledgerId text
      if present = expectedChecksum then .ok ()
      else .error (.badEntityId text present expectedChecksum)
  | _, _ => .ok ()

def toStringWithChecksum (string : String) : Option Bytes → Except JsError String
  | none => .error (.error ("cannot calculate checksum with a client that does not contain " ++
      "a recognzied ledger ID"))
  | some ledgerId => .ok s!"{string}-{HederaSdk.checksum ledgerId string}"

end EntityIdHelper

/-! ## The classes -/

inductive EntityClass where
  | accountId
  | contractId
  | fileId
  | topicId
  | tokenId
  | scheduleId
  deriving DecidableEq, Repr

variable (longs : LongReader) (decoders : PublicKey.Decoders)

/-- `fromString` of the classes that keep what the helper has read. -/
def EntityId.read (text : String) : Except JsError EntityId := do
  let (shard, realm, num, checksum) ← EntityIdHelper.fromString longs text
  let id ← EntityIdHelper.construct shard realm num
  return { id with checksum }

def FileId.fromString : String → Except JsError EntityId := EntityId.read longs
def TopicId.fromString : String → Except JsError EntityId := EntityId.read longs
def TokenId.fromString : String → Except JsError EntityId := EntityId.read longs
def ScheduleId.fromString : String → Except JsError EntityId := EntityId.read longs

/-- The text of an id as it stands, also of one that was read with a short address. -/
def EntityId.toString (id : EntityId) : String :=
  let account :=
    match id.aliasKey, id.evmAddress with
    | some key, _ => key.toString
    | none, some address => hexEncode address
    | none, none => s!"{id.num}"
  s!"{id.shard}.{id.realm}.{account}"

/-- The text is not split when it has the length of an EVM address. -/
def AccountId.fromString (text : String) : Except JsError EntityId := do
  if (text.startsWith "0x" && utf16Length text == 42) || utf16Length text == 40 then
    let id ← EntityIdHelper.construct 0 0 0
    return { id with evmAddress := some (hexDecode text) }
  else
    let result ← EntityIdHelper.fromStringSplitter text
    let shard ← longs.fromString result.shard
    let realm ← longs.fromString result.realm
    if result.numOrHex.length < 20 then
      let num ← longs.fromString result.numOrHex
      EntityIdHelper.construct shard realm num
    else if result.numOrHex.length = 40 then
      let id ← EntityIdHelper.construct shard realm 0
      return { id with evmAddress := some (hexDecode result.numOrHex) }
    else
      let key ← (PublicKey.fromString decoders result.numOrHex).mapError JsError.error
      let id ← EntityIdHelper.construct shard realm 0
      return { id with aliasKey := some key }

def ContractId.fromString (text : String) : Except JsError EntityId := do
  let result ← EntityIdHelper.fromStringSplitter text
  let shard ← longs.fromString result.shard
  let realm ← longs.fromString result.realm
  if result.numOrHex.length < 40 then
    let num ← longs.fromString result.numOrHex
    EntityIdHelper.construct shard realm num
  else
    let id ← EntityIdHelper.construct shard realm 0
    return { id with evmAddress := some (hexDecode result.numOrHex) }

namespace EntityClass

def fromString : EntityClass → String → Except JsError EntityId
  | accountId => AccountId.fromString longs decoders
  | contractId => ContractId.fromString longs
  | fileId => FileId.fromString longs
  | topicId => TopicId.fromString longs
  | tokenId => TokenId.fromString longs
  | scheduleId => ScheduleId.fromString longs

/-- Accounts are asked for an alias key first. -/
def withoutAliasKey (cls : EntityClass) (id : EntityId) : Except JsError Unit :=
  if cls = accountId ∧ id.aliasKey.isSome then
    .error (.error "cannot calculate checksum with an account ID that has a aliasKey")
  else .ok ()

def toStringWithChecksum (cls : EntityClass) (id : EntityId) (ledgerId : Option Bytes) :
    Except JsError String := do
  cls.withoutAliasKey id
  EntityIdHelper.toStringWithChecksum id.toString ledgerId

def validateChecksum (cls : EntityClass) (id : EntityId) (ledgerId : Option Bytes) :
    Except JsError Unit := do
  cls.withoutAliasKey id
  EntityIdHelper.validateChecksum id ledgerId

/-- `clone`, which every class writes in the same way. -/
def clone (_ : EntityClass) (id : EntityId) : Except JsError EntityId :=
  (EntityIdHelper.construct id.shard id.realm id.num).map fun copy =>
    { copy with aliasKey := id.aliasKey, evmAddress := id.evmAddress, checksum := id.checksum }

end EntityClass

/-! ## What the pattern captures -/

namespace EntityIdHelper

/-- Five lower-case letters. -/
def IsChecksum (letters : List Char) : Prop := letters.length = 5 ∧ letters.all isLetter = true

instance (letters : List Char) : Decidable (IsChecksum letters) :=
  inferInstanceAs (Decidable (_ ∧ _))

theorem matchRealmAndNum_append (text letters : List Char) :
    matchRealmAndNum (text ++ '-' :: letters) =
      (matchRealmAndNum text).map fun found => (found.1, found.2 ++ '-' :: letters) := by
  cases text with
  | nil => rfl
  | cons c text =>
      by_cases dot : c = '.'
      · subst dot
        have notDigit : ('-').isDigit = false := rfl
        have notHex : isHex '-' = false := rfl
        simp only [List.cons_append, matchRealmAndNum,
          Text.takeWhile_append_stop notDigit, Text.dropWhile_append_stop notDigit]
        cases realm : text.takeWhile Char.isDigit with
        | nil => rfl
        | cons digit realm =>
            cases behind : text.dropWhile Char.isDigit with
            | nil => rfl
            | cons d rest =>
                by_cases again : d = '.'
                · subst again
                  simp only [List.cons_append, Text.takeWhile_append_stop notHex,
                    Text.dropWhile_append_stop notHex]
                  cases rest.takeWhile isHex <;> rfl
                · simp [again]
      · simp [matchRealmAndNum, dot]

theorem matchChecksum_append {letters : List Char} (five : IsChecksum letters) (text : List Char) :
    matchChecksum (text ++ '-' :: letters) =
      if text = [] then some (some letters) else none := by
  cases text with
  | nil =>
      obtain ⟨length, all⟩ := five
      simp [matchChecksum, length, all]
  | cons c text =>
      by_cases dash : c = '-'
      · subst dash
        have longer : ¬ (text ++ '-' :: letters).length = 5 := by
          have := five.1
          rw [List.length_append, List.length_cons]
          omega
        simp only [List.cons_append, matchChecksum, longer, false_and, if_false,
          reduceCtorEq]
      · simp [matchChecksum, dash]

theorem matchChecksum_eq_none {text : List Char} : matchChecksum text = some none ↔ text = [] := by
  cases text with
  | nil => simp [matchChecksum]
  | cons c text =>
      by_cases dash : c = '-'
      · subst dash
        simp [matchChecksum]
      · simp [matchChecksum, dash]

/-- Letters behind a text are its checksum, when the text has none. -/
theorem exec_append {letters : List Char} (five : IsChecksum letters) (text : List Char) :
    exec (text ++ '-' :: letters) =
      ((exec text).filter fun found => found.checksum.isNone).map fun found =>
        { found with checksum := some letters } := by
  have notDigit : ('-').isDigit = false := rfl
  simp only [exec, Text.takeWhile_append_stop notDigit, Text.dropWhile_append_stop notDigit]
  cases text.takeWhile Char.isDigit with
  | nil => rfl
  | cons digit first =>
      simp only [matchRealmAndNum_append]
      cases matchRealmAndNum (text.dropWhile Char.isDigit) with
      | none => rfl
      | some found =>
          obtain ⟨realmAndNum, rest⟩ := found
          simp only [Option.map_some, Option.bind_some, matchChecksum_append five]
          by_cases nothing : rest = []
          · subst nothing
            rfl
          · cases read : matchChecksum rest with
            | none => simp [nothing]
            | some checksum =>
                cases checksum with
                | none => exact absurd (matchChecksum_eq_none.mp read) nothing
                | some before =>
                    rw [if_neg nothing]
                    rfl

end EntityIdHelper

/-! ## Reading -/

namespace EntityIdHelper

@[simp] theorem Match.checksum_parts (found : Match) :
    found.parts.checksum = found.checksum.map String.ofList := by
  rcases found with ⟨first, _ | realmAndNum, checksum⟩ <;> rfl

theorem fromStringSplitter_eq_ok {text : String} {parts : Parts} :
    fromStringSplitter text = .ok parts ↔ ∃ found, exec text.toList = some found ∧
      found.parts = parts := by
  rw [fromStringSplitter]
  cases exec text.toList <;> simp

theorem toList_withChecksum (digits letters : String) :
    s!"{digits}-{letters}".toList = digits.toList ++ '-' :: letters.toList := by simp

/-- What a text without a checksum is split into, before a checksum is added. -/
theorem fromStringSplitter_append {letters digits : String} (five : IsChecksum letters.toList)
    {parts : Parts} (split_ : fromStringSplitter digits = .ok parts)
    (bare : parts.checksum = none) :
    fromStringSplitter s!"{digits}-{letters}" = .ok { parts with checksum := some letters } := by
  obtain ⟨found, captured, rfl⟩ := fromStringSplitter_eq_ok.mp split_
  apply fromStringSplitter_eq_ok.mpr
  refine ⟨{ found with checksum := some letters.toList }, ?_, ?_⟩
  · have none : found.checksum = none := by simpa using bare
    rw [toList_withChecksum, exec_append five, captured, Option.filter_some_pos (by simp [none])]
    rfl
  · rcases found with ⟨first, _ | realmAndNum, checksum⟩ <;> simp [Match.parts]

/-- Letters behind a text that can be split are the checksum that is read. -/
theorem checksum_fromStringSplitter {letters digits : String} (five : IsChecksum letters.toList)
    {parts : Parts} (split_ : fromStringSplitter s!"{digits}-{letters}" = .ok parts) :
    parts.checksum = some letters := by
  obtain ⟨found, captured, rfl⟩ := fromStringSplitter_eq_ok.mp split_
  rw [toList_withChecksum, exec_append five] at captured
  obtain ⟨before, _, rfl⟩ := Option.map_eq_some_iff.mp captured
  simp

theorem fromString_eq_ok {text : String} {result : Int × Int × Int × Option String} :
    fromString longs text = .ok result ↔
      ∃ parts, fromStringSplitter text = .ok parts ∧ longs.fromString parts.shard = .ok result.1 ∧
        longs.fromString parts.realm = .ok result.2.1 ∧
        longs.fromString parts.numOrHex = .ok result.2.2.1 ∧ parts.checksum = result.2.2.2 := by
  obtain ⟨shard, realm, num, checksum⟩ := result
  rw [fromString, except_bind_eq_ok]
  refine exists_congr fun parts => and_congr_right fun _ => ?_
  rw [except_bind_eq_ok]
  constructor
  · rintro ⟨_, shards, read⟩
    obtain ⟨_, realms, read⟩ := except_bind_eq_ok.mp read
    obtain ⟨_, nums, read⟩ := except_bind_eq_ok.mp read
    cases read
    exact ⟨shards, realms, nums, rfl⟩
  · rintro ⟨shards, realms, nums, rfl⟩
    refine ⟨shard, shards, ?_⟩
    rw [realms, nums]
    rfl

theorem construct_eq_ok {shard realm num : Int} {id : EntityId}
    (made : construct shard realm num = .ok id) :
    id = { shard, realm, num } ∧ 0 ≤ shard ∧ 0 ≤ realm ∧ 0 ≤ num := by
  rw [construct] at made
  split at made
  · cases made
  · cases made
    refine ⟨rfl, ?_⟩
    omega

end EntityIdHelper

namespace EntityId

open EntityIdHelper

/-- An id that is named by its number. It may have a checksum already. -/
structure Numbered (id : EntityId) : Prop where
  shard : 0 ≤ id.shard ∧ IsLong id.shard
  realm : 0 ≤ id.realm ∧ IsLong id.realm
  num : 0 ≤ id.num ∧ IsLong id.num
  aliasKey : id.aliasKey = none
  evmAddress : id.evmAddress = none

theorem Numbered.toString_eq {id : EntityId} (numbered : id.Numbered) :
    id.toString = s!"{id.shard}.{id.realm}.{id.num}" := by
  simp [EntityId.toString, numbered.aliasKey, numbered.evmAddress]

theorem read_eq_ok {text : String} {id : EntityId} : read longs text = .ok id ↔
    ∃ shard realm num checksum made,
      EntityIdHelper.fromString longs text = .ok (shard, realm, num, checksum) ∧
        construct shard realm num = .ok made ∧ id = { made with checksum } := by
  rw [read, except_bind_eq_ok]
  constructor
  · rintro ⟨⟨shard, realm, num, checksum⟩, numbers, rest⟩
    obtain ⟨made, constructed, rest⟩ := except_bind_eq_ok.mp rest
    cases rest
    exact ⟨shard, realm, num, checksum, made, numbers, constructed, rfl⟩
  · rintro ⟨shard, realm, num, checksum, made, numbers, constructed, rfl⟩
    refine ⟨_, numbers, ?_⟩
    simp only [constructed]
    rfl

/-- What is read from a text without a checksum, before a checksum is added. -/
theorem read_append {letters digits : String} (five : IsChecksum letters.toList) {id : EntityId}
    (found : read longs digits = .ok { id with checksum := none }) :
    read longs s!"{digits}-{letters}" = .ok { id with checksum := some letters } := by
  obtain ⟨shard, realm, num, checksum, made, numbers, constructed, same⟩ :=
    (read_eq_ok longs).mp found
  obtain ⟨parts, split_, shards, realms, nums, none⟩ := (fromString_eq_ok longs).mp numbers
  have bare : checksum = .none := congrArg EntityId.checksum same.symm
  have numbersSame : { id with checksum := some letters } =
      { made with checksum := some letters } :=
    congrArg (fun id => { id with checksum := some letters }) same
  apply (read_eq_ok longs).mpr
  refine ⟨shard, realm, num, some letters, made, ?_, constructed, numbersSame⟩
  apply (fromString_eq_ok longs).mpr
  have split' := fromStringSplitter_append five split_ (none.trans bare)
  exact ⟨_, split', shards, realms, nums, rfl⟩

/-- A checksum that was given is kept. -/
theorem checksum_read {letters digits : String} (five : IsChecksum letters.toList) {id : EntityId}
    (found : read longs s!"{digits}-{letters}" = .ok id) : id.checksum = some letters := by
  obtain ⟨shard, realm, num, checksum, made, numbers, _, rfl⟩ := (read_eq_ok longs).mp found
  obtain ⟨parts, split_, _, _, _, kept⟩ := (fromString_eq_ok longs).mp numbers
  exact kept.symm.trans (checksum_fromStringSplitter five split_)

end EntityId

namespace EntityIdHelper

open EntityId

theorem isDigit_isHex : ∀ c : Char, c.isDigit = true → isHex c = true := by
  intro c digit
  have bounds : '0' ≤ c ∧ c ≤ '9' := by
    simpa [Char.isDigit, Char.le_def] using digit
  simp [isHex, hexValue, bounds]

/-- A text of digits is a number. -/
theorem exec_bare {first : List Char} (nonempty : first ≠ []) (digits : ∀ c ∈ first, c.isDigit = true) :
    exec first = some ⟨first, none, none⟩ := by
  obtain ⟨d, rest, shape⟩ := List.exists_cons_of_ne_nil nonempty
  have taken := Text.takeWhile_all digits
  have dropped := Text.dropWhile_all digits
  rw [shape] at taken dropped ⊢
  simp only [exec, taken, dropped]
  rfl

/-- Digits, digits and hex digits with dots between them are a shard, a realm and a number. -/
theorem exec_separated {shard realm num : List Char} (someShard : shard ≠ []) (someRealm : realm ≠ [])
    (someNum : num ≠ []) (shards : ∀ c ∈ shard, c.isDigit = true) (realms : ∀ c ∈ realm, c.isDigit = true)
    (hex : ∀ c ∈ num, isHex c = true) :
    exec (shard ++ '.' :: (realm ++ '.' :: num)) = some ⟨shard, some (realm, num), none⟩ := by
  have dot : ('.').isDigit = false := rfl
  have realmAndNum : matchRealmAndNum ('.' :: (realm ++ '.' :: num)) = some (some (realm, num), []) := by
    obtain ⟨d, rest, realmShape⟩ := List.exists_cons_of_ne_nil someRealm
    obtain ⟨e, rest', numShape⟩ := List.exists_cons_of_ne_nil someNum
    simp only [matchRealmAndNum, Text.takeWhile_append_stop dot, Text.dropWhile_append_stop dot,
      Text.takeWhile_all realms, Text.dropWhile_all realms, List.nil_append]
    rw [numShape] at hex
    simp only [realmShape, numShape, Text.takeWhile_all hex, Text.dropWhile_all hex]
  obtain ⟨d, rest, shardShape⟩ := List.exists_cons_of_ne_nil someShard
  simp only [exec, Text.takeWhile_append_stop dot, Text.dropWhile_append_stop dot,
    Text.takeWhile_all shards, Text.dropWhile_all shards, List.nil_append, realmAndNum]
  simp only [shardShape]
  rfl

theorem exec_numbers {shard realm num : Int} (shards : 0 ≤ shard) (realms : 0 ≤ realm)
    (nums : 0 ≤ num) :
    exec (Text.decimal shard ++ '.' :: (Text.decimal realm ++ '.' :: Text.decimal num)) =
      some ⟨Text.decimal shard, some (Text.decimal realm, Text.decimal num), none⟩ := by
  have digits {n : Int} (positive : 0 ≤ n) : ∀ c ∈ Text.decimal n, c.isDigit = true :=
    fun c member => Text.isDigit_of_mem_decimal positive member
  exact exec_separated (Text.decimal_ne_nil shard) (Text.decimal_ne_nil realm) (Text.decimal_ne_nil num)
    (digits shards) (digits realms) fun c member => isDigit_isHex c (digits nums c member)

end EntityIdHelper

/-! ## Checksums -/

namespace EntityId

open EntityIdHelper

theorem checksum_eq (ledgerId : Bytes) (addr : String) : ∃ c, HederaSdk.checksum ledgerId addr =
    String.ofList ((List.range 5).reverse.map fun i => Char.ofNat (97 + c / base26 i % 26)) := ⟨_, rfl⟩

theorem isChecksum_checksum (ledgerId : Bytes) (addr : String) :
    IsChecksum (HederaSdk.checksum ledgerId addr).toList := by
  have letters : ∀ n : Fin 26, isLetter (Char.ofNat (97 + n)) = true := by decide
  have letter (n : Nat) (below : n < 26) : isLetter (Char.ofNat (97 + n)) = true := letters ⟨n, below⟩
  obtain ⟨c, same⟩ := checksum_eq ledgerId addr
  rw [same]
  constructor
  · simp
  · simp only [String.toList_ofList, List.all_map, List.all_eq_true]
    intro i _
    exact letter _ (Nat.mod_lt _ (by decide))

/-- An id of numbers is read from its text. -/
theorem read_toString (faithful : longs.Faithful) {id : EntityId} (numbered : id.Numbered) :
    read longs id.toString = .ok { id with checksum := none } := by
  obtain ⟨shard, shardLong⟩ := numbered.shard
  obtain ⟨realm, realmLong⟩ := numbered.realm
  obtain ⟨num, numLong⟩ := numbered.num
  have text : id.toString.toList = Text.decimal id.shard ++
      '.' :: (Text.decimal id.realm ++ '.' :: Text.decimal id.num) := by
    simp [numbered.toString_eq, Text.decimal]
  have decimal (n : Int) : String.ofList (Text.decimal n) = ToString.toString n := by
    simp [Text.decimal]
  apply (read_eq_ok longs).mpr
  refine ⟨id.shard, id.realm, id.num, none, { shard := id.shard, realm := id.realm, num := id.num },
    ?_, ?_, ?_⟩
  · apply (fromString_eq_ok longs).mpr
    refine ⟨_, fromStringSplitter_eq_ok.mpr ⟨_, text ▸ exec_numbers shard realm num, rfl⟩, ?_⟩
    simp only [Match.parts, decimal]
    exact ⟨faithful.fromString_toString _ shard shardLong,
      faithful.fromString_toString _ realm realmLong, faithful.fromString_toString _ num numLong, rfl⟩
  · rw [construct, if_neg (by omega)]
  · obtain ⟨_, _, _, aliasKey, evmAddress, checksum⟩ := id
    obtain ⟨_, _, _, rfl, rfl⟩ := numbered
    rfl

/-- The checksum in a text decides whether a client accepts the id. -/
structure ChecksumGuards (cls : EntityClass) (ledgerId : Bytes) (id : EntityId) : Prop where
  /-- With the checksum of the ledger the id is read and accepted. -/
  accepts : ∃ text parsed, cls.toStringWithChecksum id (some ledgerId) = .ok text ∧
    cls.fromString longs decoders text = .ok parsed ∧
    parsed = { id with checksum := some (HederaSdk.checksum ledgerId id.toString) } ∧
    cls.validateChecksum parsed (some ledgerId) = .ok ()
  /-- Without one its digits are read. -/
  reads : cls.fromString longs decoders id.toString = .ok { id with checksum := none }
  /-- With another one behind its digits, however they are written, it is read and refused. -/
  refuses : ∀ digits letters : String,
    cls.fromString longs decoders digits = .ok { id with checksum := none } →
    IsChecksum letters.toList → letters ≠ HederaSdk.checksum ledgerId id.toString →
    ∃ parsed, cls.fromString longs decoders s!"{digits}-{letters}" = .ok parsed ∧
      cls.validateChecksum parsed (some ledgerId) =
        .error (.badEntityId id.toString letters (HederaSdk.checksum ledgerId id.toString))
  /-- No checksum is ignored, whatever it stands behind. -/
  keeps : ∀ (digits letters : String) (parsed : EntityId), IsChecksum letters.toList →
    cls.fromString longs decoders s!"{digits}-{letters}" = .ok parsed →
    parsed.checksum = some letters

variable {longs decoders}

theorem checksum_of_construct {shard realm num : Int} {id : EntityId}
    (made : construct shard realm num = .ok id) : id.checksum = none := by
  rw [(construct_eq_ok made).1]

/-- An account is built without the checksum of its text. -/
theorem checksum_accountId {text : String} {id : EntityId}
    (found : AccountId.fromString longs decoders text = .ok id) : id.checksum = none := by
  rw [AccountId.fromString] at found
  split at found
  · obtain ⟨made, constructed, rest⟩ := except_bind_eq_ok.mp found
    cases rest
    have bare := checksum_of_construct constructed
    exact bare
  · obtain ⟨parts, _, rest⟩ := except_bind_eq_ok.mp found
    obtain ⟨shard, _, rest⟩ := except_bind_eq_ok.mp rest
    obtain ⟨realm, _, rest⟩ := except_bind_eq_ok.mp rest
    split at rest
    · obtain ⟨num, _, rest⟩ := except_bind_eq_ok.mp rest
      exact checksum_of_construct rest
    · split at rest
      · obtain ⟨made, constructed, rest⟩ := except_bind_eq_ok.mp rest
        cases rest
        have bare := checksum_of_construct constructed
        exact bare
      · obtain ⟨key, _, rest⟩ := except_bind_eq_ok.mp rest
        obtain ⟨made, constructed, rest⟩ := except_bind_eq_ok.mp rest
        cases rest
        have bare := checksum_of_construct constructed
        exact bare

/-- So is a contract. -/
theorem checksum_contractId {text : String} {id : EntityId}
    (found : ContractId.fromString longs text = .ok id) : id.checksum = none := by
  obtain ⟨parts, _, rest⟩ := except_bind_eq_ok.mp found
  obtain ⟨shard, _, rest⟩ := except_bind_eq_ok.mp rest
  obtain ⟨realm, _, rest⟩ := except_bind_eq_ok.mp rest
  split at rest
  · obtain ⟨num, _, rest⟩ := except_bind_eq_ok.mp rest
    exact checksum_of_construct rest
  · obtain ⟨made, constructed, rest⟩ := except_bind_eq_ok.mp rest
    cases rest
    have bare := checksum_of_construct constructed
    exact bare

/-- The classes that read an id with the shared helper. -/
theorem fromString_eq_read {cls : EntityClass} (noAccount : cls ≠ .accountId)
    (noContract : cls ≠ .contractId) : cls.fromString longs decoders = read longs := by
  cases cls <;> first | rfl | contradiction

theorem validateChecksum_eq {cls : EntityClass} (noAccount : cls ≠ .accountId) (id : EntityId)
    (ledgerId : Option Bytes) :
    cls.validateChecksum id ledgerId = EntityIdHelper.validateChecksum id ledgerId := by
  simp [EntityClass.validateChecksum, EntityClass.withoutAliasKey, noAccount, bind, Except.bind]

theorem validateChecksum_numbered {id : EntityId} (numbered : id.Numbered) (ledgerId : Bytes)
    (letters : String) :
    EntityIdHelper.validateChecksum { id with checksum := some letters } (some ledgerId) =
      if letters = HederaSdk.checksum ledgerId id.toString then .ok ()
      else .error (.badEntityId id.toString letters (HederaSdk.checksum ledgerId id.toString)) := by
  rw [numbered.toString_eq]
  rfl

/-- A copy of an id that was read has the checksum too. -/
theorem clone_of_read {text : String} {id : EntityId} (found : read longs text = .ok id)
    (cls : EntityClass) : cls.clone id = .ok id := by
  obtain ⟨shard, realm, num, checksum, made, _, constructed, rfl⟩ := (read_eq_ok longs).mp found
  obtain ⟨rfl, _⟩ := construct_eq_ok constructed
  rw [EntityClass.clone, constructed]
  rfl

/-- The checksum is heeded by the classes that read ids with the shared helper, and by
no other. -/
theorem checksumGuards_iff (faithful : longs.Faithful) (cls : EntityClass) (ledgerId : Bytes)
    {id : EntityId} (numbered : id.Numbered) :
    ChecksumGuards longs decoders cls ledgerId id ↔ cls ≠ .accountId ∧ cls ≠ .contractId := by
  constructor
  · rintro ⟨⟨text, parsed, _, found, same, _⟩, _, _, _⟩
    have given : parsed.checksum ≠ none := by simp [same]
    refine ⟨?_, ?_⟩
    · rintro rfl
      exact given (checksum_accountId found)
    · rintro rfl
      exact given (checksum_contractId found)
  · rintro ⟨noAccount, noContract⟩
    have reads := read_toString longs faithful numbered
    have reading := @fromString_eq_read longs decoders cls noAccount noContract
    constructor
    · refine ⟨s!"{id.toString}-{HederaSdk.checksum ledgerId id.toString}", _, ?_, ?_, rfl, ?_⟩
      · simp [EntityClass.toStringWithChecksum, EntityClass.withoutAliasKey, noAccount, bind,
          Except.bind, EntityIdHelper.toStringWithChecksum]
      · rw [reading]
        exact read_append longs (isChecksum_checksum ledgerId id.toString) reads
      · rw [validateChecksum_eq noAccount, validateChecksum_numbered numbered, if_pos rfl]
    · rw [reading]
      exact reads
    · intro digits letters found five other
      rw [reading] at found ⊢
      refine ⟨_, read_append longs five found, ?_⟩
      rw [validateChecksum_eq noAccount, validateChecksum_numbered numbered, if_neg other]
    · intro digits letters parsed five found
      rw [reading] at found
      exact checksum_read longs five found

theorem numbered_sample : ({ shard := 0, realm := 0, num := 123 } : EntityId).Numbered where
  shard := by decide
  realm := by decide
  num := by decide
  aliasKey := rfl
  evmAddress := rfl

/-- A decoder that accepts nothing. -/
def noDecoders : PublicKey.Decoders where
  forge _ := .error "no ed25519 key"
  elliptic _ := .error "no point"

theorem token_is_guarded :
    ChecksumGuards .ofDecimal noDecoders .tokenId [0] { shard := 0, realm := 0, num := 123 } :=
  (checksumGuards_iff LongReader.ofDecimal_faithful .tokenId [0] numbered_sample).mpr
    ⟨by decide, by decide⟩

/-- `0.0.123-vfmkw` is an account of the main network, and `0.0.123-aaaaa` is accepted. -/
theorem account_ignores_checksum :
    AccountId.fromString .ofDecimal noDecoders "0.0.123-aaaaa" =
        .ok { shard := 0, realm := 0, num := 123 } ∧
      EntityClass.accountId.validateChecksum { shard := 0, realm := 0, num := 123 } (some [0]) = .ok () ∧
      ¬ ChecksumGuards .ofDecimal noDecoders .accountId [0] { shard := 0, realm := 0, num := 123 } := by
  refine ⟨by decide +kernel, rfl, ?_⟩
  rintro ⟨⟨text, parsed, _, found, same, _⟩, _, _, _⟩
  have bare := checksum_accountId found
  rw [same] at bare
  cases bare

end EntityId

/-! ## Accounts of the model -/

namespace AccountId

def toEntityId (id : AccountId) : EntityId where
  shard := id.shard
  realm := id.realm
  num := id.num
  aliasKey := id.aliasKey
  evmAddress := id.evmAddress.map Subtype.val
  checksum := id.checksum

theorem toString_toEntityId (id : AccountId) : id.toEntityId.toString = id.toString := by
  obtain ⟨shard, realm, num, aliasKey, evmAddress, checksum⟩ := id
  cases aliasKey <;> cases evmAddress <;> rfl

theorem validateChecksum_toEntityId (id : AccountId) (ledgerId : Option Bytes) :
    EntityClass.accountId.validateChecksum id.toEntityId ledgerId = id.validateChecksum ledgerId := by
  cases key : id.aliasKey with
  | some aliasKey =>
      simp [EntityClass.validateChecksum, EntityClass.withoutAliasKey, AccountId.validateChecksum, toEntityId,
        key, bind, Except.bind]
  | none =>
      have keyless : EntityClass.accountId.validateChecksum id.toEntityId ledgerId =
          EntityIdHelper.validateChecksum id.toEntityId ledgerId := by
        rw [EntityClass.validateChecksum, EntityClass.withoutAliasKey]
        simp [toEntityId, key, bind, Except.bind]
      rw [keyless]
      cases ledgerId with
      | none => simp [EntityIdHelper.validateChecksum, AccountId.validateChecksum, key]
      | some ledgerId =>
          cases checksum : id.checksum with
          | none => simp [EntityIdHelper.validateChecksum, AccountId.validateChecksum, toEntityId, key, checksum]
          | some present =>
              simp [EntityIdHelper.validateChecksum, AccountId.validateChecksum, toEntityId, key, checksum]

end AccountId

end HederaSdk
