import HederaSdk.Cryptography.Hex
import HederaSdk.EntityId.Long

/-!
# Reading the text of an account id

An account id is printed as a shard, a realm and a number, an alias key or an EVM address.
The reader tells them apart by lengths: a text of 40 characters is an EVM address before
it is split, so a number whose text has 40 characters with its shard and realm is not
read back.
-/

namespace HederaSdk

open Library
open EntityIdHelper (isHex)

/-- `equals` of an account id, on what was read from a text. -/
def EntityId.equals (id other : EntityId) : Bool :=
  let account :=
    match id.aliasKey, other.aliasKey, id.evmAddress, other.evmAddress with
    | some key, some otherKey, _, _ => key.equals otherKey
    | _, _, some address, some otherAddress => decide (address = otherAddress)
    | none, none, none, none => decide (id.num = other.num)
    | _, _, _, _ => false
  decide (id.shard = other.shard) && decide (id.realm = other.realm) && account

/-- The library behind ed25519 keys reads a key in DER. -/
def PublicKey.Decoders.ReadsDer (decoders : PublicKey.Decoders) : Prop :=
  ∀ (raw : Bytes) (length : raw.length = 32),
    decoders.forge (PublicKey.ed25519DerPrefix ++ raw) = .ok ⟨raw, length⟩

theorem PublicKey.fromBytes_toBytesDer {decoders : Decoders} (readsDer : decoders.ReadsDer) (key : PublicKey) :
    fromBytes decoders key.toBytesDer = .ok key := by
  obtain ⟨type, raw, valid⟩ := key
  cases type with
  | ed25519 =>
      have length : raw.length = 32 := valid
      have read := readsDer raw length
      have der : (ed25519DerPrefix ++ raw).length = 44 := by
        rw [List.length_append, length]
        rfl
      change fromBytes decoders (ed25519DerPrefix ++ raw) = _
      rw [fromBytes, fromBytesEd25519, dif_neg (by omega), if_pos der, read]
  | secp256k1 =>
      have length : raw.length = 33 := valid
      simp [fromBytes, fromBytesEd25519, fromBytesEcdsa, toBytesDer, legacyDerPrefix, length]

namespace AccountId

/-- The numbers of an id are those of a `Long` that is not negative. -/
structure InRange (id : AccountId) : Prop where
  shard : 0 ≤ id.shard ∧ IsLong id.shard
  realm : 0 ≤ id.realm ∧ IsLong id.realm
  num : 0 ≤ id.num ∧ IsLong id.num

variable (decoders : PublicKey.Decoders)

/-- The text of an id is read as the id, and no other id has it. -/
structure ReadsBack (id : AccountId) : Prop where
  reads : ∃ read, fromString Long.fromString decoders id.toString = .ok read ∧
    read.equals id.toEntityId = true
  single : ∀ other : AccountId, other.InRange → other.toString = id.toString → other.equals id = true

/-- A number whose text has 40 characters. -/
def LooksLikeEvmAddress (id : AccountId) : Prop :=
  id.aliasKey = none ∧ id.evmAddress = none ∧ id.toString.length = 40

/-! ## The text -/

theorem isHex_hexDigit {n : Nat} (small : n < 16) : isHex (hexDigit n) = true := by
  rw [isHex, hexValue_hexDigit small]
  rfl

theorem isHex_of_mem_hexEncode {data : Bytes} {c : Char} (member : c ∈ (hexEncode data).toList) :
    isHex c = true := by
  rw [hexEncode, String.toList_ofList] at member
  obtain ⟨b, _, digit⟩ := List.mem_flatMap.mp member
  have bound := b.toNat_lt
  simp only [List.mem_cons, List.not_mem_nil, or_false] at digit
  rcases digit with rfl | rfl
  · exact isHex_hexDigit (by omega)
  · exact isHex_hexDigit (by omega)

theorem isHex_of_mem_text {id : AccountId} (range : id.InRange) {c : Char} (member : c ∈ id.name.text) :
    isHex c = true := by
  obtain ⟨shard, realm, num, aliasKey, evmAddress, checksum⟩ := id
  cases aliasKey with
  | some key => exact isHex_of_mem_hexEncode member
  | none =>
      cases evmAddress with
      | some address => exact isHex_of_mem_hexEncode member
      | none => exact EntityIdHelper.isDigit_isHex c (Text.isDigit_of_mem_decimal range.num.1 member)

theorem name_text_ne_nil (id : AccountId) : id.name.text ≠ [] := by
  obtain ⟨shard, realm, num, aliasKey, evmAddress, checksum⟩ := id
  have filled (data : Bytes) (some : data.length ≠ 0) : (hexEncode data).toList ≠ [] := by
    intro none
    have length := length_hexEncode data
    rw [none, List.length_nil] at length
    omega
  cases aliasKey with
  | some key =>
      have length := key.length_toBytesDer
      exact filled key.toBytesDer (by omega)
  | none =>
      cases evmAddress with
      | some address => exact filled address.1 (by rw [address.2]; decide)
      | none => exact Text.decimal_ne_nil num

theorem exec_toString {id : AccountId} (range : id.InRange) : EntityIdHelper.exec id.toString.toList =
    some ⟨Text.decimal id.shard, some (Text.decimal id.realm, id.name.text), none⟩ := by
  rw [toList_toString]
  exact EntityIdHelper.exec_separated (Text.decimal_ne_nil _) (Text.decimal_ne_nil _)
    (name_text_ne_nil id) (fun _ member => Text.isDigit_of_mem_decimal range.shard.1 member)
    (fun _ member => Text.isDigit_of_mem_decimal range.realm.1 member)
    fun _ member => isHex_of_mem_text range member

theorem lt_of_isHex {c : Char} (hex : isHex c = true) : c.toNat < 103 := by
  have below {c d : Char} (le : c ≤ d) : c.toNat ≤ d.toNat := UInt32.le_iff_toNat_le.mp (Char.le_def.mp le)
  rw [isHex, hexValue] at hex
  split at hex
  · rename_i digit
    have := below digit.2
    exact Nat.lt_of_le_of_lt this (by decide)
  · split at hex
    · rename_i lower
      have := below lower.2
      exact Nat.lt_of_le_of_lt this (by decide)
    · split at hex
      · rename_i upper
        have := below upper.2
        exact Nat.lt_of_le_of_lt this (by decide)
      · cases hex

theorem mem_toString {id : AccountId} (range : id.InRange) {c : Char} (member : c ∈ id.toString.toList) :
    c = '.' ∨ isHex c = true := by
  have decimal {n : Int} (positive : 0 ≤ n) (member : c ∈ Text.decimal n) : isHex c = true :=
    EntityIdHelper.isDigit_isHex c (Text.isDigit_of_mem_decimal positive member)
  simp only [toList_toString, List.mem_append, List.mem_cons] at member
  rcases member with inShard | dot | inRealm | dot | inName
  · exact .inr (decimal range.shard.1 inShard)
  · exact .inl dot
  · exact .inr (decimal range.realm.1 inRealm)
  · exact .inl dot
  · exact .inr (isHex_of_mem_text range inName)

/-- The text has hex digits and dots only, each a single unit of UTF-16. -/
theorem utf16Length_toString {id : AccountId} (range : id.InRange) :
    utf16Length id.toString = id.toString.length := by
  have units : id.toString.toList.map (fun c => if c.toNat < 65536 then 1 else 2) =
      id.toString.toList.map fun _ => 1 := by
    refine List.map_congr_left fun c member => if_pos ?_
    rcases mem_toString range member with rfl | hex
    · decide
    · have := lt_of_isHex hex
      omega
  rw [utf16Length, units, ← String.length_toList]
  simp

/-- The second character of a text is a digit or a dot. -/
theorem not_startsWith {id : AccountId} (range : id.InRange) : id.toString.startsWith "0x" = false := by
  rw [String.startsWith_string_eq_false_iff]
  rintro ⟨rest, same⟩
  have member : 'x' ∈ id.toString.toList := by
    rw [← same]
    simp
  rcases mem_toString range member with dot | hex
  · cases dot
  · cases hex

/-! ## Reading the text -/

theorem read_decimal {n : Int} (range : 0 ≤ n ∧ IsLong n) :
    Long.fromString.fromString (.ofList (Text.decimal n)) = .ok n := by
  have read := Long.fromString_faithful.fromString_toString n range.1 range.2
  have text : ToString.toString n = String.ofList (Text.decimal n) := by simp [Text.decimal]
  rwa [text] at read

/-- How the last part of a text is read. -/
def readAccount (shard realm : Int) (account : String) : Except JsError EntityId := do
  if account.length < 20 then
    let num ← Long.fromString.fromString account
    EntityIdHelper.construct shard realm num
  else if account.length = 40 then
    let id ← EntityIdHelper.construct shard realm 0
    return { id with evmAddress := some (hexDecode account) }
  else
    let key ← (PublicKey.fromString decoders account).mapError JsError.error
    let id ← EntityIdHelper.construct shard realm 0
    return { id with aliasKey := some key }

variable {decoders}

/-- A text that is not taken for an EVM address is split. -/
theorem fromString_toString {id : AccountId} (range : id.InRange) (split_ : id.toString.length ≠ 40) :
    fromString Long.fromString decoders id.toString =
      readAccount decoders id.shard id.realm (.ofList id.name.text) := by
  have whole : ¬ ((id.toString.startsWith "0x" && utf16Length id.toString == 42) ||
      utf16Length id.toString == 40) = true := by
    rw [not_startsWith range, utf16Length_toString range]
    simpa using split_
  have parts := EntityIdHelper.fromStringSplitter_eq_ok.mpr ⟨_, exec_toString range, rfl⟩
  rw [fromString, if_neg whole, parts]
  simp only [bind, Except.bind, EntityIdHelper.Match.parts, read_decimal range.shard,
    read_decimal range.realm]
  rfl

/-- The last part is read by its length. -/
theorem readAccount_name (readsDer : decoders.ReadsDer) {id : AccountId} (range : id.InRange) :
    ∃ read, readAccount decoders id.shard id.realm (.ofList id.name.text) = .ok read ∧
      read.equals id.toEntityId = true := by
  obtain ⟨shard, realm, num, aliasKey, evmAddress, checksum⟩ := id
  have shards : 0 ≤ shard := range.shard.1
  have realms : 0 ≤ realm := range.realm.1
  have made {n : Int} (positive : 0 ≤ n) : EntityIdHelper.construct shard realm n =
      .ok { shard, realm, num := n } := if_neg (by omega)
  cases aliasKey with
  | some key =>
      have text : String.ofList (AccountName.aliasKey key).text = key.toString := String.ofList_toList
      have longer : 88 ≤ key.toString.length := by
        have length := @AccountName.length_text (.aliasKey key) trivial
        rw [← String.length_toList]
        exact length
      have read : PublicKey.fromString decoders key.toString = .ok key := by
        rw [PublicKey.fromString, PublicKey.toString, hexDecode_hexEncode]
        exact PublicKey.fromBytes_toBytesDer readsDer key
      change ∃ read, readAccount decoders shard realm (.ofList (AccountName.aliasKey key).text) =
        .ok read ∧ _
      rw [text, readAccount, if_neg (by omega), if_neg (by omega), read]
      simp only [Except.mapError, bind, Except.bind, made le_rfl]
      exact ⟨_, rfl, by simp [EntityId.equals, toEntityId, PublicKey.equals]⟩
  | none =>
      cases evmAddress with
      | some address =>
          have text : String.ofList (AccountName.evmAddress address).text = hexEncode address.1 :=
            String.ofList_toList
          have length : (hexEncode address.1).length = 40 := by
            rw [← String.length_toList, length_hexEncode, address.2]
          change ∃ read, readAccount decoders shard realm (.ofList (AccountName.evmAddress address).text) =
            .ok read ∧ _
          rw [text, readAccount, if_neg (by omega), if_pos length, made le_rfl]
          simp only [bind, Except.bind, hexDecode_hexEncode]
          exact ⟨_, rfl, by simp [EntityId.equals, toEntityId]⟩
      | none =>
          have nums : 0 ≤ num ∧ IsLong num := range.num
          have short : (String.ofList (Text.decimal num)).length < 20 := by
            have digits : (Nat.toDigits 10 num.toNat).length ≤ 19 :=
              (Nat.length_toDigits_le_iff (by decide) (by decide)).mpr (by have := nums.2.2; omega)
            rw [String.length_ofList, Text.decimal_eq, if_pos nums.1]
            omega
          change ∃ read, readAccount decoders shard realm (.ofList (Text.decimal num)) = .ok read ∧ _
          rw [readAccount, if_pos short, read_decimal nums]
          simp only [bind, Except.bind, made nums.1]
          exact ⟨_, rfl, by simp [EntityId.equals, toEntityId]⟩

/-- A text of 40 characters is read as an EVM address. -/
theorem fromString_of_length {text : String} (length : utf16Length text = 40) :
    fromString Long.fromString decoders text =
      .ok { shard := 0, realm := 0, num := 0, evmAddress := some (hexDecode text) } := by
  rw [fromString, if_pos (by simp [length])]
  rfl

theorem InRange.isLong_name {id : AccountId} (range : id.InRange) : id.name.IsLong := by
  obtain ⟨shard, realm, num, aliasKey, evmAddress, checksum⟩ := id
  cases aliasKey <;> cases evmAddress <;> first | exact trivial | exact range.num.2

/-- Ids with one text are equal. -/
theorem equals_of_toString {id other : AccountId} (range : id.InRange) (rangeOther : other.InRange)
    (same : other.toString = id.toString) : other.equals id = true := by
  have identity := (toString_inj rangeOther.isLong_name range.isLong_name).mp same
  obtain ⟨shard, realm, num, aliasKey, evmAddress, checksum⟩ := id
  obtain ⟨shard', realm', num', aliasKey', evmAddress', checksum'⟩ := other
  simp only [AccountId.identity, Prod.mk.injEq] at identity
  obtain ⟨rfl, rfl, names⟩ := identity
  cases aliasKey <;> cases aliasKey' <;> cases evmAddress <;> cases evmAddress' <;>
    simp_all [name, equals, PublicKey.equals]

/-- A text of 40 characters has no room for a key or an address behind its dots. -/
theorem looksLikeEvmAddress_of_length {id : AccountId} (length : id.toString.length = 40) :
    LooksLikeEvmAddress id := by
  have shards := List.length_pos_iff.mpr (Text.decimal_ne_nil id.shard)
  have parts := congrArg List.length id.toList_toString
  rw [String.length_toList, length] at parts
  simp only [List.length_append, List.length_cons] at parts
  obtain ⟨shard, realm, num, aliasKey, evmAddress, checksum⟩ := id
  cases aliasKey with
  | some key =>
      have long : 88 ≤ (AccountName.aliasKey key).text.length :=
        @AccountName.length_text (.aliasKey key) trivial
      change 40 = _ + (_ + ((AccountName.aliasKey key).text.length + 1) + 1) at parts
      omega
  | none =>
      cases evmAddress with
      | some address =>
          have long : (AccountName.evmAddress address).text.length = 40 :=
            @AccountName.length_text (.evmAddress address) trivial
          change 40 = _ + (_ + ((AccountName.evmAddress address).text.length + 1) + 1) at parts
          omega
      | none => exact ⟨rfl, rfl, length⟩

/-- An id is read back exactly when it is no number whose text has 40 characters. -/
theorem readsBack_iff (readsDer : decoders.ReadsDer) {id : AccountId} (range : id.InRange) :
    ReadsBack decoders id ↔ ¬ LooksLikeEvmAddress id := by
  constructor
  · rintro ⟨⟨read, reading, same⟩, _⟩ ⟨noKey, noAddress, length⟩
    rw [fromString_of_length (by rw [utf16Length_toString range]; exact length)] at reading
    cases reading
    simp [EntityId.equals, toEntityId, noKey, noAddress] at same
  · intro other
    refine ⟨?_, fun _ rangeOther same => equals_of_toString range rangeOther same⟩
    rw [fromString_toString range ?_]
    · exact readAccount_name readsDer range
    · exact fun length => other (looksLikeEvmAddress_of_length length)

section Samples

/-- A library that takes the prefix from a key in DER. -/
def derDecoders : PublicKey.Decoders where
  forge data := if h : data.length = 44 then .ok ⟨data.drop 12, by simp [h]⟩ else .error "not DER"
  elliptic _ := .error "no point"

theorem derDecoders_readsDer : derDecoders.ReadsDer := by
  intro raw length
  have der : (PublicKey.ed25519DerPrefix ++ raw).length = 44 := by
    rw [List.length_append, length]
    rfl
  exact dif_pos der

def smallId : AccountId := { shard := 0, realm := 0, num := 123 }

theorem small_id_is_read_back : ReadsBack derDecoders smallId :=
  (readsBack_iff derDecoders_readsDer
    (show smallId.InRange from ⟨by decide, by decide, by decide⟩)).mpr fun looks =>
      absurd looks.2.2 (by decide +kernel)

/-- An id with a shard of 19 digits, a realm of 18 and a number of one. -/
def fortyId : AccountId := { shard := 1000000000000000000, realm := 100000000000000000, num := 5 }

theorem forty_characters_are_no_id :
    fortyId.toString = "1000000000000000000.100000000000000000.5" ∧
      fortyId.InRange ∧ ¬ ReadsBack derDecoders fortyId := by
  have text : fortyId.toString = "1000000000000000000.100000000000000000.5" := by decide +kernel
  refine ⟨text, ⟨by decide, by decide, by decide⟩, ?_⟩
  rintro ⟨⟨read, reading, same⟩, _⟩
  rw [fromString_of_length (by rw [text]; decide +kernel)] at reading
  cases reading
  exact absurd same (by decide +kernel)

end Samples

end AccountId

end HederaSdk
