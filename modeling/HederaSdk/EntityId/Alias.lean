import HederaSdk.EntityId.AccountText
import HederaSdk.Library.Base32

/-!
# Aliases

The alias of an account is the base-32 text of its key's message, or of its EVM address
where there is no key yet. Two readers tell the kinds apart by whether the bytes are a
message of a key. The reader of addresses throws for a message inside its own `try` and
catches it, so it returns an address for every alias.
-/

namespace HederaSdk.EntityIdHelper

/-- The fields of `proto.Key` that are looked at. -/
structure KeyMessage where
  ed25519 : Option Bytes := none
  ecdsaSecp256k1 : Option Bytes := none
  deriving DecidableEq

/-- What stands outside of the SDK: `base32` of rfc4648, the generated `proto.Key.decode`,
`arrayify` and the readers of keys. -/
structure AliasCodecs where
  stringify : Bytes → String
  parse : String → Except JsError Bytes
  decodeKey : Bytes → Except JsError KeyMessage
  arrayify : String → Except JsError Bytes
  decoders : PublicKey.Decoders

namespace AliasCodecs

variable (codecs : AliasCodecs)

/-- `base32.decode`: the empty text is falsy, and is returned. -/
def base32Decode (text : String) : Except JsError (Option Bytes) :=
  if text = "" then .ok none else (codecs.parse text).map some

/-- A field that is there and not empty. -/
def filled : Option Bytes → Option Bytes
  | some (b :: rest) => some (b :: rest)
  | _ => none

def publicKey (raw : Bytes) : Except JsError (Option PublicKey) :=
  ((PublicKey.fromBytes codecs.decoders raw).mapError JsError.error).map some

def aliasToPublicKey (text : String) : Except JsError (Option PublicKey) :=
  (codecs.base32Decode text).bind fun
    | none => .ok none
    | some bytes =>
        match codecs.decodeKey bytes with
        | .error _ => .error
            (.error "The alias is created with hollow account. Please use aliasToEvmAddress!")
        | .ok key =>
            match filled key.ed25519, filled key.ecdsaSecp256k1 with
            | some raw, _ => codecs.publicKey raw
            | none, some raw => codecs.publicKey raw
            | none, none => .ok none

def toHexString (bytes : Bytes) : String := "0x" ++ hexEncode bytes

/-- What stands in the `try`. -/
def requireNoKey (bytes : Bytes) : Except JsError (Option String) :=
  (codecs.decodeKey bytes).bind fun _ => .error (.error
    "The alias is created with ed25519 or ECDSASecp256k1 account. Please use aliasToPublicKey!")

def aliasToEvmAddress (text : String) : Except JsError (Option String) :=
  (codecs.base32Decode text).bind fun
    | none => .ok none
    | some bytes =>
        match codecs.requireNoKey bytes with
        | .ok result => .ok result
        | .error _ => .ok (some (toHexString bytes))

/-- The first bytes of the message. -/
def leadingHex : KeyType → String
  | .secp256k1 => "0x3A21"
  | .ed25519 => "0x1220"

def prefixed (hex : String) : String := if hex.startsWith "0x" then hex else "0x" ++ hex

def keyToAlias (key : PublicKey) : Except JsError String :=
  (codecs.arrayify (leadingHex key.type)).bind fun leadingBytes =>
    (codecs.arrayify (prefixed (hexEncode key.toBytesRaw))).map fun publicKeyBytes =>
      codecs.stringify (leadingBytes ++ publicKeyBytes)

/-- What an alias is made of. -/
inductive Source where
  | text (publicKey : String)
  | key (publicKey : PublicKey)

def publicKeyToAlias : Source → Except JsError String
  | .text publicKey =>
      if (publicKey.startsWith "0x" && utf16Length publicKey == 42) || utf16Length publicKey == 40 then
        (codecs.arrayify (prefixed publicKey)).map codecs.stringify
      else
        ((PublicKey.fromString codecs.decoders publicKey).mapError JsError.error).bind codecs.keyToAlias
  | .key key => codecs.keyToAlias key

/-! ## The packages -/

/-- The packages do what they are documented to do. -/
structure Faithful : Prop where
  parse_stringify : ∀ data, codecs.parse (codecs.stringify data) = .ok data
  stringify_ne : ∀ data, data ≠ [] → codecs.stringify data ≠ ""
  decodeKey_ed25519 : ∀ raw, raw.length = 32 →
    codecs.decodeKey (0x12 :: 0x20 :: raw) = .ok { ed25519 := some raw }
  decodeKey_ecdsa : ∀ raw, raw.length = 33 →
    codecs.decodeKey (0x3A :: 0x21 :: raw) = .ok { ecdsaSecp256k1 := some raw }
  arrayify_hex : ∀ digits : List Char, (∀ c ∈ digits, isHex c = true) → digits.length % 2 = 0 →
    codecs.arrayify (.ofList ('0' :: 'x' :: digits)) = .ok (decodePairs digits)

/-- What an alias can be made of for an account. -/
inductive Account where
  | key (key : PublicKey)
  | hollow (address : EvmAddress)

/-- The texts of an address: its 40 hex digits in any case, with `0x` or without. -/
inductive SpellsAddress (address : EvmAddress) : String → Prop
  | bare {digits : List Char} : digits.length = 40 → (∀ c ∈ digits, isHex c = true) →
      decodePairs digits = address.1 → SpellsAddress address (.ofList digits)
  | prefixed {digits : List Char} : digits.length = 40 → (∀ c ∈ digits, isHex c = true) →
      decodePairs digits = address.1 → SpellsAddress address (.ofList ('0' :: 'x' :: digits))

/-- The alias of a key is read as the key by one reader and refused by the other, and the
alias of an address is read as the address. -/
def ReadBack : Account → Prop
  | .key key => ∃ text, codecs.publicKeyToAlias (.key key) = .ok text ∧
      codecs.aliasToPublicKey text = .ok (some key) ∧ ∃ refused, codecs.aliasToEvmAddress text = .error refused
  | .hollow address => ∀ spelling, SpellsAddress address spelling →
      ∃ text, codecs.publicKeyToAlias (.text spelling) = .ok text ∧
        codecs.aliasToEvmAddress text = .ok (some (toHexString address.1))

/-! ## Reading aliases -/

variable {codecs}

theorem base32Decode_stringify (faithful : codecs.Faithful) {data : Bytes} (some_ : data ≠ []) :
    codecs.base32Decode (codecs.stringify data) = .ok (some data) := by
  rw [base32Decode, if_neg (faithful.stringify_ne data some_), faithful.parse_stringify]
  rfl

/-- The error of the `try` does not get out of it. -/
theorem aliasToEvmAddress_stringify (faithful : codecs.Faithful) {data : Bytes} (some_ : data ≠ []) :
    codecs.aliasToEvmAddress (codecs.stringify data) = .ok (some (toHexString data)) := by
  have caught : ∃ refused, codecs.requireNoKey data = .error refused := by
    rw [requireNoKey]
    cases codecs.decodeKey data with
    | error refused => exact ⟨refused, rfl⟩
    | ok key => exact ⟨_, rfl⟩
  obtain ⟨refused, failed⟩ := caught
  rw [aliasToEvmAddress, base32Decode_stringify faithful some_]
  simp only [Except.bind, failed]

/-- The message of a key. -/
def message (key : PublicKey) : Bytes :=
  match key.type with
  | .ed25519 => 0x12 :: 0x20 :: key.raw
  | .secp256k1 => 0x3A :: 0x21 :: key.raw

theorem prefixed_digits {digits : List Char} (hex : ∀ c ∈ digits, isHex c = true) :
    prefixed (.ofList digits) = .ofList ('0' :: 'x' :: digits) := by
  have bare : (String.ofList digits).startsWith "0x" = false := by
    rw [String.startsWith_string_eq_false_iff, @String.toList_ofList digits]
    rintro ⟨rest, rfl⟩
    exact absurd (hex 'x' (by simp)) (by decide)
  rw [prefixed, if_neg (by simp [bare])]
  simp [← String.toList_inj, String.toList_append]

theorem prefixed_prefixed (digits : List Char) :
    prefixed (.ofList ('0' :: 'x' :: digits)) = .ofList ('0' :: 'x' :: digits) := by
  apply if_pos
  rw [String.startsWith_string_iff, @String.toList_ofList ('0' :: 'x' :: digits)]
  exact ⟨digits, rfl⟩

theorem keyToAlias_eq (faithful : codecs.Faithful) (key : PublicKey) :
    codecs.keyToAlias key = .ok (codecs.stringify (message key)) := by
  have hex : ∀ c ∈ (hexEncode key.raw).toList, isHex c = true := fun c =>
    AccountId.isHex_of_mem_hexEncode
  have even : (hexEncode key.raw).toList.length % 2 = 0 := by
    rw [length_hexEncode]
    omega
  have digits := prefixed_digits hex
  rw [String.ofList_toList] at digits
  have raw : codecs.arrayify (prefixed (hexEncode key.toBytesRaw)) = .ok key.raw := by
    rw [PublicKey.toBytesRaw, digits, faithful.arrayify_hex _ hex even]
    have read := decodePairs_digits key.raw
    rw [hexEncode, String.toList_ofList, read]
  obtain ⟨type, bytes, valid⟩ := key
  cases type with
  | ed25519 =>
      have leading : codecs.arrayify (leadingHex .ed25519) = .ok [0x12, 0x20] :=
        faithful.arrayify_hex ['1', '2', '2', '0'] (by simp; decide) rfl
      rw [keyToAlias, leading, raw]
      rfl
  | secp256k1 =>
      have leading : codecs.arrayify (leadingHex .secp256k1) = .ok [0x3A, 0x21] :=
        faithful.arrayify_hex ['3', 'A', '2', '1'] (by simp; decide) rfl
      rw [keyToAlias, leading, raw]
      rfl

theorem aliasToPublicKey_message (faithful : codecs.Faithful) (key : PublicKey) :
    codecs.aliasToPublicKey (codecs.stringify (message key)) = .ok (some key) := by
  have read := PublicKey.fromBytes_toBytesRaw codecs.decoders key
  obtain ⟨type, raw, valid⟩ := key
  have some_ : message ⟨type, raw, valid⟩ ≠ [] := by
    cases type <;> exact List.cons_ne_nil _ _
  rw [aliasToPublicKey, base32Decode_stringify faithful some_]
  cases type with
  | ed25519 =>
      obtain ⟨b, rest, rfl⟩ := List.exists_cons_of_length_eq_add_one (n := 31) valid
      have decoded := faithful.decodeKey_ed25519 (b :: rest) valid
      simp only [Except.bind, message, decoded, filled]
      rw [publicKey, show PublicKey.fromBytes codecs.decoders (b :: rest) = _ from read]
      rfl
  | secp256k1 =>
      obtain ⟨b, rest, rfl⟩ := List.exists_cons_of_length_eq_add_one (n := 32) valid
      have decoded := faithful.decodeKey_ecdsa (b :: rest) valid
      simp only [Except.bind, message, decoded, filled]
      rw [publicKey, show PublicKey.fromBytes codecs.decoders (b :: rest) = _ from read]
      rfl

/-- Hex digits are single units of UTF-16. -/
theorem utf16Length_hex {text : List Char} (hex : ∀ c ∈ text, c = 'x' ∨ isHex c = true) :
    utf16Length (.ofList text) = text.length := by
  have units : text.map (fun c => if c.toNat < 65536 then 1 else 2) = text.map fun _ => 1 := by
    refine List.map_congr_left fun c member => if_pos ?_
    rcases hex c member with rfl | digit
    · decide
    · have := AccountId.lt_of_isHex digit
      omega
  rw [utf16Length, String.toList_ofList, units]
  simp

theorem publicKeyToAlias_address (faithful : codecs.Faithful) {address : EvmAddress} {spelling : String}
    (spells : SpellsAddress address spelling) :
    codecs.publicKeyToAlias (.text spelling) = .ok (codecs.stringify address.1) := by
  cases spells with
  | bare length hex read =>
      rename_i digits
      have units := @utf16Length_hex digits fun c member => .inr (hex c member)
      have bytes := faithful.arrayify_hex digits hex (by omega)
      rw [publicKeyToAlias, if_pos (by simp [units, length]), prefixed_digits hex, bytes, read]
      rfl
  | prefixed length hex read =>
      rename_i digits
      have units := @utf16Length_hex ('0' :: 'x' :: digits) fun c member => by
        rcases List.mem_cons.mp member with rfl | later
        · exact .inr (by decide)
        · rcases List.mem_cons.mp later with rfl | digit
          · exact .inl rfl
          · exact .inr (hex c digit)
      have starts : (String.ofList ('0' :: 'x' :: digits)).startsWith "0x" = true := by
        rw [String.startsWith_string_iff, @String.toList_ofList ('0' :: 'x' :: digits)]
        exact ⟨digits, rfl⟩
      have bytes := faithful.arrayify_hex digits hex (by omega)
      rw [publicKeyToAlias, if_pos (by rw [starts, units]; simp [length]), prefixed_prefixed, bytes, read]
      rfl

/-- The reader of keys is right about every key, and the reader of addresses about every
address; it refuses no key. -/
theorem readBack_iff (faithful : codecs.Faithful) (account : Account) :
    codecs.ReadBack account ↔ ∃ address, account = .hollow address := by
  cases account with
  | key key =>
      refine iff_of_false ?_ (by rintro ⟨address, none⟩; cases none)
      rintro ⟨text, made, _, refused, failed⟩
      have some_ : message key ≠ [] := by
        obtain ⟨type, raw, valid⟩ := key
        cases type <;> exact List.cons_ne_nil _ _
      obtain rfl := Except.ok.inj (made.symm.trans (keyToAlias_eq faithful key))
      rw [aliasToEvmAddress_stringify faithful some_] at failed
      cases failed
  | hollow address =>
      refine iff_of_true (fun spelling spells => ?_) ⟨address, rfl⟩
      have some_ : address.1 ≠ [] := by
        intro none
        have length := address.2
        rw [none] at length
        cases length
      exact ⟨_, publicKeyToAlias_address faithful spells, aliasToEvmAddress_stringify faithful some_⟩

section Samples

/-- Seven bits a byte, the lowest first. -/
def readVarint : Bytes → Option (Nat × Bytes)
  | [] => none
  | b :: rest =>
      if b.toNat < 128 then some (b.toNat, rest)
      else (readVarint rest).map fun read => (b.toNat - 128 + 128 * read.1, read.2)

def KeyMessage.set (key : KeyMessage) (field : Nat) (value : Bytes) : KeyMessage :=
  if field = 2 then { ed25519 := some value }
  else if field = 7 then { ecdsaSecp256k1 := some value }
  else key

/-- A reader of messages whose fields are bytes. -/
def readFields : Nat → Bytes → KeyMessage → Except JsError KeyMessage
  | 0, _, key => .ok key
  | _, [], key => .ok key
  | fuel + 1, b :: data, key =>
      match readVarint (b :: data) with
      | none => .error (.rejected "index out of range")
      | some (tag, data) =>
          if tag % 8 = 2 then
            match readVarint data with
            | none => .error (.rejected "index out of range")
            | some (length, data) =>
                if data.length < length then .error (.rejected "index out of range")
                else readFields fuel (data.drop length) (KeyMessage.set key (tag / 8) (data.take length))
          else .error (.error "invalid wire type")

/-- A reader of hex texts that start with `0x`. -/
def readHex (text : String) : Except JsError Bytes :=
  match text.toList with
  | '0' :: 'x' :: digits =>
      if digits.all isHex ∧ digits.length % 2 = 0 then .ok (decodePairs digits)
      else .error (.error "invalid arrayify value")
  | _ => .error (.error "invalid arrayify value")

theorem readFields_single {tag length : UInt8} {raw : Bytes} {fuel : Nat} (field : tag.toNat < 128)
    (bytes : tag.toNat % 8 = 2) (small : length.toNat < 128) (whole : raw.length = length.toNat) :
    readFields (fuel + 1) (tag :: length :: raw) {} = .ok (KeyMessage.set {} (tag.toNat / 8) raw) := by
  have last (key : KeyMessage) : readFields fuel [] key = .ok key := by
    cases fuel <;> rfl
  rw [readFields, readVarint, if_pos field]
  simp only [bytes, if_true]
  rw [readVarint, if_pos small]
  simp only [← whole, Nat.lt_irrefl, if_false, List.drop_length, List.take_length]
  exact last _

def rfc4648Codecs : AliasCodecs where
  stringify data := .ofList (Library.Base32.encode data)
  parse text := .ok (Library.Base32.decode text.toList)
  decodeKey data := readFields data.length data {}
  arrayify := readHex
  decoders := AccountId.derDecoders

theorem rfc4648Codecs_faithful : rfc4648Codecs.Faithful where
  parse_stringify := by
    intro data
    simp [rfc4648Codecs, Library.Base32.decode_encode]
  stringify_ne := by
    intro data some_ empty
    have length := Library.Base32.length_encode data
    have none : Library.Base32.encode data = [] := by simpa [rfc4648Codecs] using empty
    have positive := List.length_pos_iff.mpr some_
    rw [none, List.length_nil] at length
    omega
  decodeKey_ed25519 := fun _ length =>
    @readFields_single 0x12 0x20 _ _ (by decide) (by decide) (by decide) length
  decodeKey_ecdsa := fun _ length =>
    @readFields_single 0x3A 0x21 _ _ (by decide) (by decide) (by decide) length
  arrayify_hex := by
    intro digits hex even
    have text : ('0' :: 'x' :: digits : List Char) = (String.ofList ('0' :: 'x' :: digits)).toList :=
      String.toList_ofList.symm
    change readHex _ = _
    rw [readHex, ← text]
    exact if_pos ⟨List.all_eq_true.mpr hex, even⟩

/-- An address that is read as the message of a key. -/
def messageAddress : EvmAddress := ⟨0x12 :: 0x12 :: List.replicate 18 7, rfl⟩

theorem address_is_read_back : rfc4648Codecs.ReadBack (.hollow messageAddress) :=
  (readBack_iff rfc4648Codecs_faithful _).mpr ⟨messageAddress, rfl⟩

def zeroKey : PublicKey := ⟨.ed25519, List.replicate 32 0, rfl⟩

/-- The alias of a key is read as an address of 34 bytes. -/
theorem key_is_read_as_address :
    (rfc4648Codecs.publicKeyToAlias (.key zeroKey)).bind rfc4648Codecs.aliasToEvmAddress =
        .ok (some (toHexString (0x12 :: 0x20 :: List.replicate 32 0))) ∧
      ¬ rfc4648Codecs.ReadBack (.key zeroKey) := by
  have made := keyToAlias_eq rfc4648Codecs_faithful zeroKey
  have read := @aliasToEvmAddress_stringify rfc4648Codecs rfc4648Codecs_faithful (message zeroKey)
    (List.cons_ne_nil _ _)
  constructor
  · have bytes : message zeroKey = 0x12 :: 0x20 :: List.replicate 32 0 := rfl
    rw [publicKeyToAlias, made, Except.bind, read, bytes]
  · rintro ⟨text, made', _, refused, failed⟩
    obtain rfl := Except.ok.inj (made.symm.trans made')
    rw [read] at failed
    cases failed

end Samples

end AliasCodecs

end HederaSdk.EntityIdHelper
