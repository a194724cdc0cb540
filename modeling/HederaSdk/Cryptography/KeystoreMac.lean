import HederaSdk.Cryptography.Keystore

/-!
# The code of a keystore

A keystore holds the HMAC of its ciphertext under the key derived from the passphrase. The bytes
that it is compared with are counted by its own bytes, so that every first part of the HMAC passes,
no bytes at all among them.
-/

namespace HederaSdk

open Js (Value)

/-- What a document and a passphrase are decrypted with. -/
structure KeystoreParts where
  cipher : Value
  key : Bytes
  iv : Bytes
  cipherBytes : Bytes
  mac : Bytes

/-- The code that the ciphertext has under the key. -/
def KeystoreParts.hmac (parts : KeystoreParts) (primitives : Primitives) : Bytes :=
  primitives.hmac (parts.key.drop 16) parts.cipherBytes

section

variable (primitives : Primitives)

/-- What `loadKeystore` reads before it compares. -/
def readKeystore (keystoreBytes : Bytes) (passphrase : String) : Except CryptographyError KeystoreParts := do
  let keystore ← match Js.parse (utf8Decode keystoreBytes) with
    | none => .error .syntaxError
    | some keystore => .ok keystore
  let version ← property keystore "version"
  if version ≠ .number 1 then
    .error (.badKey s!"unsupported keystore version: {valueText version}")
  let crypto ← property keystore "crypto"
  let ciphertext ← property crypto "ciphertext"
  let cipherparams ← property crypto "cipherparams"
  let iv ← property cipherparams "iv"
  let cipher ← property crypto "cipher"
  let kdf ← property crypto "kdf"
  let kdfparams ← property crypto "kdfparams"
  let dkLen ← property kdfparams "dkLen"
  let salt ← property kdfparams "salt"
  let c ← property kdfparams "c"
  let prf ← property kdfparams "prf"
  let mac ← property crypto "mac"
  if kdf ≠ .string "pbkdf2" then
    .error (.badKey s!"unsupported key derivation function:\" + {valueText kdf}")
  if prf ≠ .string "hmac-sha256" then
    .error (.badKey s!"unsupported key derivation hash function: {valueText prf}")
  let saltBytes ← decodeHex salt
  let ivBytes ← decodeHex iv
  let cipherBytes ← decodeHex ciphertext
  let key ← derive primitives passphrase saltBytes c dkLen
  let macHex ← decodeHex mac
  .ok ⟨cipher, key, ivBytes, cipherBytes, macHex⟩

def KeystoreParts.decrypt (parts : KeystoreParts) : Except CryptographyError Bytes :=
  match parts.cipher with
  | .string cipher =>
      primitives.createDecipheriv cipher ((parts.key.take 16).take 16) parts.iv parts.cipherBytes
  | _ => .error .typeError

/-- What `loadKeystore` does with what it has read. -/
def KeystoreParts.load (parts : KeystoreParts) : Except CryptographyError Bytes := do
  if agrees parts.mac (parts.hmac primitives) = false then
    .error (.badKey "HMAC mismatch; passphrase is incorrect")
  parts.decrypt primitives

/-- The platform with another way to decrypt. -/
def Primitives.decryptingBy (decipher : String → Bytes → Bytes → Bytes → Except CryptographyError Bytes) :
    Primitives := { primitives with createDecipheriv := decipher }

/-- The document is read, and its code is the one of its ciphertext, byte for byte. -/
def HasCode (keystoreBytes : Bytes) (passphrase : String) : Prop :=
  ∃ parts, readKeystore primitives keystoreBytes passphrase = .ok parts ∧ parts.mac = parts.hmac primitives

/-- Only what has the code is decrypted; what has it not throws, however the platform decrypts. -/
structure Authenticates (keystoreBytes : Bytes) (passphrase : String) : Prop where
  returns : ∀ data, loadKeystore primitives keystoreBytes passphrase = .ok data →
    HasCode primitives keystoreBytes passphrase
  throws : ¬ HasCode primitives keystoreBytes passphrase → ∃ error, ∀ decipher,
    loadKeystore (primitives.decryptingBy decipher) keystoreBytes passphrase = .error error

/-- The code of a document that names a cipher is not a first part of the HMAC only. -/
def NotCutShort (keystoreBytes : Bytes) (passphrase : String) : Prop :=
  ∀ parts cipher, readKeystore primitives keystoreBytes passphrase = .ok parts →
    parts.cipher = .string cipher → parts.mac <+: parts.hmac primitives → parts.mac = parts.hmac primitives

end

variable {primitives : Primitives}

theorem agrees_iff (mac verifyHmac : Bytes) : agrees mac verifyHmac = true ↔ mac <+: verifyHmac := by
  rw [agrees, List.all_eq_true, List.prefix_iff_getElem?]
  constructor
  · intro all i inside
    have member : (mac[i], i) ∈ mac.zipIdx := List.mem_zipIdx_iff_getElem?.mpr (List.getElem?_eq_getElem inside)
    exact of_decide_eq_true (all _ member)
  · rintro first ⟨b, i⟩ member
    obtain ⟨inside, is⟩ := List.getElem?_eq_some_iff.mp (List.mem_zipIdx_iff_getElem?.mp member)
    have same := first i inside
    apply decide_eq_true
    rw [same, is]

section Sequences

variable {Error Value Middle Result : Type}

theorem bind_then {source : Except Error Value} {whole : Value → Except Error Result}
    {first : Value → Except Error Middle} {second : Middle → Except Error Result}
    (same : ∀ value, whole value = (first value).bind second) :
    source.bind whole = (source.bind first).bind second := by
  cases source with
  | error error => rfl
  | ok value => exact same value

theorem check_then {fails : Prop} [Decidable fails] {error : Error} {whole whole' : Except Error Result}
    {first first' : Except Error Middle} {second : Middle → Except Error Result}
    (same : whole' = first'.bind second) :
    (if fails then (Except.error error : Except Error PUnit).bind (fun _ => whole) else whole') =
      (if fails then (Except.error error : Except Error PUnit).bind (fun _ => first) else first').bind second := by
  split
  · rfl
  · exact same

end Sequences

/-- Reading comes first, and nothing of it depends on how the platform decrypts. -/
theorem loadKeystore_eq (keystoreBytes : Bytes) (passphrase : String) :
    loadKeystore primitives keystoreBytes passphrase =
      (readKeystore primitives keystoreBytes passphrase).bind (KeystoreParts.load primitives) := by
  unfold loadKeystore readKeystore
  cases Js.parse (utf8Decode keystoreBytes) with
  | none => rfl
  | some keystore =>
      refine bind_then fun keystore => ?_
      refine bind_then fun version => ?_
      refine check_then ?_
      refine bind_then fun crypto => ?_
      refine bind_then fun ciphertext => ?_
      refine bind_then fun cipherparams => ?_
      refine bind_then fun iv => ?_
      refine bind_then fun cipher => ?_
      refine bind_then fun kdf => ?_
      refine bind_then fun kdfparams => ?_
      refine bind_then fun dkLen => ?_
      refine bind_then fun salt => ?_
      refine bind_then fun c => ?_
      refine bind_then fun prf => ?_
      refine bind_then fun mac => ?_
      refine check_then ?_
      refine check_then ?_
      refine bind_then fun saltBytes => ?_
      refine bind_then fun ivBytes => ?_
      refine bind_then fun cipherBytes => ?_
      refine bind_then fun key => ?_
      refine bind_then fun macHex => ?_
      rfl

theorem readKeystore_decryptingBy
    (decipher : String → Bytes → Bytes → Bytes → Except CryptographyError Bytes) (keystoreBytes : Bytes)
    (passphrase : String) :
    readKeystore (primitives.decryptingBy decipher) keystoreBytes passphrase =
      readKeystore primitives keystoreBytes passphrase := rfl

theorem loadKeystore_of_read {keystoreBytes : Bytes} {passphrase : String} {parts : KeystoreParts}
    (read : readKeystore primitives keystoreBytes passphrase = .ok parts) :
    loadKeystore primitives keystoreBytes passphrase = parts.load primitives := by
  rw [loadKeystore_eq, read]
  rfl

theorem load_of_agrees {parts : KeystoreParts} (agree : parts.mac <+: parts.hmac primitives) :
    parts.load primitives = parts.decrypt primitives := by
  rw [KeystoreParts.load, (agrees_iff _ _).mpr agree]
  rfl

theorem load_of_not_agrees {parts : KeystoreParts} (differ : ¬ parts.mac <+: parts.hmac primitives) :
    parts.load primitives = .error (.badKey "HMAC mismatch; passphrase is incorrect") := by
  have checked : agrees parts.mac (parts.hmac primitives) = false := by
    rw [← Bool.not_eq_true, agrees_iff]
    exact differ
  rw [KeystoreParts.load, checked]
  rfl

/-- Decrypting asks for the code exactly where the code of the document is not cut short. -/
theorem authenticates_iff (primitives : Primitives) (keystoreBytes : Bytes) (passphrase : String) :
    Authenticates primitives keystoreBytes passphrase ↔ NotCutShort primitives keystoreBytes passphrase := by
  constructor
  · intro authenticates parts cipher read named cut
    by_contra other
    have without : ¬ HasCode primitives keystoreBytes passphrase := by
      rintro ⟨parts', read', same⟩
      cases read.symm.trans read'
      exact other same
    obtain ⟨error, throws⟩ := authenticates.throws without
    have decrypts := throws fun _ _ _ _ => .ok []
    have read' : readKeystore (primitives.decryptingBy fun _ _ _ _ => .ok []) keystoreBytes passphrase =
      .ok parts := read
    have loaded := (loadKeystore_of_read read').trans (load_of_agrees cut)
    rw [KeystoreParts.decrypt, named] at loaded
    cases loaded.symm.trans decrypts
  · intro whole
    have throws : ¬ HasCode primitives keystoreBytes passphrase → ∃ error, ∀ decipher,
        loadKeystore (primitives.decryptingBy decipher) keystoreBytes passphrase = .error error := by
      intro without
      cases read : readKeystore primitives keystoreBytes passphrase with
      | error error =>
          refine ⟨error, fun decipher => ?_⟩
          rw [loadKeystore_eq, readKeystore_decryptingBy, read]
          rfl
      | ok parts =>
          have other : parts.mac ≠ parts.hmac primitives := fun same => without ⟨parts, read, same⟩
          have read' (decipher : String → Bytes → Bytes → Bytes → Except CryptographyError Bytes) :
            readKeystore (primitives.decryptingBy decipher) keystoreBytes passphrase = .ok parts := read
          by_cases cut : parts.mac <+: parts.hmac primitives
          · refine ⟨.typeError, fun decipher => ?_⟩
            have loaded := (loadKeystore_of_read (read' decipher)).trans (load_of_agrees cut)
            apply loaded.trans
            unfold KeystoreParts.decrypt
            split
            · rename_i cipher named
              exact absurd (whole parts cipher read named cut) other
            · rfl
          · refine ⟨.badKey "HMAC mismatch; passphrase is incorrect", fun decipher => ?_⟩
            apply (loadKeystore_of_read (read' decipher)).trans
            exact load_of_not_agrees cut
    refine ⟨fun data loaded => ?_, throws⟩
    by_contra without
    obtain ⟨error, fails⟩ := throws without
    cases loaded.symm.trans (fails primitives.createDecipheriv)

/-- A document in the form that is written is read as its parts. -/
theorem readKeystore_keystoreOf {passphrase : String} {salt key : Bytes} (cipherText iv mac : Bytes)
    (derived : primitives.deriveKey (utf8Encode passphrase) salt 262144 32 = .ok key) :
    readKeystore primitives (utf8Encode (.ofList (keystoreOf cipherText iv salt mac).text)) passphrase =
      .ok ⟨.string aes128Ctr, key, iv, cipherText, mac⟩ := by
  have written : Js.stringify (keystoreOf cipherText iv salt mac) =
      some (.ofList (keystoreOf cipherText iv salt mac).text) := rfl
  rw [readKeystore, utf8Decode_utf8Encode,
    Js.parse_stringify (isJson_keystoreOf cipherText iv salt mac) written]
  simp [keystoreOf, property, Value.isNullish, decodeHex, derive, derived, bind, Except.bind]

section Samples

open PrivateKey (samplePrimitives sampleDraws)

/-- A keystore without a byte for its code. -/
def uncodedKeystore : Bytes :=
  utf8Encode (.ofList (keystoreOf [1, 2, 3] sampleDraws.iv sampleDraws.salt []).text)

theorem no_code_is_accepted : ¬ Authenticates samplePrimitives uncodedKeystore "" := by
  intro authenticates
  have read := @readKeystore_keystoreOf samplePrimitives "" sampleDraws.salt _ [1, 2, 3] sampleDraws.iv [] rfl
  have loaded := (loadKeystore_of_read read).trans (load_of_agrees List.nil_prefix)
  obtain ⟨parts, read', same⟩ := authenticates.returns _ loaded
  cases read.symm.trans read'
  cases same

end Samples

end HederaSdk
