import HederaSdk.Cryptography.PrivateKey
import HederaSdk.Js.Json

/-!
# Keystores

A keystore is a JSON text with the raw bytes of a private key, encrypted under a passphrase. With
the same passphrase the bytes come back; what type of key they are of is not written anywhere.
-/

namespace HederaSdk

open Js (Value)

/-- The functions of the platform that a keystore is made with. -/
structure Primitives where
  /-- `pbkdf2` of a password, a salt, the number of iterations and the length. -/
  deriveKey : Bytes → Bytes → Int → Int → Except CryptographyError Bytes
  /-- `hmac.hash` with SHA-384 of a key and data. -/
  hmac : Bytes → Bytes → Bytes
  /-- By algorithm, key and initial vector. -/
  createCipheriv : String → Bytes → Bytes → Bytes → Except CryptographyError Bytes
  createDecipheriv : String → Bytes → Bytes → Bytes → Except CryptographyError Bytes

def aes128Ctr : String := "AES-128-CTR"

/-- A derived key is as long as asked for, and what is encrypted is decrypted. -/
structure Primitives.Documented (primitives : Primitives) : Prop where
  deriveKey : ∀ password salt, ∃ key, key.length = 32 ∧
    primitives.deriveKey password salt 262144 32 = .ok key
  cipher : ∀ key iv data, key.length = 16 → iv.length = 16 → ∃ cipherText,
    primitives.createCipheriv aes128Ctr key iv data = .ok cipherText ∧
      primitives.createDecipheriv aes128Ctr key iv cipherText = .ok data

/-- What is drawn for a keystore. -/
structure KeystoreDraws where
  salt : Bytes
  iv : Bytes
  length_salt : salt.length = 32
  length_iv : iv.length = 16

/-- The object that is written. -/
def keystoreOf (cipherText iv salt mac : Bytes) : Value :=
  .object <| .cons "version" (.number 1) <| .cons "crypto" (.object <|
    .cons "ciphertext" (.string (hexEncode cipherText)) <|
    .cons "cipherparams" (.object <| .cons "iv" (.string (hexEncode iv)) .nil) <|
    .cons "cipher" (.string aes128Ctr) <|
    .cons "kdf" (.string "pbkdf2") <|
    .cons "kdfparams" (.object <|
      .cons "dkLen" (.number 32) <|
      .cons "salt" (.string (hexEncode salt)) <|
      .cons "c" (.number 262144) <|
      .cons "prf" (.string "hmac-sha256") .nil) <|
    .cons "mac" (.string (hexEncode mac)) .nil) .nil

section

variable (primitives : Primitives)

def createKeystore (privateKey : Bytes) (passphrase : String) (draws : KeystoreDraws) :
    Except CryptographyError Bytes := do
  let key ← primitives.deriveKey (utf8Encode passphrase) draws.salt 262144 32
  let cipherText ← primitives.createCipheriv aes128Ctr ((key.take 16).take 16) draws.iv privateKey
  let mac := primitives.hmac (key.drop 16) cipherText
  match Js.stringify (keystoreOf cipherText draws.iv draws.salt mac) with
  | none => .error .typeError
  | some text => .ok (utf8Encode text)

/-- The text of a value in a template. -/
def valueText : Value → String
  | .undefined => "undefined"
  | .null => "null"
  | .number n => toString n
  | .string s => s
  | .boolean b => toString b
  | .object _ => "[object Object]"

/-- Reading a property of nothing throws. -/
def property (value : Value) (name : String) : Except CryptographyError Value :=
  if value.isNullish then .error .typeError else .ok (value.get name)

/-- `hex.decode` of what a keystore has. -/
def decodeHex : Value → Except CryptographyError Bytes
  | .string text => .ok (hexDecode text)
  | _ => .error .typeError

def derive (passphrase : String) (salt : Bytes) : Value → Value → Except CryptographyError Bytes
  | .number c, .number dkLen => primitives.deriveKey (utf8Encode passphrase) salt c dkLen
  | _, _ => .error .typeError

/-- The bytes of the one are those of the other, as far as the one goes. -/
def agrees (mac verifyHmac : Bytes) : Bool :=
  mac.zipIdx.all fun b => verifyHmac[b.2]? = some b.1

def loadKeystore (keystoreBytes : Bytes) (passphrase : String) : Except CryptographyError Bytes := do
  let keystore ← match Js.parse (utf8Decode keystoreBytes) with
    | none => .error .syntaxError
    | some keystore => .ok keystore
  let version ← property keystore "version"
  if version ≠ .number 1 then
    .error (.badKey s!"unsupported keystore version: {valueText version}")
  let crypto ← property keystore "crypto"
  let ciphertext ← property crypto "ciphertext"
  let cipherparams ← property crypto "cipherparams"
  let iv ← property cipherparams "iv"
  let cipher ← property crypto "cipher"
  let kdf ← property crypto "kdf"
  let kdfparams ← property crypto "kdfparams"
  let dkLen ← property kdfparams "dkLen"
  let salt ← property kdfparams "salt"
  let c ← property kdfparams "c"
  let prf ← property kdfparams "prf"
  let mac ← property crypto "mac"
  if kdf ≠ .string "pbkdf2" then
    .error (.badKey s!"unsupported key derivation function:\" + {valueText kdf}")
  if prf ≠ .string "hmac-sha256" then
    .error (.badKey s!"unsupported key derivation hash function: {valueText prf}")
  let saltBytes ← decodeHex salt
  let ivBytes ← decodeHex iv
  let cipherBytes ← decodeHex ciphertext
  let key ← derive primitives passphrase saltBytes c dkLen
  let macHex ← decodeHex mac
  if agrees macHex (primitives.hmac (key.drop 16) cipherBytes) = false then
    .error (.badKey "HMAC mismatch; passphrase is incorrect")
  match cipher with
  | .string cipher => primitives.createDecipheriv cipher ((key.take 16).take 16) ivBytes cipherBytes
  | _ => .error .typeError

namespace PrivateKey

def toKeystore (key : PrivateKey) (passphrase : String) (draws : KeystoreDraws) :
    Except CryptographyError Bytes :=
  createKeystore primitives key.toBytesRaw passphrase draws

def fromKeystore (nacl : Nacl) (curve : Elliptic) (data : Bytes) (passphrase : String) :
    Except CryptographyError PrivateKey :=
  (loadKeystore primitives data passphrase).map (fromBytes nacl curve)

end PrivateKey

end

/-! ## The bytes come back -/

variable {primitives : Primitives}

theorem isJson_keystoreOf (cipherText iv salt mac : Bytes) : (keystoreOf cipherText iv salt mac).IsJson := by
  simp [keystoreOf, Value.IsJson, Js.Properties.IsJson, Js.Properties.has]

theorem agrees_self (mac : Bytes) : agrees mac mac = true := by
  rw [agrees, List.all_eq_true]
  rintro ⟨b, i⟩ member
  rw [decide_eq_true_iff]
  exact List.mem_zipIdx_iff_getElem?.mp member

theorem loadKeystore_createKeystore (documented : primitives.Documented) (privateKey : Bytes)
    (passphrase : String) (draws : KeystoreDraws) :
    ∃ data, createKeystore primitives privateKey passphrase draws = .ok data ∧
      loadKeystore primitives data passphrase = .ok privateKey := by
  obtain ⟨key, length, derived⟩ := documented.deriveKey (utf8Encode passphrase) draws.salt
  have half : ((key.take 16).take 16).length = 16 := by simp [length]
  obtain ⟨cipherText, encrypted, decrypted⟩ := documented.cipher _ draws.iv privateKey half draws.length_iv
  let mac := primitives.hmac (key.drop 16) cipherText
  have json := isJson_keystoreOf cipherText draws.iv draws.salt mac
  obtain ⟨text, written⟩ : ∃ text, Js.stringify (keystoreOf cipherText draws.iv draws.salt mac) = some text :=
    ⟨_, rfl⟩
  have parsed := Js.parse_stringify json written
  refine ⟨utf8Encode text, ?_, ?_⟩
  · simp only [createKeystore, derived, encrypted, written, bind, Except.bind, mac]
  · rw [loadKeystore, utf8Decode_utf8Encode, parsed]
    have verified : agrees mac (primitives.hmac (key.drop 16) cipherText) = true := agrees_self mac
    simp [keystoreOf, property, Value.isNullish, decodeHex, derive, derived, decrypted, verified,
      bind, Except.bind]

namespace PrivateKey

variable {nacl : Nacl} {curve : Elliptic} {key : PrivateKey}

/-- The keystore of a key is read as the key. -/
def KeystoreRoundTrips (primitives : Primitives) (nacl : Nacl) (curve : Elliptic) (key : PrivateKey)
    (passphrase : String) (draws : KeystoreDraws) : Prop :=
  ∃ data key', key.toKeystore primitives passphrase draws = .ok data ∧
    fromKeystore primitives nacl curve data passphrase = .ok key' ∧ Same key key'

/-- What a keystore is read as is what the raw bytes are read as. -/
theorem keystoreRoundTrips_iff_same (documented : primitives.Documented) (key : PrivateKey)
    (passphrase : String) (draws : KeystoreDraws) :
    KeystoreRoundTrips primitives nacl curve key passphrase draws ↔
      Same key (fromBytes nacl curve key.toBytesRaw) := by
  obtain ⟨data, created, loaded⟩ := loadKeystore_createKeystore documented key.toBytesRaw passphrase draws
  have read : fromKeystore primitives nacl curve data passphrase =
      .ok (fromBytes nacl curve key.toBytesRaw) := by
    rw [fromKeystore, loaded]
    rfl
  constructor
  · rintro ⟨data', key', created', read', same⟩
    cases created.symm.trans created'
    cases read.symm.trans read'
    exact same
  · intro same
    exact ⟨data, _, created, read, same⟩

/-- A key comes back from its keystore exactly when it is a key of Ed25519 with the public key of
its seed. -/
theorem keystoreRoundTrips_iff (documented : primitives.Documented) (naclDocumented : nacl.Documented)
    (built : Built nacl curve key) (passphrase : String) (draws : KeystoreDraws) :
    KeystoreRoundTrips primitives nacl curve key passphrase draws ↔ IsOfSeed nacl key := by
  rw [keystoreRoundTrips_iff_same documented]
  exact same_fromBytes_iff naclDocumented built

section Samples

/-- Ciphers that add the key to each byte in turn, and keys that repeat the password. -/
def samplePrimitives : Primitives where
  deriveKey password salt _ _ := .ok ((password ++ salt ++ List.replicate 32 0).take 32)
  hmac key data := key ++ data
  createCipheriv _ key iv data := .ok (data.zipWith (· + ·) (key ++ iv ++ List.replicate data.length 0))
  createDecipheriv _ key iv data := .ok (data.zipWith (· - ·) (key ++ iv ++ List.replicate data.length 0))

theorem zipWith_sub_zipWith_add (data pad : Bytes) (long : data.length ≤ pad.length) :
    (data.zipWith (· + ·) pad).zipWith (· - ·) pad = data := by
  induction data generalizing pad with
  | nil => rfl
  | cons b data inductionHypothesis =>
      cases pad with
      | nil => cases long
      | cons p pad =>
          rw [List.zipWith_cons_cons, List.zipWith_cons_cons, inductionHypothesis pad (Nat.le_of_succ_le_succ long)]
          congr 1
          exact UInt8.add_sub_cancel b p

theorem samplePrimitives_documented : samplePrimitives.Documented where
  deriveKey password salt := by
    refine ⟨_, ?_, rfl⟩
    rw [List.length_take, List.length_append, List.length_replicate]
    omega
  cipher key iv data _ _ := by
    refine ⟨_, rfl, ?_⟩
    have long : data.length ≤ (key ++ iv ++ List.replicate data.length (0 : UInt8)).length := by
      rw [List.length_append, List.length_replicate]
      omega
    have length : (data.zipWith (· + ·) (key ++ iv ++ List.replicate data.length 0)).length = data.length := by
      rw [List.length_zipWith, Nat.min_eq_left long]
    simp only [samplePrimitives, length]
    rw [zipWith_sub_zipWith_add _ _ long]

/-- A package whose public keys are the seeds. -/
def sampleNacl : Nacl where
  fromSeed seed := if seed.length = 32 then .ok ⟨seed, seed ++ seed⟩ else .error (.error "bad seed size")
  fromSecretKey secretKey :=
    if secretKey.length = 64 then .ok ⟨secretKey.drop 32, secretKey⟩ else .error (.error "bad secret key size")
  fromDer _ := .error "no object"
  privateKeyFromAsn1 _ := .error "no key"

theorem sampleNacl_documented : sampleNacl.Documented where
  fromSeed seed length := ⟨seed, length, if_pos length⟩
  fromSecretKey _ length := if_pos length

def sampleDraws : KeystoreDraws :=
  ⟨List.replicate 32 1, List.replicate 16 2, List.length_replicate, List.length_replicate⟩

def sampleSeedKey : PrivateKey :=
  ed25519 { keyPair := ⟨List.replicate 32 5, List.replicate 64 5⟩ }

/-- The key of the scalar 1. -/
def sampleScalarKey : PrivateKey := ecdsa (EcdsaPrivateKey.ofScalar EcdsaPrivateKey.basePoint 1)

theorem seed_key_comes_back :
    KeystoreRoundTrips samplePrimitives sampleNacl EcdsaPrivateKey.basePoint sampleSeedKey "" sampleDraws := by
  have built : Built sampleNacl EcdsaPrivateKey.basePoint sampleSeedKey :=
    @Built.seed _ _ (List.replicate 32 5) _ none List.length_replicate rfl
  apply (keystoreRoundTrips_iff samplePrimitives_documented sampleNacl_documented built "" sampleDraws).mpr
  exact ⟨rfl, List.replicate 64 5, rfl⟩

/-- What comes back for a key of ECDSA is a key of Ed25519. -/
theorem scalar_key_changes_type :
    Built sampleNacl EcdsaPrivateKey.basePoint sampleScalarKey ∧
      ¬ KeystoreRoundTrips samplePrimitives sampleNacl EcdsaPrivateKey.basePoint sampleScalarKey ""
        sampleDraws := by
  have built : Built sampleNacl EcdsaPrivateKey.basePoint sampleScalarKey :=
    .scalar 1 none (by decide) (by decide)
  refine ⟨built, fun roundTrips => ?_⟩
  have same := (keystoreRoundTrips_iff_same samplePrimitives_documented _ _ _).mp roundTrips
  have ofSeed := (same_fromBytes_iff sampleNacl_documented built).mp same
  exact absurd ofSeed.1 (by decide)

end Samples

end PrivateKey

end HederaSdk
