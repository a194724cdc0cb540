import HederaSdk.Cryptography.EcdsaPrivateKey
import HederaSdk.Js.Value

/-!
# Private keys

A private key is one of Ed25519 or one of ECDSA. Raw bytes do not tell which: 32 of them are a
seed to the class that reads first.
-/

namespace HederaSdk

/-- What the package throws. -/
inductive CryptographyError where
  /-- `BadKeyError` -/
  | badKey (message : String)
  | error (message : String)
  | typeError
  | syntaxError
  deriving DecidableEq

/-- A key pair of `tweetnacl`. -/
structure SignKeyPair where
  publicKey : Bytes
  secretKey : Bytes
  deriving DecidableEq

/-- `nacl.sign.keyPair`, and the ASN.1 decoding of `node-forge`. -/
structure Nacl where
  fromSeed : Bytes → Except CryptographyError SignKeyPair
  fromSecretKey : Bytes → Except CryptographyError SignKeyPair
  fromDer : Bytes → Except String Js.Value
  privateKeyFromAsn1 : Js.Value → Except String Bytes

/-- A secret key is a seed and the public key behind it; it is taken as it is. -/
structure Nacl.Documented (nacl : Nacl) : Prop where
  fromSeed : ∀ seed, seed.length = 32 →
    ∃ publicKey, publicKey.length = 32 ∧ nacl.fromSeed seed = .ok ⟨publicKey, seed ++ publicKey⟩
  fromSecretKey : ∀ secretKey, secretKey.length = 64 →
    nacl.fromSecretKey secretKey = .ok ⟨secretKey.drop 32, secretKey⟩

structure Ed25519PrivateKey where
  keyPair : SignKeyPair
  chainCode : Option Bytes := none
  deriving DecidableEq

namespace Ed25519PrivateKey

def fromBytesRaw (nacl : Nacl) (data : Bytes) : Except CryptographyError Ed25519PrivateKey :=
  if data.length = 32 then (nacl.fromSeed data).map fun keyPair => { keyPair }
  else if data.length = 64 then (nacl.fromSecretKey data).map fun keyPair => { keyPair }
  else .error (.badKey s!"invalid private key length: {data.length} bytes")

def fromBytesDer (nacl : Nacl) (data : Bytes) : Except CryptographyError Ed25519PrivateKey :=
  match nacl.fromDer data with
  | .error message => .error (.error message)
  | .ok asn =>
      match nacl.privateKeyFromAsn1 asn with
      | .error message =>
          .error (.badKey s!"cannot decode ED25519 private key data from DER format: {message}")
      | .ok privateKey => (nacl.fromSeed privateKey).map fun keyPair => { keyPair }

def fromBytes (nacl : Nacl) (data : Bytes) : Except CryptographyError Ed25519PrivateKey :=
  if data.length = 48 then fromBytesDer nacl data
  else if data.length = 32 ∨ data.length = 64 then fromBytesRaw nacl data
  else .error (.badKey s!"invalid private key length: {data.length} bytes")

def toBytesRaw (key : Ed25519PrivateKey) : Bytes := key.keyPair.secretKey.take 32

end Ed25519PrivateKey

inductive PrivateKey where
  | ed25519 (key : Ed25519PrivateKey)
  | ecdsa (key : EcdsaPrivateKey)
  deriving DecidableEq

namespace PrivateKey

/-- `_type` -/
def type : PrivateKey → String
  | ed25519 _ => "ED25519"
  | ecdsa _ => "secp256k1"

/-- `_chainCode` -/
def chainCode : PrivateKey → Option Bytes
  | ed25519 key => key.chainCode
  | ecdsa key => key.chainCode

def publicKey : PrivateKey → Bytes
  | ed25519 key => key.keyPair.publicKey
  | ecdsa key => key.keyPair.publicKey

/-- The bytes of the private scalar: a seed, or as many as the scalar needs. -/
def secret : PrivateKey → Bytes
  | ed25519 key => key.keyPair.secretKey.take 32
  | ecdsa key => key.keyPair.privateKey

def toBytesRaw : PrivateKey → Bytes
  | ed25519 key => key.toBytesRaw
  | ecdsa key => key.toBytesRaw

section Reading

variable (nacl : Nacl) (curve : Elliptic)

/-- What one class cannot read the other one does: it takes any bytes for a number. -/
def fromBytes (data : Bytes) : PrivateKey :=
  match Ed25519PrivateKey.fromBytes nacl data with
  | .ok key => ed25519 key
  | .error _ => ecdsa (EcdsaPrivateKey.fromBytes curve data)

/-- The keys there are: of a seed, of a secret key, and of a scalar of the curve. -/
inductive Built : PrivateKey → Prop
  | seed {seed : Bytes} {keyPair : SignKeyPair} (chainCode : Option Bytes) :
      seed.length = 32 → nacl.fromSeed seed = .ok keyPair → Built (ed25519 { keyPair, chainCode })
  | secretKey {secretKey : Bytes} {keyPair : SignKeyPair} :
      secretKey.length = 64 → nacl.fromSecretKey secretKey = .ok keyPair → Built (ed25519 { keyPair })
  | scalar (d : Nat) (chainCode : Option Bytes) :
      0 < d → d < curveOrder → Built (ecdsa { EcdsaPrivateKey.ofScalar curve d with chainCode })

/-- The key is one of Ed25519 whose public key is that of its seed. -/
def IsOfSeed (key : PrivateKey) : Prop :=
  key.type = "ED25519" ∧ ∃ secretKey, nacl.fromSeed key.secret = .ok ⟨key.publicKey, secretKey⟩

end Reading

/-- The same type, private scalar and public key. -/
structure Same (key key' : PrivateKey) : Prop where
  type : key'.type = key.type
  secret : key'.secret = key.secret
  publicKey : key'.publicKey = key.publicKey

variable {nacl : Nacl} {curve : Elliptic} {key : PrivateKey}

theorem length_setBytes {target data : Bytes} {offset : Nat} (fits : offset + data.length ≤ target.length) :
    (setBytes target data offset).length = target.length := by
  simp only [setBytes, List.length_append, List.length_take, List.length_drop]
  omega

/-- The raw bytes of a key are 32, of whichever type it is. -/
theorem length_toBytesRaw (documented : nacl.Documented) (built : Built nacl curve key) :
    key.toBytesRaw.length = 32 := by
  cases built with
  | @seed seed keyPair chainCode length made =>
      obtain ⟨publicKey, -, made'⟩ := documented.fromSeed seed length
      cases made.symm.trans made'
      simp [toBytesRaw, Ed25519PrivateKey.toBytesRaw, length]
  | @secretKey secretKey keyPair length made =>
      cases made.symm.trans (documented.fromSecretKey secretKey length)
      simp [toBytesRaw, Ed25519PrivateKey.toBytesRaw, length]
  | scalar d chainCode positive onCurve =>
      rw [toBytesRaw, EcdsaPrivateKey.toBytesRaw, length_setBytes, List.length_replicate]
      rw [List.length_replicate, Nat.zero_add, List.length_take]
      exact Nat.min_le_left 32 _

/-- 32 bytes are read as a seed. -/
theorem fromBytes_seed (documented : nacl.Documented) {seed : Bytes} (length : seed.length = 32) :
    ∃ publicKey, publicKey.length = 32 ∧ nacl.fromSeed seed = .ok ⟨publicKey, seed ++ publicKey⟩ ∧
      fromBytes nacl curve seed = ed25519 { keyPair := ⟨publicKey, seed ++ publicKey⟩ } := by
  obtain ⟨publicKey, size, made⟩ := documented.fromSeed seed length
  refine ⟨publicKey, size, made, ?_⟩
  rw [fromBytes, Ed25519PrivateKey.fromBytes, if_neg (by omega), if_pos (.inl length),
    Ed25519PrivateKey.fromBytesRaw, if_pos length, made]
  rfl

/-- What is read from the raw bytes of a key is the key exactly when it is one of its seed. -/
theorem same_fromBytes_iff (documented : nacl.Documented) (built : Built nacl curve key) :
    Same key (fromBytes nacl curve key.toBytesRaw) ↔ IsOfSeed nacl key := by
  obtain ⟨publicKey, size, made, read⟩ :=
    @fromBytes_seed nacl curve documented key.toBytesRaw (length_toBytesRaw documented built)
  rw [read]
  constructor
  · intro same
    have type := same.type
    cases key with
    | ed25519 key =>
        have public_ : publicKey = key.keyPair.publicKey := same.publicKey
        exact ⟨rfl, _, public_ ▸ made⟩
    | ecdsa key => exact absurd type (by simp [PrivateKey.type])
  · rintro ⟨type, secretKey, ofSeed⟩
    cases key with
    | ed25519 key =>
        cases made.symm.trans ofSeed
        refine ⟨rfl, ?_, rfl⟩
        have short : (key.keyPair.secretKey.take 32).length = 32 := length_toBytesRaw documented built
        exact List.take_left' short
    | ecdsa key => exact absurd type (by simp [PrivateKey.type])

end PrivateKey

end HederaSdk
