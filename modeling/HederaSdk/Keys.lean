import Mathlib.Data.List.Basic

/-!
# Public keys

A public key is an ed25519 key of 32 bytes or a compressed secp256k1 key of 33
bytes. The two lengths keep the raw bytes of different keys apart, which is what
lets a transaction remember its signers by the hex text of these bytes.
-/

namespace HederaSdk

abbrev Bytes := List UInt8

/-! ## Hex text -/

def hexDigit (n : Nat) : Char :=
  if n < 10 then Char.ofNat (48 + n) else Char.ofNat (87 + n)

/-- `hex.encode` -/
def hexEncode (data : Bytes) : String :=
  String.ofList (data.flatMap fun b => [hexDigit (b.toNat / 16), hexDigit (b.toNat % 16)])

theorem hexDigit_injective {m n : Nat} (hm : m < 16) (hn : n < 16) (same : hexDigit m = hexDigit n) :
    m = n := by
  have all : ∀ m n : Fin 16, hexDigit m = hexDigit n → m = n := by decide
  exact congrArg Fin.val (all ⟨m, hm⟩ ⟨n, hn⟩ same)

theorem hexEncode_injective : Function.Injective hexEncode := by
  intro first second same
  have digits := congrArg String.toList same
  simp only [hexEncode, String.toList_ofList] at digits
  clear same
  induction first generalizing second with
  | nil => cases second <;> simp_all
  | cons a first inductionHypothesis =>
      cases second with
      | nil => simp at digits
      | cons b second =>
          simp only [List.flatMap_cons, List.cons_append, List.nil_append, List.cons.injEq]
            at digits
          obtain ⟨high, low, rest⟩ := digits
          have boundA := a.toNat_lt
          have boundB := b.toNat_lt
          have highs := hexDigit_injective (by omega) (by omega) high
          have lows := hexDigit_injective (by omega) (by omega) low
          have bytes : a = b := UInt8.toNat_inj.mp (by omega)
          rw [bytes, inductionHypothesis rest]

@[simp] theorem hexEncode_inj {first second : Bytes} :
    hexEncode first = hexEncode second ↔ first = second := hexEncode_injective.eq_iff

theorem length_hexEncode (data : Bytes) : (hexEncode data).toList.length = 2 * data.length := by
  rw [hexEncode, String.toList_ofList]
  induction data with
  | nil => rfl
  | cons b rest inductionHypothesis =>
      rw [List.flatMap_cons, List.length_append, inductionHypothesis, List.length_cons]
      simp only [List.length_cons, List.length_nil]
      omega

/-! ## Keys -/

inductive KeyType where
  | ed25519
  | secp256k1
  deriving DecidableEq, Repr

def KeyType.rawLength : KeyType → Nat
  | .ed25519 => 32
  | .secp256k1 => 33

structure PublicKey where
  type : KeyType
  raw : Bytes
  valid : raw.length = type.rawLength
  deriving DecidableEq

namespace PublicKey

def toBytesRaw (key : PublicKey) : Bytes := key.raw

/-- `302a300506032b6570032100` -/
def ed25519DerPrefix : Bytes :=
  [0x30, 0x2a, 0x30, 0x05, 0x06, 0x03, 0x2b, 0x65, 0x70, 0x03, 0x21, 0x00]

/-- `302d300706052b8104000a032200` -/
def legacyDerPrefix : Bytes :=
  [0x30, 0x2d, 0x30, 0x07, 0x06, 0x05, 0x2b, 0x81, 0x04, 0x00, 0x0a, 0x03, 0x22, 0x00]

/-- `3036301006072a8648ce3d020106052b8104000a032200` -/
def ecdsaDerPrefix : Bytes :=
  [0x30, 0x36, 0x30, 0x10, 0x06, 0x07, 0x2a, 0x86, 0x48, 0xce, 0x3d, 0x02, 0x01, 0x06, 0x05,
    0x2b, 0x81, 0x04, 0x00, 0x0a, 0x03, 0x22, 0x00]

def toBytesDer (key : PublicKey) : Bytes :=
  match key.type with
  | .ed25519 => ed25519DerPrefix ++ key.raw
  | .secp256k1 => legacyDerPrefix ++ key.raw

def toString (key : PublicKey) : String := hexEncode key.toBytesDer

def equals (key other : PublicKey) : Bool := decide (key.type = other.type ∧ key.raw = other.raw)

theorem equals_iff (key other : PublicKey) : key.equals other = true ↔ key = other := by
  cases key
  cases other
  simp [equals]

/-- The two third-party decoders behind the longer encodings: `forge` reads an
ed25519 key from DER and `elliptic` an uncompressed secp256k1 key. -/
structure Decoders where
  forge : Bytes → Except String { raw : Bytes // raw.length = 32 }
  elliptic : Bytes → Except String { raw : Bytes // raw.length = 33 }

def fromBytesEd25519 (decoders : Decoders) (data : Bytes) : Except String PublicKey :=
  if h : data.length = 32 then .ok ⟨.ed25519, data, h⟩
  else if data.length = 44 then
    match decoders.forge data with
    | .ok raw => .ok ⟨.ed25519, raw.1, raw.2⟩
    | .error message =>
        .error s!"cannot decode ED25519 public key data from DER format: {message}"
  else .error s!"invalid public key length: {data.length} bytes"

def fromBytesEcdsa (decoders : Decoders) (data : Bytes) : Except String PublicKey :=
  if h : data.length = 33 then .ok ⟨.secp256k1, data, h⟩
  else if h : data.length = 47 then
    .ok ⟨.secp256k1, data.drop 14, by simp [h, KeyType.rawLength]⟩
  else if h : data.length = 56 then
    .ok ⟨.secp256k1, (data.drop 23).take 33, by simp [h, KeyType.rawLength]⟩
  else
    match decoders.elliptic (data.drop 23) with
    | .ok raw => .ok ⟨.secp256k1, raw.1, raw.2⟩
    | .error message => .error message

/-- ed25519 is tried first, then secp256k1. -/
def fromBytes (decoders : Decoders) (data : Bytes) : Except String PublicKey :=
  match fromBytesEd25519 decoders data with
  | .ok key => .ok key
  | .error _ =>
      match fromBytesEcdsa decoders data with
      | .ok key => .ok key
      | .error message => .error s!"public key cannot be decoded from bytes: {message}"

/-- A key is read back from its raw bytes, whatever the other decoders do. -/
theorem fromBytes_toBytesRaw (decoders : Decoders) (key : PublicKey) :
    fromBytes decoders key.toBytesRaw = .ok key := by
  obtain ⟨type, raw, valid⟩ := key
  cases type with
  | ed25519 =>
      have length : raw.length = 32 := valid
      simp [fromBytes, fromBytesEd25519, toBytesRaw, length]
  | secp256k1 =>
      have length : raw.length = 33 := valid
      simp [fromBytes, fromBytesEd25519, fromBytesEcdsa, toBytesRaw, length]

theorem toBytesRaw_injective : Function.Injective toBytesRaw := by
  rintro ⟨type, raw, valid⟩ ⟨type', raw', valid'⟩ same
  have raws : raw = raw' := same
  subst raws
  have lengths := valid.symm.trans valid'
  cases type <;> cases type' <;> simp_all [KeyType.rawLength]

/-- The text under which a signer is remembered. -/
def hex (key : PublicKey) : String := hexEncode key.toBytesRaw

@[simp] theorem hex_inj {key other : PublicKey} : key.hex = other.hex ↔ key = other := by
  simp [hex, toBytesRaw_injective.eq_iff]

end PublicKey

end HederaSdk
