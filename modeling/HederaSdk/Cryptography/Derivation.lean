import HederaSdk.Cryptography.PrivateKey
import HederaSdk.Js.Json
import HederaSdk.Library.Runs

/-!
# Deriving keys

`bip32.derive` makes a child of the 32 bytes of a scalar. A mnemonic's key data goes from one
derivation to the next as it is; `PrivateKey.derive` gives the raw bytes of its key instead, which
are not those of its scalar when that begins with a zero.
-/

namespace HederaSdk

open Library

/-- `index | HARDENED_BIT`, of 32 bits with a sign. -/
def toHardenedIndex (index : Int) : Int :=
  Int.bmod (((index % 4294967296).toNat ||| 2147483648 : Nat) : Int) 4294967296

def isHardenedIndex (index : Int) : Bool := 2147483648 ≤ index % 4294967296

/-- What a derivation has for its parent, and returns for its child. -/
structure Derived where
  keyData : Bytes
  chainCode : Bytes
  deriving DecidableEq

/-- `hex.hexZeroPadded` -/
def hexZeroPadded (value : Bytes) (length : Nat) : String :=
  .ofList (Text.padded (2 * length) (hexEncode value).toList)

/-- `setUint32(33, index, false)` -/
def setIndex (data : Bytes) (index : Int) : Bytes :=
  setBytes data (BigEndian.encode 4 (index % 4294967296).toNat) 33

/-- `hmac.hash` with SHA-512 of a key and data. -/
abbrev HmacSha512 := Bytes → Bytes → Bytes

namespace Slip10

/-- `slip10.derive`; a hardened index is an error. -/
def derive (hmac : HmacSha512) (parentKey chainCode : Bytes) (index : Int) : Option Derived :=
  if isHardenedIndex index then none
  else
    let input := setIndex (setBytes (List.replicate 37 0) parentKey 1) (toHardenedIndex index)
    let digest := hmac chainCode input
    some ⟨digest.take 32, digest.drop 32⟩

end Slip10

namespace Bip32

section

variable (hmac : HmacSha512) (curve : Elliptic)

/-- What is hashed for a child. -/
def hashed (parentKey : Bytes) (index : Int) : Bytes :=
  let data := List.replicate 37 0
  let publicKey := hexDecode (curve.getPublic (curve.keyFromPrivate parentKey))
  setIndex (if isHardenedIndex index then setBytes data parentKey 1 else setBytes data publicKey 0) index

/-- `bip32.derive` with so many tries; `none` when it throws or needs more of them. The scalar zero
has no public key. -/
def derive : Nat → Bytes → Bytes → Int → Option Derived
  | 0, _, _, _ => none
  | tries + 1, parentKey, chainCode, index =>
      if curve.keyFromPrivate parentKey = 0 then none
      else
        let digest := hmac chainCode (hashed curve parentKey index)
        let ki := (curve.keyFromPrivate parentKey + curve.keyFromPrivate (digest.take 32)) % curveOrder
        if ki = 0 then derive tries parentKey chainCode (index + 1)
        else some ⟨hexDecode (hexZeroPadded (BigEndian.minimal ki) 32), digest.drop 32⟩

/-- `bip32.fromSeed` -/
def fromSeed (seed : Bytes) : Option Derived :=
  if seed.length < 16 ∨ 64 < seed.length then none
  else
    let digest := hmac (utf8Encode "Bitcoin seed") seed
    some ⟨digest.take 32, digest.drop 32⟩

end

end Bip32

/-- `new EcdsaPrivateKey(ecdsa.fromBytes(keyData), chainCode)` -/
def ecdsaKeyOf (curve : Elliptic) (derived : Derived) : Option PrivateKey :=
  if curve.keyFromPrivate derived.keyData = 0 then none
  else
    some (.ecdsa { EcdsaPrivateKey.fromBytesRaw curve derived.keyData with
      chainCode := some derived.chainCode })

namespace PrivateKey

section

variable (hmac : HmacSha512) (nacl : Nacl) (curve : Elliptic)

/-- `fromSeedECDSAsecp256k1` -/
def fromSeedEcdsa (seed : Bytes) : Option PrivateKey := (Bip32.fromSeed hmac seed).bind (ecdsaKeyOf curve)

/-- `none` without a chain code. -/
def derive (tries : Nat) (key : PrivateKey) (index : Int) : Option PrivateKey :=
  match key.chainCode with
  | none => none
  | some chainCode =>
      match key with
      | ed25519 _ =>
          (Slip10.derive hmac key.toBytesRaw chainCode index).bind fun derived =>
            (nacl.fromSeed derived.keyData).toOption.map fun keyPair =>
              ed25519 { keyPair, chainCode := some derived.chainCode }
      | ecdsa _ =>
          (Bip32.derive hmac curve tries key.toBytesRaw chainCode index).bind (ecdsaKeyOf curve)

/-- From one object to the next, as `toStandardECDSAsecp256k1PrivateKey` does. -/
def deriveStep (tries : Nat) (key : Option PrivateKey) (index : Int) : Option PrivateKey :=
  key.bind fun key => key.derive hmac nacl curve tries index

/-- From key data to key data, as `toEcdsaPrivateKey` does. -/
def directStep (tries : Nat) (parent : Option Derived) (index : Int) : Option Derived :=
  parent.bind fun parent => Bip32.derive hmac curve tries parent.keyData parent.chainCode index

/-- Behind every part of the path the routes have the same key, and they give the next derivation
the same bytes. -/
structure RoutesAgree (tries : Nat) (key : Option PrivateKey) (parent : Option Derived) (path : List Int) :
    Prop where
  keys : ∀ first, first <+: path →
    runAll (deriveStep hmac nacl curve tries) key first =
      (runAll (directStep hmac curve tries) parent first).bind (ecdsaKeyOf curve)
  bytes : ∀ first index, first ++ [index] <+: path →
    ∀ key' ∈ runAll (deriveStep hmac nacl curve tries) key first,
    ∀ parent' ∈ runAll (directStep hmac curve tries) parent first, key'.toBytesRaw = parent'.keyData

/-- The key data is a scalar of the curve that needs 32 bytes, or is none and has no key. -/
def NeedsAllBytes (parent : Option Derived) (_ : Int) : Prop :=
  ∀ derived ∈ parent, curve.keyFromPrivate derived.keyData ≠ 0 →
    2 ^ 248 ≤ BigEndian.value derived.keyData ∧ BigEndian.value derived.keyData < curveOrder

end

/-! ## One derivation -/

/-- What the routes have in common at any time. -/
structure Corresponds (curve : Elliptic) (key : Option PrivateKey) (parent : Option Derived) : Prop where
  key : key = parent.bind (ecdsaKeyOf curve)
  length : ∀ derived ∈ parent, derived.keyData.length = 32

section

variable {hmac : HmacSha512} {nacl : Nacl} {curve : Elliptic} {tries : Nat}

theorem hexEncode_replicate_append (zeros : Nat) (data : Bytes) :
    (hexEncode (List.replicate zeros 0 ++ data)).toList =
      List.replicate (2 * zeros) '0' ++ (hexEncode data).toList := by
  induction zeros with
  | zero => rfl
  | succ zeros inductionHypothesis =>
      simp only [hexEncode, String.toList_ofList] at inductionHypothesis ⊢
      rw [List.replicate_succ, List.cons_append, List.flatMap_cons, inductionHypothesis, Nat.mul_succ]
      rfl

/-- Padding the text puts zeros in front of the bytes. -/
theorem hexDecode_hexZeroPadded (value : Bytes) (length : Nat) :
    hexDecode (hexZeroPadded value length) = List.replicate (length - value.length) 0 ++ value := by
  have padded : hexZeroPadded value length = hexEncode (List.replicate (length - value.length) 0 ++ value) := by
    apply String.toList_injective
    rw [hexZeroPadded, String.toList_ofList, hexEncode_replicate_append, Text.padded, length_hexEncode,
      Nat.mul_sub]
  rw [padded, hexDecode_hexEncode]

/-- The key data of a child is its scalar in 32 bytes. -/
theorem derive_eq_some {parentKey chainCode : Bytes} {index : Int} {child : Derived}
    (derived : Bip32.derive hmac curve tries parentKey chainCode index = some child) :
    ∃ d, d < curveOrder ∧ child.keyData = BigEndian.encode 32 d := by
  induction tries generalizing index with
  | zero => cases derived
  | succ tries inductionHypothesis =>
      rw [Bip32.derive] at derived
      split at derived
      · cases derived
      · simp only at derived
        split at derived
        · exact inductionHypothesis derived
        · have onCurve := Nat.mod_lt (curve.keyFromPrivate parentKey + curve.keyFromPrivate
            ((hmac chainCode (Bip32.hashed curve parentKey index)).take 32)) (show 0 < curveOrder by decide)
          refine ⟨_, onCurve, ?_⟩
          rw [← Option.some.inj derived, hexDecode_hexZeroPadded,
            BigEndian.encode_eq_minimal (onCurve.trans (by decide))]

/-- No number of up to 31 bytes with the digit 255 only shares a factor with the order. -/
theorem coprime_curveOrder : ∀ k ∈ List.range 31, Nat.Coprime (256 ^ (k + 1) - 1) curveOrder := by
  decide +kernel

/-- A scalar with zeros behind is another scalar. -/
theorem mul_pow_mod_curveOrder_ne {d k : Nat} (positive : 0 < d) (onCurve : d < curveOrder) (some : 0 < k)
    (few : k ≤ 31) : d * 256 ^ k % curveOrder ≠ d := by
  intro same
  have least : 1 ≤ 256 ^ k := Nat.one_le_pow _ _ (by decide)
  have coprime := coprime_curveOrder (k - 1) (List.mem_range.mpr (by omega))
  rw [Nat.sub_add_cancel some] at coprime
  have divides : curveOrder ∣ (256 ^ k - 1) * d := by
    rw [Nat.sub_mul, Nat.one_mul, Nat.mul_comm]
    refine (Nat.modEq_iff_dvd' (Nat.le_mul_of_pos_right d least)).mp ?_
    rw [Nat.ModEq, same, Nat.mod_eq_of_lt onCurve]
  exact absurd (Nat.le_of_dvd positive (coprime.symm.dvd_of_dvd_mul_left divides)) (Nat.not_le_of_lt onCurve)

/-- The raw bytes of the key of 32 bytes are these bytes exactly when their number is a scalar that
needs all of them. -/
theorem toBytesRaw_eq_iff (documented : curve.Documented) {data : Bytes} (length : data.length = 32)
    (nonzero : curve.keyFromPrivate data ≠ 0) :
    (EcdsaPrivateKey.fromBytesRaw curve data).toBytesRaw = data ↔
      2 ^ 248 ≤ BigEndian.value data ∧ BigEndian.value data < curveOrder := by
  have scalar := documented.keyFromPrivate data
  have positive : 0 < curve.keyFromPrivate data := Nat.pos_of_ne_zero nonzero
  have onCurve : curve.keyFromPrivate data < curveOrder := scalar ▸ Nat.mod_lt _ (by decide)
  have raw := EcdsaPrivateKey.toBytesRaw_eq documented positive onCurve
  have small : curve.keyFromPrivate data < 256 ^ 32 := onCurve.trans (by decide)
  have upper := BigEndian.length_minimal_le_iff.mpr small
  have lower : (BigEndian.minimal (curve.keyFromPrivate data)).length ≤ 31 ↔
      curve.keyFromPrivate data < 256 ^ 31 := BigEndian.length_minimal_le_iff
  have bound : (256 : Nat) ^ 31 = 2 ^ 248 := by decide
  rw [bound] at lower
  change (EcdsaPrivateKey.ofScalar curve (curve.keyFromPrivate data)).toBytesRaw = data ↔ _
  rw [raw]
  constructor
  · intro same
    have number := congrArg BigEndian.value same
    rw [BigEndian.value_append, BigEndian.value_minimal, BigEndian.value_replicate, List.length_replicate,
      Nat.add_zero] at number
    have all : 32 - (BigEndian.minimal (curve.keyFromPrivate data)).length = 0 := by
      by_contra some
      have nonempty : 0 < (BigEndian.minimal (curve.keyFromPrivate data)).length := by
        rw [Nat.pos_iff_ne_zero, Ne, List.length_eq_zero_iff]
        intro none
        have value := BigEndian.value_minimal (curve.keyFromPrivate data)
        rw [none] at value
        exact nonzero value.symm
      apply mul_pow_mod_curveOrder_ne positive onCurve (Nat.pos_of_ne_zero some) (by omega)
      rw [number, ← scalar]
    rw [all, pow_zero, Nat.mul_one] at number
    rw [← number]
    exact ⟨Nat.le_of_not_lt fun least => by have := lower.mpr least; omega, onCurve⟩
  · rintro ⟨least, reduced⟩
    have same : curve.keyFromPrivate data = BigEndian.value data := scalar.trans (Nat.mod_eq_of_lt reduced)
    have whole : (BigEndian.minimal (BigEndian.value data)).length = 32 := by
      rw [same] at lower upper
      have := lower.not.mpr (Nat.not_lt_of_le least)
      omega
    rw [same, whole, Nat.sub_self, List.replicate_zero, List.append_nil]
    apply BigEndian.value_injective (whole.trans length.symm)
    exact BigEndian.value_minimal _

theorem ecdsaKeyOf_of_ne {derived : Derived} (nonzero : curve.keyFromPrivate derived.keyData ≠ 0) :
    ecdsaKeyOf curve derived = some (.ecdsa { EcdsaPrivateKey.fromBytesRaw curve derived.keyData with
      chainCode := some derived.chainCode }) := if_neg nonzero

theorem derive_of_zero {parentKey chainCode : Bytes} (zero : curve.keyFromPrivate parentKey = 0) (index : Int) :
    Bip32.derive hmac curve tries parentKey chainCode index = none := by
  cases tries with
  | zero => rfl
  | succ tries => exact if_pos zero

/-- Corresponding keys give a derivation the same bytes exactly when the scalar needs all of them. -/
theorem sameBytes_iff (documented : curve.Documented) {key : Option PrivateKey} {parent : Option Derived}
    (corresponds : Corresponds curve key parent) (index : Int) :
    (∀ key' ∈ key, ∀ parent' ∈ parent, key'.toBytesRaw = parent'.keyData) ↔
      NeedsAllBytes curve parent index := by
  obtain ⟨rfl, length⟩ := corresponds
  constructor
  · rintro same derived rfl nonzero
    rw [← toBytesRaw_eq_iff documented (length derived rfl) nonzero]
    exact same _ (ecdsaKeyOf_of_ne nonzero) derived rfl
  · rintro all key' isKey derived rfl
    have isKey : ecdsaKeyOf curve derived = some key' := isKey
    by_cases zero : curve.keyFromPrivate derived.keyData = 0
    · rw [ecdsaKeyOf, if_pos zero] at isKey
      cases isKey
    · rw [ecdsaKeyOf_of_ne zero] at isKey
      rw [← Option.some.inj isKey]
      exact (toBytesRaw_eq_iff documented (length derived rfl) zero).mpr (all derived rfl zero)

/-- A derivation that is given the same bytes leads to corresponding keys. -/
theorem corresponds_step {key : Option PrivateKey} {parent : Option Derived} (nacl : Nacl)
    (corresponds : Corresponds curve key parent) {index : Int}
    (same : ∀ key' ∈ key, ∀ parent' ∈ parent, key'.toBytesRaw = parent'.keyData) :
    Corresponds curve (deriveStep hmac nacl curve tries key index) (directStep hmac curve tries parent index) := by
  obtain ⟨rfl, length⟩ := corresponds
  cases parent with
  | none => exact ⟨rfl, fun _ none => by cases none⟩
  | some derived =>
      constructor
      · by_cases zero : curve.keyFromPrivate derived.keyData = 0
        · have noKey : ecdsaKeyOf curve derived = none := if_pos zero
          rw [Option.bind_some, noKey, directStep, Option.bind_some, derive_of_zero zero]
          rfl
        · obtain ⟨key, isKey, derives⟩ : ∃ key, ecdsaKeyOf curve derived = some key ∧
              key.derive hmac nacl curve tries index =
                (Bip32.derive hmac curve tries key.toBytesRaw derived.chainCode index).bind (ecdsaKeyOf curve) :=
            ⟨_, ecdsaKeyOf_of_ne zero, rfl⟩
          have bytes : key.toBytesRaw = derived.keyData := same key isKey derived rfl
          rw [Option.bind_some, isKey, deriveStep, Option.bind_some, derives, bytes, directStep,
            Option.bind_some]
      · intro child isChild
        obtain ⟨d, -, keyData⟩ := derive_eq_some isChild
        rw [keyData, BigEndian.length_encode]

/-! ## Paths -/

/-- From corresponding keys on, the routes agree exactly when every scalar that has a child needs all
of its bytes. -/
theorem routesAgree_iff_of_corresponds (documented : curve.Documented) (nacl : Nacl) {key : Option PrivateKey}
    {parent : Option Derived} (path : List Int) (corresponds : Corresponds curve key parent) :
    RoutesAgree hmac nacl curve tries key parent path ↔
      Guarded (directStep hmac curve tries) (NeedsAllBytes curve) parent path := by
  induction path generalizing key parent with
  | nil =>
      refine ⟨fun _ => trivial, fun _ => ⟨fun first initial => ?_, fun first index initial => ?_⟩⟩
      · rw [List.prefix_nil.mp initial]
        exact corresponds.key
      · exact absurd (List.prefix_nil.mp initial) (by simp)
  | cons index rest inductionHypothesis =>
      have one := sameBytes_iff documented corresponds index
      constructor
      · intro agree
        have same := agree.bytes [] index (List.cons_prefix_cons.mpr ⟨rfl, List.nil_prefix⟩)
        refine ⟨one.mp same, (inductionHypothesis (corresponds_step nacl corresponds same)).mp ⟨?_, ?_⟩⟩
        · intro first initial
          exact agree.keys (index :: first) (List.cons_prefix_cons.mpr ⟨rfl, initial⟩)
        · intro first next initial
          exact agree.bytes (index :: first) next (List.cons_prefix_cons.mpr ⟨rfl, initial⟩)
      · rintro ⟨now, later⟩
        have same := one.mpr now
        have behind := (inductionHypothesis (corresponds_step nacl corresponds same)).mpr later
        constructor
        · intro first initial
          rcases List.prefix_cons_iff.mp initial with rfl | ⟨first, rfl, within⟩
          · exact corresponds.key
          · exact behind.keys first within
        · intro first next initial
          cases first with
          | nil =>
              obtain ⟨rfl, -⟩ := List.cons_prefix_cons.mp initial
              exact same
          | cons head first =>
              obtain ⟨rfl, within⟩ := List.cons_prefix_cons.mp initial
              exact behind.bytes first next within

/-- A digest is 64 bytes long. -/
def IsDigest (hmac : HmacSha512) : Prop := ∀ key data, (hmac key data).length = 64

theorem corresponds_fromSeed (curve : Elliptic) (digest : IsDigest hmac) (seed : Bytes) :
    Corresponds curve (fromSeedEcdsa hmac curve seed) (Bip32.fromSeed hmac seed) := by
  refine ⟨rfl, fun derived isDerived => ?_⟩
  rw [Bip32.fromSeed] at isDerived
  split at isDerived
  · cases isDerived
  · rw [← Option.some.inj isDerived]
    simp [digest (utf8Encode "Bitcoin seed") seed]

/-- The objects of a seed and its key data agree along a path exactly when every scalar on it that
has a child needs all of its bytes; the key at the end is then that of the key data. -/
theorem routesAgree_iff (documented : curve.Documented) (nacl : Nacl) (digest : IsDigest hmac) (tries : Nat)
    (seed : Bytes) (path : List Int) :
    RoutesAgree hmac nacl curve tries (fromSeedEcdsa hmac curve seed) (Bip32.fromSeed hmac seed) path ↔
      Guarded (directStep hmac curve tries) (NeedsAllBytes curve) (Bip32.fromSeed hmac seed) path :=
  routesAgree_iff_of_corresponds documented nacl path (corresponds_fromSeed curve digest seed)

end

section Samples

instance NeedsAllBytes.decidable (curve : Elliptic) (parent : Option Derived) (index : Int) :
    Decidable (NeedsAllBytes curve parent index) :=
  inferInstanceAs (Decidable (∀ derived ∈ parent, curve.keyFromPrivate derived.keyData ≠ 0 →
    2 ^ 248 ≤ BigEndian.value derived.keyData ∧ BigEndian.value derived.keyData < curveOrder))

/-- Digests of one byte throughout. -/
def evenHmac : HmacSha512 := fun _ _ => List.replicate 64 0x40

/-- Digests whose first half is the number 1. -/
def smallHmac : HmacSha512 := fun _ _ => List.replicate 31 0 ++ 1 :: List.replicate 32 0

def sampleSeed : Bytes := List.replicate 32 1

/-- The path of `toStandardECDSAsecp256k1PrivateKey`. -/
def standardPath (index : Int) : List Int :=
  [toHardenedIndex 44, toHardenedIndex 3030, toHardenedIndex 0, 0, index]

/-- A package that makes no key. -/
def noNacl : Nacl where
  fromSeed _ := .error .typeError
  fromSecretKey _ := .error .typeError
  fromDer _ := .error "no object"
  privateKeyFromAsn1 _ := .error "no key"

theorem standard_path_agrees :
    RoutesAgree evenHmac noNacl EcdsaPrivateKey.basePoint 1
      (fromSeedEcdsa evenHmac EcdsaPrivateKey.basePoint sampleSeed) (Bip32.fromSeed evenHmac sampleSeed)
      (standardPath 0) := by
  have digest : IsDigest evenHmac := fun _ _ => List.length_replicate
  apply (routesAgree_iff EcdsaPrivateKey.basePoint_documented noNacl digest 1 sampleSeed (standardPath 0)).mpr
  decide +kernel

/-- The first child of the scalar 1 is one key through objects and another one directly. -/
theorem child_of_one_differs :
    IsDigest smallHmac ∧
      runAll (deriveStep smallHmac noNacl EcdsaPrivateKey.basePoint 1)
          (fromSeedEcdsa smallHmac EcdsaPrivateKey.basePoint sampleSeed) [0] ≠
        (runAll (directStep smallHmac EcdsaPrivateKey.basePoint 1) (Bip32.fromSeed smallHmac sampleSeed) [0]).bind
          (ecdsaKeyOf EcdsaPrivateKey.basePoint) :=
  ⟨fun _ _ => rfl, by decide +kernel⟩

end Samples

end PrivateKey

end HederaSdk
