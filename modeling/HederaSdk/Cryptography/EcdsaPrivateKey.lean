import HederaSdk.Cryptography.Hex
import HederaSdk.Library.BigEndian

/-!
# ECDSA private keys

A private key is kept as the bytes that its scalar needs, which are fewer than 32 for one
scalar in 256. DER encoding puts the missing zeros in front; the raw encoding leaves them
behind, so it is another number.
-/

namespace HederaSdk

open Library

/-- `n` of secp256k1. -/
def curveOrder : Nat := 0xfffffffffffffffffffffffffffffffebaaedce6af48a03bbfd25e8cd0364141

/-- The curve of the `elliptic` package, whose key pairs are known by their scalars. -/
structure Elliptic where
  keyFromPrivate : Bytes → Nat
  /-- `getPrivate("hex")` -/
  getPrivate : Nat → String
  /-- `getPublic(true, "hex")` -/
  getPublic : Nat → String

/-- The scalar is the number of the bytes on the curve, and its hex text has two digits for
each byte it needs. -/
structure Elliptic.Documented (curve : Elliptic) : Prop where
  keyFromPrivate : ∀ data, curve.keyFromPrivate data = BigEndian.value data % curveOrder
  getPrivate : ∀ d, 0 < d → curve.getPrivate d = hexEncode (BigEndian.minimal d)

structure KeyPair where
  privateKey : Bytes
  publicKey : Bytes
  deriving DecidableEq

structure EcdsaPrivateKey where
  keyPair : KeyPair
  chainCode : Option Bytes := none
  deriving DecidableEq

/-- `target.set(data, offset)`, when `data` fits. -/
def setBytes (target data : Bytes) (offset : Nat) : Bytes :=
  target.take offset ++ data ++ target.drop (offset + data.length)

namespace EcdsaPrivateKey

/-- `3030020100300706052b8104000a04220420` -/
def derPrefix : Bytes :=
  [0x30, 0x30, 0x02, 0x01, 0x00, 0x30, 0x07, 0x06, 0x05, 0x2b, 0x81, 0x04, 0x00, 0x0a, 0x04, 0x22,
    0x04, 0x20]

/-- `30540201010420` -/
def derPrefix2 : Bytes := [0x30, 0x54, 0x02, 0x01, 0x01, 0x04, 0x20]

section Reading

variable (curve : Elliptic)

/-- The private key with a scalar, read or generated. -/
def ofScalar (d : Nat) : EcdsaPrivateKey where
  keyPair :=
    { privateKey := hexDecode (curve.getPrivate d)
      publicKey := hexDecode (curve.getPublic d) }

def fromBytesRaw (data : Bytes) : EcdsaPrivateKey := ofScalar curve (curve.keyFromPrivate data)

def fromBytesDer (data : Bytes) : EcdsaPrivateKey :=
  if derPrefix.isPrefixOf data then fromBytesRaw curve (data.drop derPrefix.length)
  else fromBytesRaw curve ((data.drop derPrefix2.length).take 32)

def fromBytes (data : Bytes) : EcdsaPrivateKey :=
  if data.length = 32 then fromBytesRaw curve data else fromBytesDer curve data

end Reading

def toBytesDer (key : EcdsaPrivateKey) : Bytes :=
  let bytes := List.replicate (derPrefix.length + 32) 0
  let privateKey := key.keyPair.privateKey.take 32
  let leadingZeroes := 32 - privateKey.length
  setBytes (setBytes bytes derPrefix 0) privateKey (derPrefix.length + leadingZeroes)

def toBytesRaw (key : EcdsaPrivateKey) : Bytes :=
  setBytes (List.replicate 32 0) (key.keyPair.privateKey.take 32) 0

/-! ## Reading back -/

/-- A key with this scalar and its public key. -/
structure IsKeyOf (curve : Elliptic) (d : Nat) (key : EcdsaPrivateKey) : Prop where
  privateKey : BigEndian.value key.keyPair.privateKey = d
  publicKey : key.keyPair.publicKey = (ofScalar curve d).keyPair.publicKey

/-- The raw encoding is that of the scalar, and both encodings are read back as the key. -/
structure Encodes (curve : Elliptic) (d : Nat) : Prop where
  raw : (ofScalar curve d).toBytesRaw = BigEndian.encode 32 d
  fromRaw : IsKeyOf curve d (fromBytes curve (ofScalar curve d).toBytesRaw)
  fromDer : IsKeyOf curve d (fromBytes curve (ofScalar curve d).toBytesDer)

variable {curve : Elliptic} {d : Nat}

theorem privateKey_ofScalar (documented : curve.Documented) (positive : 0 < d) :
    (ofScalar curve d).keyPair.privateKey = BigEndian.minimal d := by
  rw [ofScalar, documented.getPrivate d positive, hexDecode_hexEncode]

theorem length_privateKey (documented : curve.Documented) (positive : 0 < d) (onCurve : d < curveOrder) :
    (ofScalar curve d).keyPair.privateKey.length ≤ 32 := by
  rw [privateKey_ofScalar documented positive, BigEndian.length_minimal_le_iff]
  exact onCurve.trans (by decide)

/-- The missing zeros are left behind. -/
theorem toBytesRaw_eq (documented : curve.Documented) (positive : 0 < d) (onCurve : d < curveOrder) :
    (ofScalar curve d).toBytesRaw =
      BigEndian.minimal d ++ List.replicate (32 - (BigEndian.minimal d).length) 0 := by
  have short := length_privateKey documented positive onCurve
  rw [privateKey_ofScalar documented positive] at short
  rw [toBytesRaw, setBytes, privateKey_ofScalar documented positive, List.take_of_length_le short,
    List.drop_replicate, List.take_zero, List.nil_append, Nat.zero_add]

/-- The missing zeros are put in front. -/
theorem toBytesDer_eq (documented : curve.Documented) (positive : 0 < d) (onCurve : d < curveOrder) :
    (ofScalar curve d).toBytesDer = derPrefix ++ BigEndian.encode 32 d := by
  have short := length_privateKey documented positive onCurve
  rw [privateKey_ofScalar documented positive] at short
  have small : d < 256 ^ 32 := onCurve.trans (by decide)
  have header : setBytes (List.replicate (derPrefix.length + 32) 0) derPrefix 0 =
      derPrefix ++ List.replicate 32 0 := by decide
  have whole : derPrefix.length + (32 - (BigEndian.minimal d).length) + (BigEndian.minimal d).length =
      (derPrefix ++ List.replicate 32 (0 : UInt8)).length := by
    rw [List.length_append, List.length_replicate]
    omega
  rw [toBytesDer, BigEndian.encode_eq_minimal small]
  simp only [privateKey_ofScalar documented positive, List.take_of_length_le short, header]
  rw [setBytes, whole, List.drop_length, List.append_nil, List.take_length_add_append,
    List.take_replicate, Nat.min_eq_left (Nat.sub_le _ _), List.append_assoc]

/-- A key is what it is read back as when the bytes have its number. -/
theorem isKeyOf_fromBytesRaw (documented : curve.Documented) (positive : 0 < d) (onCurve : d < curveOrder)
    {data : Bytes} (number : BigEndian.value data = d) : IsKeyOf curve d (fromBytesRaw curve data) := by
  have scalar : curve.keyFromPrivate data = d := by
    rw [documented.keyFromPrivate, number, Nat.mod_eq_of_lt onCurve]
  rw [fromBytesRaw, scalar]
  refine ⟨?_, rfl⟩
  rw [privateKey_ofScalar documented positive, BigEndian.value_minimal]

/-- What DER encoding writes is read back as the key, however many bytes the scalar needs. -/
theorem isKeyOf_fromDer (documented : curve.Documented) (positive : 0 < d) (onCurve : d < curveOrder) :
    IsKeyOf curve d (fromBytes curve (ofScalar curve d).toBytesDer) := by
  have small : d < 256 ^ 32 := onCurve.trans (by decide)
  have long : (derPrefix ++ BigEndian.encode 32 d).length ≠ 32 := by
    rw [List.length_append, BigEndian.length_encode]
    decide
  have prefixed : derPrefix.isPrefixOf (derPrefix ++ BigEndian.encode 32 d) = true :=
    List.isPrefixOf_iff_prefix.mpr (List.prefix_append _ _)
  rw [toBytesDer_eq documented positive onCurve, fromBytes, if_neg long, fromBytesDer, if_pos prefixed,
    List.drop_left]
  exact isKeyOf_fromBytesRaw documented positive onCurve (BigEndian.value_encode_of_lt small)

/-- A private key is encoded rightly exactly when its scalar needs 32 bytes. -/
theorem encodes_iff (documented : curve.Documented) (positive : 0 < d) (onCurve : d < curveOrder) :
    Encodes curve d ↔ 2 ^ 248 ≤ d := by
  have small : d < 256 ^ 32 := onCurve.trans (by decide)
  have upper : (BigEndian.minimal d).length ≤ 32 := BigEndian.length_minimal_le_iff.mpr small
  have lower : (BigEndian.minimal d).length ≤ 31 ↔ d < 256 ^ 31 := BigEndian.length_minimal_le_iff
  have bound : (256 : Nat) ^ 31 = 2 ^ 248 := by decide
  rw [bound] at lower
  have raw := toBytesRaw_eq documented positive onCurve
  constructor
  · intro encodes
    by_contra least
    -- The zeros behind make it the number `256 ^ missing` times as large.
    have missing : 0 < 32 - (BigEndian.minimal d).length := by
      have := lower.mpr (Nat.lt_of_not_le least)
      omega
    have number := congrArg BigEndian.value (raw.symm.trans encodes.raw)
    rw [BigEndian.value_append, BigEndian.value_minimal, BigEndian.value_replicate,
      BigEndian.value_encode_of_lt small, List.length_replicate, Nat.add_zero] at number
    have larger : 1 < 256 ^ (32 - (BigEndian.minimal d).length) :=
      Nat.one_lt_pow (Nat.pos_iff_ne_zero.mp missing) (by decide)
    exact absurd number (Nat.ne_of_gt (lt_mul_of_one_lt_right positive larger))
  · intro least
    have length : (BigEndian.minimal d).length = 32 := by
      have := lower.not.mpr (Nat.not_lt_of_le least)
      omega
    have exactly : (ofScalar curve d).toBytesRaw = BigEndian.encode 32 d := by
      rw [raw, BigEndian.encode_eq_minimal small, length]
      exact List.append_nil _
    have number := BigEndian.value_encode_of_lt small
    refine ⟨exactly, ?_, ?_⟩
    · rw [exactly, fromBytes, if_pos (BigEndian.length_encode 32 d)]
      exact isKeyOf_fromBytesRaw documented positive onCurve number
    · exact isKeyOf_fromDer documented positive onCurve

/-- The curve as far as the base point and its negative. -/
def basePoint : Elliptic where
  keyFromPrivate data := BigEndian.value data % curveOrder
  getPrivate d := hexEncode (BigEndian.minimal d)
  getPublic d :=
    if d = 1 then "0279be667ef9dcbbac55a06295ce870b07029bfcdb2dce28d959f2815b16f81798"
    else "0379be667ef9dcbbac55a06295ce870b07029bfcdb2dce28d959f2815b16f81798"

theorem basePoint_documented : basePoint.Documented := ⟨fun _ => rfl, fun _ _ => rfl⟩

theorem negative_encodes : Encodes basePoint (curveOrder - 1) :=
  (encodes_iff basePoint_documented (by decide) (by decide)).mpr (by decide)

/-- The raw encoding of the scalar 1 begins with the byte 1. -/
theorem one_misencoded : basePoint.Documented ∧ 1 < curveOrder ∧ ¬ Encodes basePoint 1 := by
  refine ⟨basePoint_documented, by decide, fun encodes => ?_⟩
  have leading := congrArg List.head? encodes.raw
  rw [toBytesRaw_eq basePoint_documented (by decide) (by decide)] at leading
  exact absurd leading (by decide +kernel)

end EcdsaPrivateKey

end HederaSdk
