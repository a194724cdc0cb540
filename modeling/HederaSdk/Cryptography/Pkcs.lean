import HederaSdk.Cryptography.DerTrees
import HederaSdk.Cryptography.PrivateKeyBytes

/-!
# PKCS #8

The objects that a decoded private key is made of. Each is read from the elements at its places; an
encrypted key says how it is to be decrypted.
-/

namespace HederaSdk

open Library
open Der (AsnType)

/-- What is thrown while a private key is decoded. -/
inductive PkcsError where
  | cryptography (error : CryptographyError)
  | der (error : Der.DerError)

namespace PkcsError

def error (message : String) : PkcsError := cryptography (.error message)

def badKey (message : String) : PkcsError := cryptography (.badKey message)

/-- The text of an error; for those that the engine throws it is given. -/
def message (engine : String) : PkcsError → String
  | cryptography error => PrivateKey.errorText engine error
  | der (.error message) => message
  | der .rangeError => engine

end PkcsError

structure AlgorithmIdentifier where
  algIdent : String
  parameters : Option AsnType

/-- `JSON.stringify` of what is decoded, the text of the errors of the engine, and the number of an arc
that is too large. -/
structure PkcsTexts where
  asn : Option AsnType → String
  algorithm : AlgorithmIdentifier → String
  engine : String
  inexact : Bytes → String

structure PBES2Params where
  kdf : AlgorithmIdentifier
  encScheme : AlgorithmIdentifier

structure PBKDF2Params where
  salt : Bytes
  iterCount : Nat
  keyLength : Option Nat := none
  prf : Option AlgorithmIdentifier := none

structure PrivateKeyInfo where
  version : Nat
  algId : AlgorithmIdentifier
  privateKey : Bytes

structure EncryptedPrivateKeyInfo where
  algId : AlgorithmIdentifier
  data : Bytes

namespace Der

theorem isSome_decode (inexact : Bytes → String) (data : Bytes) : (decode inexact data).isSome = true := by
  obtain ⟨result, ends⟩ := (terminates inexact data.length).1 data rfl
  unfold decode
  rw [ends _ (le_refl _)]
  rfl

end Der

variable (texts : PkcsTexts)

/-- `der.decode` -/
def derDecode (data : Bytes) : Except PkcsError AsnType :=
  ((Der.decode texts.inexact data).get (Der.isSome_decode texts.inexact data)).mapError .der

namespace AlgorithmIdentifier

def ofAsn : AsnType → Except PkcsError AlgorithmIdentifier
  | .node _ (.leaf (.ident ident) :: rest) => .ok ⟨ident, rest.head?⟩
  | asn => .error (.error s!"error parsing AlgorithmIdentifier from {texts.asn asn}")

end AlgorithmIdentifier

namespace PBES2Params

def ofAsn : AsnType → Except PkcsError PBES2Params
  | .node _ [kdf, encScheme] => do
      let kdf ← AlgorithmIdentifier.ofAsn texts kdf
      let encScheme ← AlgorithmIdentifier.ofAsn texts encScheme
      .ok { kdf, encScheme }
  | asn => .error (.error s!"error parsing PBES2Params from {texts.asn asn}")

end PBES2Params

namespace PBKDF2Params

/-- Without a third element the parameters are refused. -/
def ofAsn : AsnType → Except PkcsError PBKDF2Params
  | .node _ (.leaf (.bytes salt) :: .leaf (.int iterCount) :: .node label seq :: _) => do
      let prf ← AlgorithmIdentifier.ofAsn texts (.node label seq)
      .ok { salt, iterCount, prf }
  | .node _ [.leaf (.bytes salt), .leaf (.int iterCount), .leaf third, prf] => do
      let prf ← AlgorithmIdentifier.ofAsn texts prf
      .ok { salt, iterCount, keyLength := intOf third, prf }
  | .node _ (.leaf (.bytes salt) :: .leaf (.int iterCount) :: .leaf third :: _) =>
      .ok { salt, iterCount, keyLength := intOf third }
  | asn => .error (.error s!"error parsing PBKDF2Params from {texts.asn asn}")
where
  intOf : Der.AsnPrimitive → Option Nat
    | .int n => some n
    | _ => none

end PBKDF2Params

namespace PrivateKeyInfo

def ofAsn : AsnType → Except PkcsError PrivateKeyInfo
  | .node _ [version, algorithm, privateKey] =>
      match version with
      | .leaf (.int 0) => do
          let algId ← AlgorithmIdentifier.ofAsn texts algorithm
          match privateKey with
          | .leaf (.bytes privateKey) => .ok { version := 0, algId, privateKey }
          | other => .error (.error s!"expected octet string as 3rd element, got {texts.asn other}")
      | other => .error (.error s!"expected version = 0, got {texts.asn other}")
  | asn => .error (.error s!"error parsing PrivateKeyInfo from {texts.asn asn}")

def parse (encoded : Bytes) : Except PkcsError PrivateKeyInfo := do
  let asn ← derDecode texts encoded
  ofAsn texts asn

end PrivateKeyInfo

/-- `1.2.840.113549.1.5.13` -/
def idPbes2 : String := "1.2.840.113549.1.5.13"

def idPbkdf2 : String := "1.2.840.113549.1.5.12"

def idHmacSha256 : String := "1.2.840.113549.2.9"

def idAes128Cbc : String := "2.16.840.1.101.3.4.1.2"

def aes128Cbc : String := "AES-128-CBC"

namespace EncryptedPrivateKeyInfo

def ofAsn : AsnType → Except PkcsError EncryptedPrivateKeyInfo
  | .node _ [algorithm, .leaf (.bytes data)] => do
      let algId ← AlgorithmIdentifier.ofAsn texts algorithm
      .ok { algId, data }
  | asn => .error (.error s!"error parsing EncryptedPrivateKeyInfo from {texts.asn asn}")

def parse (encoded : Bytes) : Except PkcsError EncryptedPrivateKeyInfo := do
  let asn ← derDecode texts encoded
  ofAsn texts asn

/-- The salt, the iterations, the length of the key and the initial vector that the parameters name. -/
structure Decryption where
  salt : Bytes
  iterations : Nat
  keyLen : Nat
  iv : Bytes

/-- The checks of `decrypt`. -/
def decryption (info : EncryptedPrivateKeyInfo) : Except PkcsError Decryption := do
  let parameters ← match info.algId.parameters with
    | some parameters =>
        if info.algId.algIdent = idPbes2 then .ok parameters
        else .error (.error s!"unsupported key encryption algorithm: {texts.algorithm info.algId}")
    | none => .error (.error s!"unsupported key encryption algorithm: {texts.algorithm info.algId}")
  let pbes2Params ← PBES2Params.ofAsn texts parameters
  let parameters ← match pbes2Params.kdf.parameters with
    | some parameters =>
        if pbes2Params.kdf.algIdent = idPbkdf2 then .ok parameters
        else .error (.error s!"unsupported key derivation function: {texts.algorithm pbes2Params.kdf}")
    | none => .error (.error s!"unsupported key derivation function: {texts.algorithm pbes2Params.kdf}")
  let pbkdf2Params ← PBKDF2Params.ofAsn texts parameters
  match pbkdf2Params.prf with
  | none => .error (.error "unsupported PRF HMAC-SHA-1")
  | some prf =>
      if prf.algIdent ≠ idHmacSha256 then .error (.error s!"unsupported PRF {texts.algorithm prf}")
      else if pbes2Params.encScheme.algIdent ≠ idAes128Cbc then
        .error (.error s!"unsupported encryption scheme: {texts.algorithm pbes2Params.encScheme}")
      else
        match pbes2Params.encScheme.parameters with
        | some (.leaf (.bytes iv)) =>
            let keyLen := match pbkdf2Params.keyLength with
              | none | some 0 => 16
              | some keyLength => keyLength
            .ok { salt := pbkdf2Params.salt, iterations := pbkdf2Params.iterCount, keyLen, iv }
        | other => .error (.error s!"expected IV as bytes for AES-128-CBC, got: {texts.asn other}")

def decrypt (primitives : Primitives) (passphrase : String) (info : EncryptedPrivateKeyInfo) :
    Except PkcsError PrivateKeyInfo := do
  let decryption ← info.decryption texts
  let key ← (primitives.deriveKey (utf8Encode passphrase) decryption.salt decryption.iterations
    decryption.keyLen).mapError .cryptography
  let decrypted ← (primitives.createDecipheriv aes128Cbc (key.take 16) decryption.iv info.data).mapError .cryptography
  PrivateKeyInfo.parse texts decrypted

end EncryptedPrivateKeyInfo

/-! ## Encrypted keys -/

namespace Pkcs

open Der (DerTree Encodes ObjectIdentifier)

def pbes2 : ObjectIdentifier := ⟨1, 2, [840, 113549, 1, 5, 13], by decide, fun _ => by decide, by decide⟩

def pbkdf2 : ObjectIdentifier := ⟨1, 2, [840, 113549, 1, 5, 12], by decide, fun _ => by decide, by decide⟩

def hmacSha256 : ObjectIdentifier := ⟨1, 2, [840, 113549, 2, 9], by decide, fun _ => by decide, by decide⟩

def aes128CbcId : ObjectIdentifier :=
  ⟨2, 16, [840, 1, 101, 3, 4, 1, 2], by decide, fun less => absurd less (by decide), by decide⟩

def ed25519Id : ObjectIdentifier := ⟨1, 3, [101, 112], by decide, fun _ => by decide, by decide⟩

def algorithm (id : ObjectIdentifier) (parameters : List DerTree) : DerTree :=
  .node () (.leaf (.ident id) :: parameters)

/-- The parameters that a key is encrypted with. The length of the derived key may be named, and the
pseudorandom function may have a null for its parameters. -/
structure Sealing where
  salt : Bytes
  iterations : Nat
  small : iterations < 2147483648
  namesLength : Bool
  hasNull : Bool
  iv : Bytes

def Sealing.kdf (sealing : Sealing) : DerTree :=
  algorithm pbkdf2 [.node () (.leaf (.bytes sealing.salt) :: .leaf (.int sealing.iterations sealing.small) ::
    ((if sealing.namesLength then [.leaf (.int 16 (by decide))] else []) ++
      [algorithm hmacSha256 (if sealing.hasNull then [.leaf .null] else [])]))]

def Sealing.tree (sealing : Sealing) (data : Bytes) : DerTree :=
  .node () [algorithm pbes2 [.node () [sealing.kdf, algorithm aes128CbcId [.leaf (.bytes sealing.iv)]]],
    .leaf (.bytes data)]

/-- The bytes are an encrypted key that the passphrase opens. -/
def Seals (primitives : Primitives) (passphrase : String) (bytes plain : Bytes) : Prop :=
  ∃ (sealing : Sealing) (data key : Bytes), Encodes (sealing.tree data) bytes ∧
    primitives.deriveKey (utf8Encode passphrase) sealing.salt sealing.iterations 16 = .ok key ∧
    primitives.createDecipheriv aes128Cbc (key.take 16) sealing.iv data = .ok plain

variable {texts}

theorem derDecode_encodes {tree : DerTree} {bytes : Bytes} (encodes : Encodes tree bytes)
    (legible : Der.Legible tree bytes) :
    derDecode texts bytes = .ok (tree.map (Der.DerPrimitive.returned ObjectIdentifier.text)) := by
  have decoded : Der.decode texts.inexact bytes = _ := (Der.comesBack_iff encodes).mpr legible
  unfold derDecode
  simp only [decoded, Option.get_some]
  rfl

/-- The arcs of the algorithms are all below 40 at the second place. -/
theorem legible_tree (sealing : Sealing) (data : Bytes) {bytes : Bytes} (short : bytes.length < 4294967302) :
    Der.Legible (sealing.tree data) bytes := by
  refine ⟨short, fun id member => ?_⟩
  have among : .ident id ∈ (sealing.tree data).leaves.filter fun element =>
      match element with
      | .ident _ => true
      | _ => false := List.mem_filter.mpr ⟨member, rfl⟩
  have ids : ((sealing.tree data).leaves.filter fun element =>
      match element with
      | .ident _ => true
      | _ => false) = [.ident pbes2, .ident pbkdf2, .ident hmacSha256, .ident aes128CbcId] := by
    rcases sealing with ⟨salt, iterations, small, _ | _, _ | _, iv⟩ <;> rfl
  rw [ids] at among
  simp only [List.mem_cons, Der.DerPrimitive.ident.injEq, List.not_mem_nil, or_false] at among
  rcases among with rfl | rfl | rfl | rfl <;> decide

/-- What a tree is read as. -/
def returned (tree : DerTree) : AsnType := tree.map (Der.DerPrimitive.returned ObjectIdentifier.text)

/-- The parameters are found at their places. -/
theorem decryption_tree (sealing : Sealing) (data : Bytes) {bytes : Bytes} (encodes : Encodes (sealing.tree data) bytes)
    (short : bytes.length < 4294967302) :
    ∃ info : EncryptedPrivateKeyInfo, EncryptedPrivateKeyInfo.parse texts bytes = .ok info ∧ info.data = data ∧
      info.decryption texts = .ok ⟨sealing.salt, sealing.iterations, 16, sealing.iv⟩ := by
  have decoded := @derDecode_encodes texts _ _ encodes (legible_tree sealing data short)
  have isPbes2 : ObjectIdentifier.text pbes2 = idPbes2 := by decide +kernel
  have isPbkdf2 : ObjectIdentifier.text pbkdf2 = idPbkdf2 := by decide +kernel
  have isHmac : ObjectIdentifier.text hmacSha256 = idHmacSha256 := by decide +kernel
  have isAes : ObjectIdentifier.text aes128CbcId = idAes128Cbc := by decide +kernel
  refine ⟨⟨⟨pbes2.text, some (.node () [returned sealing.kdf,
    .node () [.leaf (.ident aes128CbcId.text), .leaf (.bytes sealing.iv)]])⟩, data⟩, ?_, rfl, ?_⟩
  · unfold EncryptedPrivateKeyInfo.parse
    rw [decoded]
    rfl
  · have params : ∃ parameters keyLength prfParameters,
        AlgorithmIdentifier.ofAsn texts (returned sealing.kdf) = .ok ⟨pbkdf2.text, some parameters⟩ ∧
          PBKDF2Params.ofAsn texts parameters =
            .ok ⟨sealing.salt, sealing.iterations, keyLength, some ⟨hmacSha256.text, prfParameters⟩⟩ ∧
              (keyLength = none ∨ keyLength = some 16) := by
      rcases sealing with ⟨salt, iterations, small, _ | _, _ | _, iv⟩
      · exact ⟨_, _, _, rfl, rfl, .inl rfl⟩
      · exact ⟨_, _, _, rfl, rfl, .inl rfl⟩
      · exact ⟨_, _, _, rfl, rfl, .inr rfl⟩
      · exact ⟨_, _, _, rfl, rfl, .inr rfl⟩
    obtain ⟨parameters, keyLength, prfParameters, kdf, params, length⟩ := params
    have scheme : PBES2Params.ofAsn texts (.node () [returned sealing.kdf,
        .node () [.leaf (.ident aes128CbcId.text), .leaf (.bytes sealing.iv)]]) =
          .ok ⟨⟨pbkdf2.text, some parameters⟩, ⟨aes128CbcId.text, some (.leaf (.bytes sealing.iv))⟩⟩ := by
      rw [PBES2Params.ofAsn, kdf]
      rfl
    unfold EncryptedPrivateKeyInfo.decryption
    rw [isPbkdf2, isAes] at scheme
    rw [isHmac] at params
    rw [isPbes2, isAes]
    rcases length with rfl | rfl
    · simp [scheme, params, bind, Except.bind]
    · simp [scheme, params, bind, Except.bind]

/-- The bytes of a small element. -/
theorem encodes_primitive (element : Der.DerPrimitive) {size : UInt8} (small : size < 128)
    (length : element.contents.length = size.toNat) :
    Encodes (.leaf element) (element.tag :: size :: element.contents) := by
  have below : element.contents.length < 128 := by
    rw [length]
    exact UInt8.lt_iff_toNat_lt.mp small
  have declared := Der.DerLength.short below
  rw [length, UInt8.ofNat_toNat, ← length] at declared
  exact .primitive element declared

theorem derDecode_octets {secret : Bytes} (length : secret.length = 32) :
    derDecode texts ([4, 32] ++ secret) = .ok (.leaf (.bytes secret)) := by
  have encodes := @encodes_primitive (.bytes secret) 32 (by decide) length
  refine derDecode_encodes encodes ⟨?_, fun id member => ?_⟩
  · rw [List.length_cons, List.length_cons]
    exact length ▸ (by decide)
  · cases List.mem_singleton.mp member

/-- The encoding that the package writes is that of version 0 with the algorithm of Ed25519. -/
theorem parse_ed25519Der {secret : Bytes} (length : secret.length = 32) :
    PrivateKeyInfo.parse texts (PrivateKey.ed25519DerPrefix ++ secret) =
      .ok ⟨0, ⟨ed25519Id.text, none⟩, [4, 32] ++ secret⟩ := by
  have version := @encodes_primitive (.int 0 (by decide)) 1 (by decide) rfl
  have id := @encodes_primitive (.ident ed25519Id) 3 (by decide) (by decide)
  have key := @encodes_primitive (.bytes ([4, 32] ++ secret)) 34 (by decide) (by
    change ([4, 32] ++ secret).length = 34
    rw [List.length_append, length]
    rfl)
  have contents : (Der.DerPrimitive.ident ed25519Id).contents = [0x2b, 0x65, 0x70] := by decide +kernel
  rw [contents] at id
  have algorithm := @Encodes.sequence [5] _ _ (.short (by decide)) (.cons id .nil)
  have declared : ∀ size, size = 46 → Der.DerLength [46] size := by
    rintro _ rfl
    exact .short (by decide)
  have encodes := @Encodes.sequence [46] _ _ (declared _ (by
    change (([2, 1, 0] : Bytes) ++ ([48, 5, 6, 3, 0x2b, 0x65, 0x70] ++ ((4 :: 34 :: ([4, 32] ++ secret)) ++ []))).length = 46
    simp [length])) (.cons version (.cons algorithm (.cons key .nil)))
  have same : PrivateKey.ed25519DerPrefix ++ secret =
      ([48, 46, 2, 1, 0] ++ ([48, 5, 6, 3, 0x2b, 0x65, 0x70] ++ ((4 :: 34 :: ([4, 32] ++ secret)) ++ [])) : Bytes) := by
    rw [List.append_nil]
    rfl
  rw [PrivateKeyInfo.parse, same]
  have decoded := @derDecode_encodes texts _ _ encodes ⟨?_, fun id member => ?_⟩
  · exact decoded ▸ rfl
  · change (PrivateKey.ed25519DerPrefix ++ secret ++ []).length < 4294967302
    rw [List.append_nil, List.length_append, length]
    decide
  · have only : id = ed25519Id := by
      simpa [Rose.leaves_node, Rose.leaves_leaf] using member
    rw [only]
    decide

end Pkcs

end HederaSdk
