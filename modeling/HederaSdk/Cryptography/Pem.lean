import HederaSdk.Cryptography.PemText
import HederaSdk.Cryptography.Pkcs
import HederaSdk.Library.BitGroups

/-!
# Private keys from PEM texts

Which class reads a text is decided by a piece of it anywhere. One reader takes the bytes behind the
first 16 of everything between the markers, another one decrypts them, a third one takes an element of
them, and the fourth decrypts the lines from the fifth to the last but one.
-/

namespace HederaSdk

open Library Pem

/-- The packages and the functions of the platform that a PEM text is read with. -/
structure PemTools where
  nacl : Nacl
  curve : Elliptic
  primitives : Primitives
  texts : PkcsTexts
  /-- `Buffer.from(text, "base64")` -/
  base64Decode : List Char → Bytes
  md5 : Bytes → Bytes
  /-- `asn1.fromBER(key).result.valueBlock.value[1].valueBlock.valueHexView` -/
  secondElement : Bytes → Except CryptographyError Bytes
  /-- `forge.pem.decode(pem)[0].dekInfo.parameters` -/
  dekParameters : List Char → Except CryptographyError String

/-- What the packages promise. -/
structure PemTools.Documented (tools : PemTools) : Prop where
  nacl : tools.nacl.Documented
  oneForm : PrivateKey.ReadsOneForm tools.nacl
  curve : tools.curve.Documented

/-- The bytes that `fromBytesDer` takes for the scalar. -/
def EcdsaPrivateKey.takenDer (data : Bytes) : Bytes :=
  if derPrefix.isPrefixOf data then data.drop derPrefix.length else (data.drop derPrefix2.length).take 32

namespace PrivateKey

section

variable (tools : PemTools)

/-- A key, or bytes for the class that the text is of. -/
inductive PemRead where
  | key (key : PrivateKey)
  | bytes (data : Bytes)

/-- The bytes of an encrypted key. -/
def decryptedKeyData (key : Bytes) (passphrase : String) : Except PkcsError Bytes := do
  let encrypted ← match EncryptedPrivateKeyInfo.parse tools.texts key with
    | .ok encrypted => .ok encrypted
    | .error error =>
        .error (.badKey s!"failed to parse encrypted private key: {error.message tools.texts.engine}")
  let decrypted ← encrypted.decrypt tools.texts tools.primitives passphrase
  if decrypted.algId.algIdent ≠ "1.3.101.112" then
    .error (.badKey s!"unknown private key algorithm {tools.texts.algorithm decrypted.algId}")
  else
    let keyData ← derDecode tools.texts decrypted.privateKey
    match keyData with
    | .leaf (.bytes bytes) => .ok bytes
    | other => .error (.badKey s!"expected ASN bytes, got {tools.texts.asn other}")

def readPemED25519 (pem : List Char) (passphrase : String) : Except PkcsError PemRead :=
  let key := tools.base64Decode (pemKeyData pem)
  if passphrase ≠ "" then do
    let bytes ← decryptedKeyData tools key passphrase
    let key ← (Ed25519PrivateKey.fromBytes tools.nacl bytes).mapError .cryptography
    .ok (.key (ed25519 key))
  else .ok (.bytes (key.drop 16))

/-- The DER bytes of an encrypted key of ECDSA. -/
def decryptedKeyDer (pem dataToDecrypt : List Char) (passphrase : String) : Except CryptographyError Bytes := do
  let ivString ← tools.dekParameters pem
  let iv := hexDecode ivString
  let key := tools.md5 (utf8Encode passphrase ++ (hexDecode ivString).take 8)
  tools.primitives.createDecipheriv aes128Cbc (key.take 16) iv (tools.base64Decode dataToDecrypt)

def readPemECDSA (pem : List Char) (passphrase : String) : Except PkcsError PemRead :=
  let key := tools.base64Decode (pemKeyData pem)
  if passphrase ≠ "" then do
    let keyDerBytes ← (decryptedKeyDer tools pem (fixedLines pem) passphrase).mapError .cryptography
    let key ← (EcdsaPrivateKey.readDer tools.curve keyDerBytes).mapError .cryptography
    .ok (.key (ecdsa key))
  else do
    let bytes ← (tools.secondElement key).mapError .cryptography
    .ok (.bytes bytes)

def readPem (pem : List Char) (passphrase : String) : Except PkcsError PemRead :=
  if isEcdsa pem then readPemECDSA tools pem passphrase else readPemED25519 tools pem passphrase

def fromPem (data : List Char) (passphrase : String) : Except PkcsError PrivateKey := do
  match ← readPem tools data passphrase with
  | .key key => .ok key
  | .bytes bytes =>
      if isEcdsa data then (EcdsaPrivateKey.read tools.curve bytes).mapError .cryptography |>.map ecdsa
      else (Ed25519PrivateKey.fromBytes tools.nacl bytes).mapError .cryptography |>.map ed25519

end

end PrivateKey

/-! ## What a section encodes -/

/-- `PRIVATE KEY` -/
def privateKeyLabel : List Char := ['P', 'R', 'I', 'V', 'A', 'T', 'E', ' ', 'K', 'E', 'Y']

/-- `ENCRYPTED PRIVATE KEY` -/
def encryptedLabel : List Char := ['E', 'N', 'C', 'R', 'Y', 'P', 'T', 'E', 'D', ' '] ++ privateKeyLabel

/-- `Proc-Type: 4,ENCRYPTED` -/
def procType : List Char :=
  ['P', 'r', 'o', 'c', '-', 'T', 'y', 'p', 'e', ':', ' ', '4', ',', 'E', 'N', 'C', 'R', 'Y', 'P', 'T', 'E', 'D']

/-- `DEK-Info: AES-128-CBC,` -/
def dekInfo : List Char :=
  ['D', 'E', 'K', '-', 'I', 'n', 'f', 'o', ':', ' ', 'A', 'E', 'S', '-', '1', '2', '8', '-', 'C', 'B', 'C', ',']

/-- Version 0, the algorithm of Ed25519, and the secret. -/
def IsEd25519Der (data secret : Bytes) : Prop :=
  secret.length = 32 ∧ data = PrivateKey.ed25519DerPrefix ++ secret

/-- `a00706052b8104000a` -/
def secp256k1Parameters : Bytes := [0xa0, 0x07, 0x06, 0x05, 0x2b, 0x81, 0x04, 0x00, 0x0a]

/-- Version 1, the secret, the curve, and a public key that may be left out. -/
inductive IsSec1 : Bytes → Bytes → Prop where
  | bare {secret : Bytes} (length : secret.length = 32) :
      IsSec1 ([0x30, 0x2e, 0x02, 0x01, 0x01, 0x04, 0x20] ++ secret ++ secp256k1Parameters) secret
  | compressed {secret publicKey : Bytes} (length : secret.length = 32) (size : publicKey.length = 33) :
      IsSec1 ([0x30, 0x54, 0x02, 0x01, 0x01, 0x04, 0x20] ++ secret ++
        (secp256k1Parameters ++ [0xa1, 0x24, 0x03, 0x22, 0x00] ++ publicKey)) secret
  | uncompressed {secret publicKey : Bytes} (length : secret.length = 32) (size : publicKey.length = 65) :
      IsSec1 ([0x30, 0x74, 0x02, 0x01, 0x01, 0x04, 0x20] ++ secret ++
        (secp256k1Parameters ++ [0xa1, 0x44, 0x03, 0x42, 0x00] ++ publicKey)) secret

namespace PemSection

/-- With a passphrase an encrypted section is looked for, and one of ECDSA in any case. -/
def IsLookedFor (passphrase : String) (part : PemSection) : Prop :=
  part.label = ecLabel ∨ part.label = if passphrase = "" then privateKeyLabel else encryptedLabel

instance decidableIsLookedFor (passphrase : String) (part : PemSection) : Decidable (part.IsLookedFor passphrase) := by
  unfold IsLookedFor
  infer_instance

/-- The encoding of a key of the type with the secret. -/
inductive Encodes (tools : PemTools) (passphrase : String) (part : PemSection) : String → Bytes → Prop where
  | plain {secret : Bytes} (label : part.label = privateKeyLabel) (none : passphrase = "")
      (encoded : IsEd25519Der (tools.base64Decode part.data) secret) : Encodes tools passphrase part "ED25519" secret
  | encrypted {plain secret : Bytes} (label : part.label = encryptedLabel) (some : passphrase ≠ "")
      (opens : Pkcs.Seals tools.primitives passphrase (tools.base64Decode part.data) plain)
      (encoded : IsEd25519Der plain secret) : Encodes tools passphrase part "ED25519" secret
  | sec1 {secret : Bytes} (label : part.label = ecLabel) (none : passphrase = "")
      (encoded : IsSec1 (tools.base64Decode part.data) secret)
      (scalar : 0 < BigEndian.value secret ∧ BigEndian.value secret < curveOrder) :
      Encodes tools passphrase part "secp256k1" secret
  | encryptedSec1 {iv : String} {plain secret : Bytes} (label : part.label = ecLabel) (some : passphrase ≠ "")
      (headers : part.headers = [procType, dekInfo ++ iv.toList]) (hex : ∀ c ∈ iv.toList, (hexValue c).isSome = true)
      (opens : tools.primitives.createDecipheriv aes128Cbc
        ((tools.md5 (utf8Encode passphrase ++ (hexDecode iv).take 8)).take 16) (hexDecode iv)
          (tools.base64Decode part.data) = .ok plain)
      (encoded : IsSec1 plain secret)
      (scalar : 0 < BigEndian.value secret ∧ BigEndian.value secret < curveOrder) :
      Encodes tools passphrase part "secp256k1" secret

end PemSection

namespace PemFile

/-- The first section of the kind that is looked for. -/
def lookedFor (passphrase : String) (file : PemFile) : Option PemSection :=
  file.sections.find? fun part => decide (part.IsLookedFor passphrase)

/-- The key of the section is returned; where there is none in it, the call throws. -/
def ReadsFirst (tools : PemTools) (passphrase : String) (file : PemFile) : Prop :=
  ∀ part, file.lookedFor passphrase = some part →
    (∀ type secret, part.Encodes tools passphrase type secret →
      ∃ key, PrivateKey.fromPem tools file.text passphrase = .ok key ∧ key.type = type ∧
        key.HasSecret tools.curve secret) ∧
    ((∀ type secret, ¬ part.Encodes tools passphrase type secret) →
      ∃ error, PrivateKey.fromPem tools file.text passphrase = .error error)

/-- The lines that an encrypted key of ECDSA is taken from: all but the first four and the last one. -/
def fixedData (file : PemFile) : List Char :=
  ((file.textLines.dropLast.map (· ++ file.carriage)).drop 4).flatten

/-- The bytes that are taken for a scalar. -/
def scalarBytes (tools : PemTools) (passphrase : String) (file : PemFile) : Except CryptographyError Bytes :=
  if passphrase = "" then (tools.secondElement (tools.base64Decode file.body)).map EcdsaPrivateKey.taken
  else (PrivateKey.decryptedKeyDer tools file.text file.fixedData passphrase).map EcdsaPrivateKey.takenDer

/-- What there is for the readers at their places: the secret of a form of Ed25519 behind the first 16
bytes of all sections or in what they are decrypted to, or the scalar. -/
inductive Offers (tools : PemTools) (passphrase : String) (file : PemFile) : String → Bytes → Prop where
  | plain {secret : Bytes} (other : ¬ ∃ part ∈ file.sections, part.MentionsEc) (none : passphrase = "")
      (form : PrivateKey.Form ((tools.base64Decode file.body).drop 16) "ED25519" secret) :
      Offers tools passphrase file "ED25519" secret
  | encrypted {bytes secret : Bytes} (other : ¬ ∃ part ∈ file.sections, part.MentionsEc) (some : passphrase ≠ "")
      (opens : PrivateKey.decryptedKeyData tools (tools.base64Decode file.body) passphrase = .ok bytes)
      (form : PrivateKey.Form bytes "ED25519" secret) : Offers tools passphrase file "ED25519" secret
  | scalar {bytes secret : Bytes} (mentioned : ∃ part ∈ file.sections, part.MentionsEc)
      (taken : file.scalarBytes tools passphrase = .ok bytes) (length : secret.length = 32)
      (number : BigEndian.value secret = BigEndian.value bytes % curveOrder) (nonzero : BigEndian.value secret ≠ 0) :
      Offers tools passphrase file "secp256k1" secret

end PemFile

/-! ## What is returned -/

namespace PemFile

section Reading

variable {tools : PemTools} {file : PemFile} {passphrase : String}

/-- The scalar of a key of ECDSA, or the bytes of one of Ed25519. -/
def readBytes (tools : PemTools) (passphrase : String) (file : PemFile) : Except PkcsError Bytes :=
  if passphrase = "" then .ok ((tools.base64Decode file.body).drop 16)
  else PrivateKey.decryptedKeyData tools (tools.base64Decode file.body) passphrase

/-- The layout of a text does not matter, but for the lines of an encrypted key of ECDSA. -/
theorem fromPem_text (tools : PemTools) (file : PemFile) (passphrase : String)
    [Decidable (∃ part ∈ file.sections, part.MentionsEc)] :
    PrivateKey.fromPem tools file.text passphrase =
      if ∃ part ∈ file.sections, part.MentionsEc then
        ((file.scalarBytes tools passphrase).bind (EcdsaPrivateKey.readRaw tools.curve)).mapError .cryptography
          |>.map .ecdsa
      else
        (readBytes tools passphrase file).bind fun bytes =>
          (Ed25519PrivateKey.fromBytes tools.nacl bytes).mapError .cryptography |>.map .ed25519 := by
  have body := file.pemKeyData_text
  have fixed : fixedLines file.text = file.fixedData := file.fixedLines_text
  have readDer (data : Bytes) : EcdsaPrivateKey.readDer tools.curve data =
      EcdsaPrivateKey.readRaw tools.curve (EcdsaPrivateKey.takenDer data) := by
    unfold EcdsaPrivateKey.readDer EcdsaPrivateKey.takenDer
    split <;> rfl
  by_cases mentioned : ∃ part ∈ file.sections, part.MentionsEc
  · have isEc : isEcdsa file.text = true := file.isEcdsa_text.mpr mentioned
    rw [if_pos mentioned, PrivateKey.fromPem, PrivateKey.readPem, if_pos isEc, PrivateKey.readPemECDSA]
    by_cases none : passphrase = ""
    · rw [if_neg (not_not.mpr none), body, PemFile.scalarBytes, if_pos none]
      cases tools.secondElement (tools.base64Decode file.body) with
      | error e => rfl
      | ok bytes =>
          change (if isEcdsa file.text = true then _ else _) = _
          rw [if_pos isEc, PrivateKey.ecdsa_read_eq]
          rfl
    · rw [if_pos none, fixed, PemFile.scalarBytes, if_neg none]
      cases PrivateKey.decryptedKeyDer tools file.text file.fixedData passphrase with
      | error e => rfl
      | ok bytes =>
          simp only [Except.mapError, Except.map, bind, Except.bind, readDer]
          cases EcdsaPrivateKey.readRaw tools.curve (EcdsaPrivateKey.takenDer bytes) <;> rfl
  · have isEd : ¬ isEcdsa file.text = true := fun isEc => mentioned (file.isEcdsa_text.mp isEc)
    rw [if_neg mentioned, PrivateKey.fromPem, PrivateKey.readPem, if_neg isEd, PrivateKey.readPemED25519]
    by_cases none : passphrase = ""
    · rw [if_neg (not_not.mpr none), body, readBytes, if_pos none]
      change (if isEcdsa file.text = true then _ else _) = _
      rw [if_neg isEd]
      rfl
    · rw [if_pos none, body, readBytes, if_neg none]
      cases PrivateKey.decryptedKeyData tools (tools.base64Decode file.body) passphrase with
      | error e => rfl
      | ok bytes =>
          simp only [bind, Except.bind]
          cases Ed25519PrivateKey.fromBytes tools.nacl bytes <;> rfl

/-- The form of a key of Ed25519 tells its secret. -/
theorem secret_of_form {data secret : Bytes} {type : String} (form : PrivateKey.Form data type secret)
    (isEd25519 : type = "ED25519") :
    secret.length = 32 ∧ secret = if data.length = 48 then data.drop 16 else data.take 32 := by
  cases form with
  | seed length =>
      refine ⟨length, ?_⟩
      rw [if_neg (by omega), ← length, List.take_length]
  | pair length size =>
      refine ⟨length, ?_⟩
      rw [if_neg (by rw [List.length_append]; omega), List.take_left' length]
  | ed25519Der length =>
      refine ⟨length, ?_⟩
      rw [if_pos (by rw [List.length_append, length]; rfl)]
      exact (@List.drop_left _ PrivateKey.ed25519DerPrefix secret).symm
  | ecdsaDer length => exact absurd isEd25519 (by decide)
  | sec1 length => exact absurd isEd25519 (by decide)

/-- The class of Ed25519 reads the forms of its keys. -/
theorem ed25519_read_iff (documented : tools.Documented) {bytes secret : Bytes} :
    PrivateKey.Form bytes "ED25519" secret ↔ ∃ key, Ed25519PrivateKey.fromBytes tools.nacl bytes = .ok key ∧
      key.keyPair.secretKey.take 32 = secret := by
  constructor
  · intro form
    obtain ⟨key, read⟩ := PrivateKey.read_of_ed25519 documented.nacl documented.oneForm
      (PrivateKey.length_of_form form rfl)
    have same := PrivateKey.form_of_ed25519 documented.nacl documented.oneForm read
    exact ⟨key, read, (secret_of_form same rfl).2.trans (secret_of_form form rfl).2.symm⟩
  · rintro ⟨key, read, rfl⟩
    exact PrivateKey.form_of_ed25519 documented.nacl documented.oneForm read

/-- The key of the bytes has their number on the curve. -/
theorem isKeyOf_readRaw (documented : tools.Documented) {bytes secret : Bytes} {key : EcdsaPrivateKey}
    (read : EcdsaPrivateKey.readRaw tools.curve bytes = .ok key)
    (number : BigEndian.value secret = BigEndian.value bytes % curveOrder) :
    BigEndian.value secret ≠ 0 ∧ EcdsaPrivateKey.IsKeyOf tools.curve (BigEndian.value secret) key := by
  rw [EcdsaPrivateKey.readRaw, documented.curve.keyFromPrivate, ← number] at read
  split at read
  · cases read
  · rename_i nonzero
    cases read
    refine ⟨nonzero, ?_, ?_⟩
    · have scalar := documented.curve.keyFromPrivate bytes
      rw [← number] at scalar
      rw [PrivateKey.value_privateKey documented.curve (by rw [scalar]; exact nonzero), number]
    · rw [EcdsaPrivateKey.fromBytesRaw, documented.curve.keyFromPrivate, ← number]

theorem offers_of_fromPem (documented : tools.Documented) {key : PrivateKey}
    (read : PrivateKey.fromPem tools file.text passphrase = .ok key) :
    ∃ secret, file.Offers tools passphrase key.type secret ∧ key.HasSecret tools.curve secret := by
  classical
  rw [fromPem_text] at read
  split at read
  · rename_i mentioned
    cases taken : file.scalarBytes tools passphrase with
    | error e =>
        rw [taken] at read
        cases read
    | ok bytes =>
        rw [taken] at read
        cases made : EcdsaPrivateKey.readRaw tools.curve bytes with
        | error e =>
            rw [Except.bind, made] at read
            cases read
        | ok own =>
            rw [Except.bind, made] at read
            cases read
            have small : BigEndian.value bytes % curveOrder < 256 ^ 32 :=
              (Nat.mod_lt _ (by decide)).trans (by decide)
            have number := BigEndian.value_encode_of_lt small
            obtain ⟨nonzero, isKey⟩ := isKeyOf_readRaw documented made number
            exact ⟨_, .scalar mentioned taken (BigEndian.length_encode 32 _) number nonzero, isKey⟩
  · rename_i other
    cases found : readBytes tools passphrase file with
    | error e =>
        rw [found] at read
        cases read
    | ok bytes =>
        rw [found] at read
        cases made : Ed25519PrivateKey.fromBytes tools.nacl bytes with
        | error e =>
            rw [Except.bind, made] at read
            cases read
        | ok own =>
            rw [Except.bind, made] at read
            cases read
            have form := (ed25519_read_iff documented).mpr ⟨own, made, rfl⟩
            refine ⟨_, ?_, rfl⟩
            unfold readBytes at found
            split at found
            · rename_i none
              cases found
              exact .plain other none form
            · rename_i some
              exact .encrypted other some found form

theorem fromPem_of_offers (documented : tools.Documented) {type : String} {secret : Bytes}
    (offers : file.Offers tools passphrase type secret) :
    secret.length = 32 ∧ ∃ key, PrivateKey.fromPem tools file.text passphrase = .ok key ∧ key.type = type ∧
      key.HasSecret tools.curve secret := by
  classical
  have ofForm {bytes : Bytes} (other : ¬ ∃ part ∈ file.sections, part.MentionsEc)
      (found : readBytes tools passphrase file = .ok bytes) (form : PrivateKey.Form bytes "ED25519" secret) :
      ∃ key : PrivateKey, PrivateKey.fromPem tools file.text passphrase = .ok key ∧ key.type = "ED25519" ∧
        key.HasSecret tools.curve secret := by
    obtain ⟨own, made, same⟩ := (ed25519_read_iff documented).mp form
    rw [fromPem_text, if_neg other, found, Except.bind, made]
    exact ⟨_, rfl, rfl, same⟩
  cases offers with
  | plain other none form =>
      refine ⟨(secret_of_form form rfl).1, ofForm other ?_ form⟩
      rw [readBytes, if_pos none]
  | encrypted other some opens form =>
      refine ⟨(secret_of_form form rfl).1, ofForm other ?_ form⟩
      rw [readBytes, if_neg some, opens]
  | scalar mentioned taken length number nonzero =>
      rename_i bytes
      have made : EcdsaPrivateKey.readRaw tools.curve bytes = .ok (EcdsaPrivateKey.fromBytesRaw tools.curve bytes) := by
        rw [EcdsaPrivateKey.readRaw, documented.curve.keyFromPrivate, ← number, if_neg nonzero]
      rw [fromPem_text, if_pos mentioned, taken, Except.bind, made]
      exact ⟨length, _, rfl, rfl, (isKeyOf_readRaw documented made number).2⟩

/-- A secret of a type is that of one key at most. -/
theorem hasSecret_unique {key : PrivateKey} {secret other : Bytes} (length : secret.length = 32)
    (size : other.length = 32) (own : key.HasSecret tools.curve secret) (also : key.HasSecret tools.curve other) :
    secret = other := by
  cases key with
  | ed25519 key => exact own.symm.trans also
  | ecdsa key => exact BigEndian.value_injective (length.trans size.symm) (own.privateKey.symm.trans also.privateKey)

theorem length_of_encodes {part : PemSection} {type : String} {secret : Bytes}
    (encodes : part.Encodes tools passphrase type secret) : secret.length = 32 := by
  have ofSec1 {data : Bytes} (sec1 : IsSec1 data secret) : secret.length = 32 := by
    cases sec1 with
    | bare length => exact length
    | compressed length size => exact length
    | uncompressed length size => exact length
  cases encodes with
  | plain label none encoded => exact encoded.1
  | encrypted label some opens encoded => exact encoded.1
  | sec1 label none encoded scalar => exact ofSec1 encoded
  | encryptedSec1 label some headers hex opens encoded scalar => exact ofSec1 encoded

/-- What there is for the readers is what the section encodes. -/
def OffersSame (tools : PemTools) (passphrase : String) (file : PemFile) (part : PemSection) : Prop :=
  ∀ type secret, file.Offers tools passphrase type secret ↔ part.Encodes tools passphrase type secret

theorem readsFirst_of_same (documented : tools.Documented)
    (same : ∀ part, file.lookedFor passphrase = some part → OffersSame tools passphrase file part) :
    file.ReadsFirst tools passphrase := by
  intro part looked
  refine ⟨fun type secret encodes => ?_, fun noneEncoded => ?_⟩
  · exact (fromPem_of_offers documented ((same part looked type secret).mpr encodes)).2
  · cases read : PrivateKey.fromPem tools file.text passphrase with
    | error error => exact ⟨error, rfl⟩
    | ok key =>
        obtain ⟨secret, offers, -⟩ := offers_of_fromPem documented read
        exact absurd ((same part looked _ secret).mp offers) (noneEncoded _ secret)

/-- The text is read as its first section exactly when what there is for its reader at the places is what the
section encodes. -/
theorem readsFirst_iff (tools : PemTools) (documented : tools.Documented) (passphrase : String) (file : PemFile) :
    file.ReadsFirst tools passphrase ↔
      ∀ part, file.lookedFor passphrase = some part → OffersSame tools passphrase file part := by
  refine ⟨fun reads part looked type secret => ?_, readsFirst_of_same documented⟩
  obtain ⟨returns, throws⟩ := reads part looked
  constructor
  · intro offers
    obtain ⟨length, key, read, rfl, own⟩ := fromPem_of_offers documented offers
    by_cases encoded : ∃ type secret, part.Encodes tools passphrase type secret
    · obtain ⟨type, secret', encodes⟩ := encoded
      obtain ⟨key', read', rfl, own'⟩ := returns type secret' encodes
      cases read.symm.trans read'
      rw [hasSecret_unique length (length_of_encodes encodes) own own']
      exact encodes
    · obtain ⟨error, thrown⟩ := throws fun type secret' encodes => encoded ⟨type, secret', encodes⟩
      cases read.symm.trans thrown
  · intro encodes
    obtain ⟨key, read, rfl, own⟩ := returns type secret encodes
    obtain ⟨secret', offers, own'⟩ := offers_of_fromPem documented read
    have length := (fromPem_of_offers documented offers).1
    rw [hasSecret_unique (length_of_encodes encodes) length own own']
    exact offers

/-! ## A section alone -/

/-- What the other packages promise. Line ends are nothing to a decoder of base64; the second element of an
elliptic curve key is its secret; and the headers of a text of one section are found. -/
structure ReadsWell (tools : PemTools) : Prop where
  base64 : ∀ text, tools.base64Decode (text.filter (· ≠ '\r')) = tools.base64Decode text
  secondElement : ∀ data secret, IsSec1 data secret → tools.secondElement data = .ok secret
  dekParameters : ∀ (file : PemFile) (part : PemSection) (iv : String), file.sections = [part] → part.label = ecLabel →
    part.headers = [procType, dekInfo ++ iv.toList] → (∀ c ∈ iv.toList, (hexValue c).isSome = true) →
      tools.dekParameters file.text = .ok iv

/-- One section, which has headers only when it is an encrypted key of ECDSA; then the text does not end with
a newline. -/
structure LaidOut (tools : PemTools) (passphrase : String) (file : PemFile) (part : PemSection) : Prop where
  alone : file.sections = [part]
  headers : part.headers ≠ [] → part.label = ecLabel ∧ passphrase ≠ ""
  newline : part.label = ecLabel → passphrase ≠ "" → file.finalNewline = false
  short : (tools.base64Decode part.data).length < 4294967302

theorem takenDer_of_sec1 {data secret : Bytes} (sec1 : IsSec1 data secret) :
    EcdsaPrivateKey.takenDer data = secret := by
  have behind (head rest : Bytes) (size : head.length = 7) (length : secret.length = 32)
      (other : EcdsaPrivateKey.derPrefix.isPrefixOf (head ++ secret ++ rest) = false) :
      EcdsaPrivateKey.takenDer (head ++ secret ++ rest) = secret := by
    unfold EcdsaPrivateKey.takenDer
    rw [other, if_neg Bool.false_ne_true, List.append_assoc]
    have seven : EcdsaPrivateKey.derPrefix2.length = head.length := size.symm
    rw [seven, List.drop_left, List.take_left' length]
  cases sec1 with
  | bare length => exact behind _ _ rfl length rfl
  | compressed length size => exact behind _ _ rfl length rfl
  | uncompressed length size => exact behind _ _ rfl length rfl

theorem mentionsEc_of_label {part : PemSection} (label : part.label = ecLabel) : part.MentionsEc := by
  refine ⟨part.beginLine, List.mem_cons_self, ?_⟩
  unfold PemSection.beginLine
  rw [label]
  decide

theorem not_mentionsEc {part : PemSection} (bare : part.headers = [])
    (label : part.label = privateKeyLabel ∨ part.label = encryptedLabel) : ¬ part.MentionsEc := by
  rintro ⟨line, member, inside⟩
  rcases List.mem_append.mp member with before | last
  · rcases List.mem_cons.mp before with rfl | content
    · revert inside
      unfold PemSection.beginLine
      rcases label with label | label
      · rw [label]
        decide
      · rw [label]
        decide
    · rw [PemSection.content, if_pos bare] at content
      have blank : ' ' ∈ line := inside.subset (by decide)
      exact absurd (part.base64 line content _ blank) (by decide)
  · rw [List.mem_singleton.mp last] at inside
    revert inside
    unfold PemSection.endLine
    rcases label with label | label
    · rw [label]
      decide
    · rw [label]
      decide

/-- What stands between the markers of a section without headers is its data. -/
theorem body_of_alone {part : PemSection} (alone : file.sections = [part]) (bare : part.headers = []) :
    file.body = part.data := by
  rw [PemFile.body, alone, List.flatMap_singleton, PemSection.content, if_pos bare]
  rfl

/-- Without a final newline the fixed lines are those of the data. -/
theorem fixedData_of_alone {part : PemSection} (alone : file.sections = [part]) {first second : List Char}
    (headers : part.headers = [first, second]) (ends : file.finalNewline = false) :
    file.fixedData.filter (· ≠ '\r') = part.data := by
  have lines : file.textLines.dropLast = part.beginLine :: first :: second :: [] :: part.lines := by
    rw [PemFile.textLines, alone, List.flatMap_singleton, ends, if_neg Bool.false_ne_true, List.append_nil,
      PemSection.textLines, List.dropLast_concat, PemSection.content, headers, if_neg (List.cons_ne_nil _ _)]
    rfl
  have kept (line : List Char) (member : line ∈ part.lines) :
      (line ++ file.carriage).filter (· ≠ '\r') = line := by
    have noCr : '\r' ∉ line := (part.plain_line member).2.1
    have own : line.filter (· ≠ '\r') = line :=
      List.filter_eq_self.mpr fun c among => decide_eq_true fun isCr => noCr (isCr ▸ among)
    have ending : file.carriage.filter (· ≠ '\r') = [] := by
      unfold PemFile.carriage
      split <;> rfl
    rw [List.filter_append, own, ending, List.append_nil]
  have data : file.fixedData = (part.lines.map (· ++ file.carriage)).flatten := by
    rw [PemFile.fixedData, lines]
    rfl
  rw [data, List.filter_flatten, List.map_map, PemSection.data]
  congr 1
  exact (List.map_congr_left kept).trans (List.map_id _)

theorem lookedFor_of_alone {part looked : PemSection} (alone : file.sections = [part])
    (found : file.lookedFor passphrase = some looked) : looked = part := by
  have among := List.mem_of_find?_eq_some found
  rw [alone] at among
  exact List.mem_singleton.mp among

/-- An encrypted key is decrypted to its secret. -/
theorem decryptedKeyData_of_seals {bytes plain secret : Bytes}
    (opens : Pkcs.Seals tools.primitives passphrase bytes plain) (encoded : IsEd25519Der plain secret)
    (short : bytes.length < 4294967302) : PrivateKey.decryptedKeyData tools bytes passphrase = .ok secret := by
  obtain ⟨sealing, data, key, encodes, derived, deciphered⟩ := opens
  obtain ⟨info, parsed, rfl, decryption⟩ := @Pkcs.decryption_tree tools.texts sealing _ _ encodes short
  obtain ⟨length, rfl⟩ := encoded
  have inner := @Pkcs.parse_ed25519Der tools.texts _ length
  have octets := @Pkcs.derDecode_octets tools.texts _ length
  have decrypted : info.decrypt tools.texts tools.primitives passphrase =
      .ok ⟨0, ⟨Pkcs.ed25519Id.text, none⟩, [4, 32] ++ secret⟩ := by
    have sixteen : ((16 : Nat) : Int) = 16 := rfl
    rw [EncryptedPrivateKeyInfo.decrypt, decryption]
    simp only [bind, Except.bind, sixteen, derived, deciphered, Except.mapError, inner]
  have isEd25519 : Pkcs.ed25519Id.text = "1.3.101.112" := by decide +kernel
  rw [PrivateKey.decryptedKeyData, parsed]
  simp only [bind, Except.bind, decrypted, isEd25519, octets, ne_eq, not_true_eq_false, if_false]

/-- What a section alone encodes is there for the reader of its text. -/
theorem offers_of_alone (well : ReadsWell tools) {part : PemSection}
    (laid : LaidOut tools passphrase file part) {type : String} {secret : Bytes}
    (encodes : part.Encodes tools passphrase type secret) : file.Offers tools passphrase type secret := by
  have unmentioned (bare : part.headers = []) (label : part.label = privateKeyLabel ∨ part.label = encryptedLabel) :
      ¬ ∃ part ∈ file.sections, part.MentionsEc := by
    rintro ⟨other, among, mentions⟩
    rw [laid.alone, List.mem_singleton] at among
    exact not_mentionsEc bare label (among ▸ mentions)
  have mentioned (label : part.label = ecLabel) : ∃ part ∈ file.sections, part.MentionsEc :=
    ⟨part, by rw [laid.alone]; exact List.mem_singleton_self part, mentionsEc_of_label label⟩
  have bare (other : ¬ (part.label = ecLabel ∧ passphrase ≠ "")) : part.headers = [] := by
    by_contra some
    exact other (laid.headers some)
  cases encodes with
  | plain label none encoded =>
      have noHeaders := bare fun ec => ec.2 none
      have body := body_of_alone laid.alone noHeaders
      refine .plain (unmentioned noHeaders (.inl label)) none ?_
      rw [body, encoded.2]
      exact .seed encoded.1
  | encrypted label some opens encoded =>
      rename_i plain
      have noHeaders := bare fun ec => absurd (label.symm.trans ec.1) (by decide)
      have body := body_of_alone laid.alone noHeaders
      refine .encrypted (unmentioned noHeaders (.inr label)) some ?_ (.seed encoded.1)
      rw [body]
      exact decryptedKeyData_of_seals opens encoded laid.short
  | sec1 label none encoded scalar =>
      have noHeaders := bare fun ec => ec.2 none
      have body := body_of_alone laid.alone noHeaders
      have second := well.secondElement _ _ encoded
      have size := length_of_encodes (.sec1 label none encoded scalar : part.Encodes tools passphrase _ _)
      have whole : EcdsaPrivateKey.taken secret = secret := if_pos size
      refine .scalar (mentioned label) ?_ size (Nat.mod_eq_of_lt scalar.2).symm scalar.1.ne'
      rw [PemFile.scalarBytes, if_pos none, body, second]
      exact congrArg Except.ok whole
  | encryptedSec1 label some headers hex opens encoded scalar =>
      have size := length_of_encodes (.encryptedSec1 label some headers hex opens encoded scalar :
        part.Encodes tools passphrase _ _)
      have dek := well.dekParameters file part _ laid.alone label headers hex
      have data := fixedData_of_alone laid.alone headers (laid.newline label some)
      have bytes := well.base64 file.fixedData
      rw [data] at bytes
      refine .scalar (mentioned label) ?_ size (Nat.mod_eq_of_lt scalar.2).symm scalar.1.ne'
      rw [PemFile.scalarBytes, if_neg some, PrivateKey.decryptedKeyDer, dek, ← bytes]
      change (tools.primitives.createDecipheriv _ _ _ _).map _ = _
      rw [opens, ← takenDer_of_sec1 encoded]
      rfl

/-- Nothing else is there for the reader. -/
theorem same_of_alone (documented : tools.Documented) (well : ReadsWell tools) {part : PemSection}
    (laid : LaidOut tools passphrase file part) {type : String} {secret : Bytes}
    (encodes : part.Encodes tools passphrase type secret) : OffersSame tools passphrase file part := by
  intro type' secret'
  refine ⟨fun offers => ?_, offers_of_alone well laid⟩
  obtain ⟨length, key, read, rfl, own⟩ := fromPem_of_offers documented offers
  obtain ⟨length', key', read', rfl, own'⟩ := fromPem_of_offers documented (offers_of_alone well laid encodes)
  cases read.symm.trans read'
  rw [hasSecret_unique length length' own own']
  exact encodes

/-- A section that stands alone is read, however the lines of its text end. -/
theorem readsFirst_of_alone (documented : tools.Documented) (well : ReadsWell tools) {part : PemSection}
    (laid : LaidOut tools passphrase file part) {type : String} {secret : Bytes}
    (encodes : part.Encodes tools passphrase type secret) : file.ReadsFirst tools passphrase := by
  refine readsFirst_of_same documented fun looked found => ?_
  rw [lookedFor_of_alone laid.alone found]
  exact same_of_alone documented well laid encodes

end Reading

section Samples

def base64Value (c : Char) : Option Nat :=
  if 'A' ≤ c ∧ c ≤ 'Z' then some (c.toNat - 65)
  else if 'a' ≤ c ∧ c ≤ 'z' then some (c.toNat - 71)
  else if '0' ≤ c ∧ c ≤ '9' then some (c.toNat + 4)
  else if c = '+' ∨ c = '-' then some 62
  else if c = '/' ∨ c = '_' then some 63
  else none

def bytesOfBits : List Bool → Bytes
  | a :: b :: c :: d :: e :: f :: g :: h :: rest =>
      UInt8.ofNat (BitGroups.number [a, b, c, d, e, f, g, h]) :: bytesOfBits rest
  | _ => []

/-- What is none of the symbols is skipped. -/
def skippingDecode (text : List Char) : Bytes := bytesOfBits ((text.filterMap base64Value).flatMap (BitGroups.bits 6))

/-- A cipher of blocks of 16 bytes that are left as they are, and packages that read what they are asked for. -/
def sampleTools : PemTools where
  nacl := PrivateKey.formNacl
  curve := EcdsaPrivateKey.basePoint
  primitives := { PrivateKey.samplePrimitives with
    createDecipheriv := fun _ _ _ data =>
      if data.length % 16 = 0 then .ok data else .error (.error "wrong final block length") }
  texts := ⟨fun _ => "", fun _ => "", "", fun _ => ""⟩
  base64Decode := skippingDecode
  md5 data := (data ++ List.replicate 16 0).take 16
  secondElement data := .ok (EcdsaPrivateKey.takenDer data)
  dekParameters text := .ok (String.ofList
    ((((text.splitOn '\n')[2]?.getD []).filter (· ≠ '\r')).drop dekInfo.length))

theorem sampleTools_documented : sampleTools.Documented :=
  ⟨PrivateKey.formNacl_documented, PrivateKey.formNacl_readsOneForm, EcdsaPrivateKey.basePoint_documented⟩

theorem sampleTools_readsWell : ReadsWell sampleTools where
  base64 text := by
    have skipped : (text.filter (· ≠ '\r')).filterMap base64Value = text.filterMap base64Value := by
      rw [List.filterMap_filter]
      congr 1
      funext c
      by_cases isCr : c = '\r'
      · rw [isCr]
        rfl
      · simp [isCr]
    exact congrArg (fun symbols => bytesOfBits (symbols.flatMap (BitGroups.bits 6))) skipped
  secondElement data secret sec1 := congrArg Except.ok (takenDer_of_sec1 sec1)
  dekParameters file part iv alone label headers hex := by
    have lines : file.textLines = part.beginLine :: procType :: (dekInfo ++ iv.toList) :: [] ::
        (part.lines ++ part.endLine :: if file.finalNewline then [[]] else []) := by
      rw [textLines, alone, List.flatMap_singleton, PemSection.textLines, PemSection.content, headers,
        if_neg (List.cons_ne_nil _ _)]
      simp
    have third : (file.text.splitOn '\n')[2]? = some (dekInfo ++ iv.toList ++ file.carriage) := by
      have other : '\n' ∉ file.carriage := by
        unfold carriage
        split <;> decide
      rw [text, eol, Lines.splitOn_intercalate (lines ▸ List.cons_ne_nil _ _) file.newline_notMem_textLines other, lines]
      rfl
    have noCr : ∀ c ∈ dekInfo ++ iv.toList, decide (c ≠ '\r') = true := by
      intro c among
      refine decide_eq_true fun isCr => ?_
      have header := part.header (dekInfo ++ iv.toList) (by rw [headers]; simp)
      exact header.2.1 (isCr ▸ among)
    have ending : file.carriage.filter (· ≠ '\r') = [] := by
      unfold carriage
      split <;> rfl
    have found : ((file.text.splitOn '\n')[2]?.getD []).filter (· ≠ '\r') = dekInfo ++ iv.toList := by
      rw [third, Option.getD_some, List.filter_append, ending, List.append_nil, List.filter_eq_self.mpr noCr]
    change Except.ok (String.ofList ((((file.text.splitOn '\n')[2]?.getD []).filter (· ≠ '\r')).drop dekInfo.length)) = _
    rw [found, List.drop_left, String.ofList_toList]

theorem forall_mem_of_all {P : Char → Prop} [DecidablePred P] {text : List Char}
    (all : (text.all fun c => decide (P c)) = true) : ∀ c ∈ text, P c :=
  fun c member => of_decide_eq_true (List.all_eq_true.mp all c member)

/-- The key of 32 zeros. -/
def zeroSection : PemSection where
  label := privateKeyLabel
  lines := [['M', 'C', '4', 'C', 'A', 'Q', 'A', 'w', 'B', 'Q', 'Y', 'D', 'K', '2', 'V', 'w', 'B', 'C', 'I', 'E', 'I', 'A'] ++
    List.replicate 42 'A']
  labelled := forall_mem_of_all (by decide +kernel)
  header := by decide
  base64 := fun line member => forall_mem_of_all (by rw [List.mem_singleton.mp member]; decide +kernel)

theorem zeroSection_encodes : zeroSection.Encodes sampleTools "" "ED25519" (List.replicate 32 0) := by
  refine .plain rfl rfl ⟨List.length_replicate, ?_⟩
  decide +kernel

theorem section_alone_is_read :
    ReadsFirst sampleTools "" ⟨[zeroSection], true, true⟩ := by
  apply (readsFirst_iff sampleTools sampleTools_documented "" ⟨[zeroSection], true, true⟩).mpr
  intro part found
  rw [lookedFor_of_alone rfl found]
  refine same_of_alone sampleTools_documented sampleTools_readsWell ⟨rfl, ?_, ?_, ?_⟩ zeroSection_encodes
  · intro some
    exact absurd rfl some
  · intro isEc
    exact absurd isEc (by decide)
  · decide +kernel

/-- A key of X25519. -/
def foreignSection : PemSection :=
  { zeroSection with
    lines := [['M', 'C', '4', 'C', 'A', 'Q', 'A', 'w', 'B', 'Q', 'Y', 'D', 'K', '2', 'V', 'u', 'B', 'C', 'I', 'E', 'I', 'A'] ++
      List.replicate 42 'A']
    base64 := fun line member => forall_mem_of_all (by rw [List.mem_singleton.mp member]; decide +kernel) }

/-- The key of the scalar 1. -/
def ecSection : PemSection where
  label := ecLabel
  headers := [procType, dekInfo ++ "00".toList]
  lines := [['M', 'C', '4', 'C', 'A', 'Q', 'E', 'E', 'I'] ++ List.replicate 42 'A' ++
    ['B', 'o', 'A', 'c', 'G', 'B', 'S', 'u', 'B', 'B', 'A', 'A', 'K']]
  labelled := forall_mem_of_all (by decide +kernel)
  header := by decide
  base64 := fun line member => forall_mem_of_all (by rw [List.mem_singleton.mp member]; decide +kernel)

theorem ecSection_encodes : ecSection.Encodes sampleTools "x" "secp256k1" (List.replicate 31 0 ++ [1]) := by
  refine @PemSection.Encodes.encryptedSec1 _ _ _ "00" (sampleTools.base64Decode ecSection.data) _ rfl (by decide) rfl
    (forall_mem_of_all (by decide +kernel)) ?_ ?_ (by decide +kernel)
  · decide +kernel
  · have bytes : sampleTools.base64Decode ecSection.data =
        [0x30, 0x2e, 0x02, 0x01, 0x01, 0x04, 0x20] ++ (List.replicate 31 0 ++ [1]) ++ secp256k1Parameters := by
      decide +kernel
    rw [bytes]
    exact .bare rfl

/-- A key of another curve is returned, a key with another section behind it is not, and an encrypted key of
ECDSA is not read from a text that ends with a newline. -/
theorem layouts_misread :
    ¬ ReadsFirst sampleTools "" ⟨[foreignSection], false, true⟩ ∧
      ¬ ReadsFirst sampleTools "" ⟨[zeroSection, zeroSection], false, true⟩ ∧
      ¬ ReadsFirst sampleTools "x" ⟨[ecSection], false, true⟩ := by
  have throws {passphrase : String} {file : PemFile}
      (refused : (PrivateKey.fromPem sampleTools file.text passphrase).isOk = false) {key : PrivateKey} :
      PrivateKey.fromPem sampleTools file.text passphrase ≠ .ok key := by
    intro read
    rw [read] at refused
    cases refused
  refine ⟨fun reads => ?_, fun reads => ?_, fun reads => ?_⟩
  · obtain ⟨error, thrown⟩ := (reads foreignSection (List.find?_cons_of_pos (by decide))).2 fun type secret encodes => by
      cases encodes with
      | plain label none encoded =>
          have head := congrArg (List.take 16) encoded.2
          rw [List.take_left' (by decide)] at head
          revert head
          decide +kernel
      | encrypted label some opens encoded => exact some rfl
      | sec1 label none encoded scalar => exact absurd label (by decide)
      | encryptedSec1 label some headers hex opens encoded scalar => exact some rfl
    have returned : (PrivateKey.fromPem sampleTools (text ⟨[foreignSection], false, true⟩) "").isOk = true := by
      decide +kernel
    rw [thrown] at returned
    cases returned
  · obtain ⟨key, read, -⟩ := (reads zeroSection (List.find?_cons_of_pos (by decide))).1 _ _ zeroSection_encodes
    exact throws (by decide +kernel) read
  · obtain ⟨key, read, -⟩ := (reads ecSection (List.find?_cons_of_pos (by decide))).1 _ _ ecSection_encodes
    exact throws (by decide +kernel) read

end Samples

end PemFile

end HederaSdk
