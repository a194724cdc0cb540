import HederaSdk.Cryptography.Keystore

/-!
# Bytes of private keys

The forms in which a private key is known, beside what `PrivateKey.fromBytes` reads. The class of
ECDSA takes the bytes at two places for the scalar, whatever stands around them and however many of
them are there; only the scalar zero, which has no point, throws.
-/

namespace HederaSdk

open Library

namespace EcdsaPrivateKey

section

variable (curve : Elliptic)

/-- `fromBytesRaw`; the point of zero cannot be written. -/
def readRaw (data : Bytes) : Except CryptographyError EcdsaPrivateKey :=
  if curve.keyFromPrivate data = 0 then .error .typeError else .ok (fromBytesRaw curve data)

/-- `fromBytesDer` -/
def readDer (data : Bytes) : Except CryptographyError EcdsaPrivateKey :=
  if derPrefix.isPrefixOf data then readRaw curve (data.drop derPrefix.length)
  else readRaw curve ((data.drop derPrefix2.length).take 32)

/-- `fromBytes` -/
def read (data : Bytes) : Except CryptographyError EcdsaPrivateKey :=
  if data.length = 32 then readRaw curve data else readDer curve data

end

/-- The bytes that are taken for the scalar. -/
def taken (data : Bytes) : Bytes :=
  if data.length = 32 then data
  else if derPrefix.isPrefixOf data then data.drop derPrefix.length
  else (data.drop derPrefix2.length).take 32

end EcdsaPrivateKey

namespace PrivateKey

/-- `302e020100300506032b657004220420` -/
def ed25519DerPrefix : Bytes :=
  [0x30, 0x2e, 0x02, 0x01, 0x00, 0x30, 0x05, 0x06, 0x03, 0x2b, 0x65, 0x70, 0x04, 0x22, 0x04, 0x20]

section

variable (nacl : Nacl) (curve : Elliptic)

/-- The text of an error; for those that the engine throws it is given. -/
def errorText (engine : String) : CryptographyError → String
  | .badKey message => message
  | .error message => message
  | .typeError => engine
  | .syntaxError => engine

/-- `fromBytes`, with what the engine says of the point of zero. -/
def read (engine : String) (data : Bytes) : Except CryptographyError PrivateKey :=
  match Ed25519PrivateKey.fromBytes nacl data with
  | .ok key => .ok (ed25519 key)
  | .error _ =>
      match EcdsaPrivateKey.read curve data with
      | .ok key => .ok (ecdsa key)
      | .error error =>
          .error (.badKey s!"private key cannot be decoded from bytes: {errorText engine error}")

end

/-- The forms of a key with their type and their secret bytes. -/
inductive Form : Bytes → String → Bytes → Prop where
  | seed {secret : Bytes} (length : secret.length = 32) : Form secret "ED25519" secret
  | pair {secret publicKey : Bytes} (length : secret.length = 32) (size : publicKey.length = 32) :
      Form (secret ++ publicKey) "ED25519" secret
  | ed25519Der {secret : Bytes} (length : secret.length = 32) : Form (ed25519DerPrefix ++ secret) "ED25519" secret
  | ecdsaDer {secret : Bytes} (length : secret.length = 32) :
      Form (EcdsaPrivateKey.derPrefix ++ secret) "secp256k1" secret
  | sec1 {secret rest : Bytes} (length : secret.length = 32) :
      Form (EcdsaPrivateKey.derPrefix2 ++ secret ++ rest) "secp256k1" secret

/-- A seed is kept as it is; a scalar is the number of its bytes. -/
def HasSecret (curve : Elliptic) (secret : Bytes) : PrivateKey → Prop
  | ed25519 key => key.keyPair.secretKey.take 32 = secret
  | ecdsa key => EcdsaPrivateKey.IsKeyOf curve (BigEndian.value secret) key

/-- What is read is a key of the form that the bytes have. -/
def ReadsForms (nacl : Nacl) (curve : Elliptic) (engine : String) (data : Bytes) : Prop :=
  ∀ key, read nacl curve engine data = .ok key →
    ∃ secret, Form data key.type secret ∧ key.HasSecret curve secret

/-- `forge` reads one form of 48 bytes. -/
def ReadsOneForm (nacl : Nacl) : Prop :=
  ∀ data secret, data.length = 48 →
    ((∃ asn, nacl.fromDer data = .ok asn ∧ nacl.privateKeyFromAsn1 asn = .ok secret) ↔
      secret.length = 32 ∧ data = ed25519DerPrefix ++ secret)

/-- The bytes are those of an Ed25519 key, or what is taken for the scalar is either a multiple of
the order, or below it and the secret of one of the two forms. -/
def Unambiguous (data : Bytes) : Prop :=
  data.length = 32 ∨ data.length = 64 ∨ (ed25519DerPrefix <+: data ∧ data.length = 48) ∨
    curveOrder ∣ BigEndian.value (EcdsaPrivateKey.taken data) ∨
      ((EcdsaPrivateKey.derPrefix <+: data ∧ data.length = 50 ∨
          EcdsaPrivateKey.derPrefix2 <+: data ∧ 39 ≤ data.length) ∧
        BigEndian.value (EcdsaPrivateKey.taken data) < curveOrder)

variable {nacl : Nacl} {curve : Elliptic} {data : Bytes}

/-! ## The class of Ed25519 -/

theorem form_of_ed25519 (documented : nacl.Documented) (oneForm : ReadsOneForm nacl) {key : Ed25519PrivateKey}
    (read : Ed25519PrivateKey.fromBytes nacl data = .ok key) : Form data "ED25519" (key.keyPair.secretKey.take 32) := by
  have ofSeed {seed : Bytes} (length : seed.length = 32)
      (made : (nacl.fromSeed seed).map (fun keyPair => ({ keyPair } : Ed25519PrivateKey)) = .ok key) :
      key.keyPair.secretKey.take 32 = seed := by
    obtain ⟨publicKey, -, pair⟩ := documented.fromSeed seed length
    rw [pair] at made
    cases made
    exact List.take_left' length
  unfold Ed25519PrivateKey.fromBytes at read
  split at read
  · rename_i length
    unfold Ed25519PrivateKey.fromBytesDer at read
    cases object : nacl.fromDer data with
    | error message =>
        rw [object] at read
        cases read
    | ok asn =>
        cases secret : nacl.privateKeyFromAsn1 asn with
        | error message =>
            rw [object] at read
            simp only [secret] at read
            cases read
        | ok privateKey =>
            rw [object] at read
            simp only [secret] at read
            obtain ⟨size, shape⟩ := (oneForm data privateKey length).mp ⟨asn, object, secret⟩
            rw [ofSeed size read, shape]
            exact .ed25519Der size
  split at read
  · unfold Ed25519PrivateKey.fromBytesRaw at read
    split at read
    · rename_i length
      rw [ofSeed length read]
      exact .seed length
    split at read
    · rename_i length
      rw [documented.fromSecretKey data length] at read
      cases read
      have whole : data.take 32 ++ data.drop 32 = data := List.take_append_drop 32 data
      have halves := @Form.pair (data.take 32) (data.drop 32) (by simp [length]) (by simp [length])
      rw [whole] at halves
      exact halves
    · cases read
  · cases read

theorem read_of_ed25519 (documented : nacl.Documented) (oneForm : ReadsOneForm nacl)
    (form : data.length = 32 ∨ data.length = 64 ∨ (ed25519DerPrefix <+: data ∧ data.length = 48)) :
    ∃ key, Ed25519PrivateKey.fromBytes nacl data = .ok key := by
  unfold Ed25519PrivateKey.fromBytes
  rcases form with length | length | ⟨⟨secret, rfl⟩, length⟩
  · obtain ⟨publicKey, -, made⟩ := documented.fromSeed data length
    rw [if_neg (by omega), if_pos (.inl length), Ed25519PrivateKey.fromBytesRaw, if_pos length, made]
    exact ⟨_, rfl⟩
  · rw [if_neg (by omega), if_pos (.inr length), Ed25519PrivateKey.fromBytesRaw, if_neg (by omega),
      if_pos length, documented.fromSecretKey data length]
    exact ⟨_, rfl⟩
  · have size : secret.length = 32 := by
      rw [List.length_append] at length
      exact Nat.add_left_cancel (n := 16) length
    obtain ⟨asn, object, privateKey⟩ := (oneForm _ secret length).mpr ⟨size, rfl⟩
    obtain ⟨publicKey, -, made⟩ := documented.fromSeed secret size
    rw [if_pos length, Ed25519PrivateKey.fromBytesDer, object]
    simp only [privateKey, made]
    exact ⟨_, rfl⟩

theorem length_of_form {type : String} {secret : Bytes} (form : Form data type secret) (isEd25519 : type = "ED25519") :
    data.length = 32 ∨ data.length = 64 ∨ (ed25519DerPrefix <+: data ∧ data.length = 48) := by
  cases form with
  | seed length => exact .inl length
  | pair length size =>
      refine .inr (.inl ?_)
      rw [List.length_append, length, size]
  | ed25519Der length =>
      refine .inr (.inr ⟨List.prefix_append _ _, ?_⟩)
      rw [List.length_append, length]
      rfl
  | ecdsaDer length => exact absurd isEd25519 (by decide)
  | sec1 length => exact absurd isEd25519 (by decide)

/-! ## The class of ECDSA -/

theorem ecdsa_read_eq (curve : Elliptic) (data : Bytes) :
    EcdsaPrivateKey.read curve data = EcdsaPrivateKey.readRaw curve (EcdsaPrivateKey.taken data) := by
  unfold EcdsaPrivateKey.read EcdsaPrivateKey.readDer EcdsaPrivateKey.taken
  split
  · rfl
  split
  · rfl
  · rfl

theorem taken_ecdsaDer {secret : Bytes} (length : secret.length = 32) :
    EcdsaPrivateKey.taken (EcdsaPrivateKey.derPrefix ++ secret) = secret := by
  have long : (EcdsaPrivateKey.derPrefix ++ secret).length ≠ 32 := by
    rw [List.length_append, length]
    decide
  have prefixed : EcdsaPrivateKey.derPrefix.isPrefixOf (EcdsaPrivateKey.derPrefix ++ secret) = true :=
    List.isPrefixOf_iff_prefix.mpr (List.prefix_append _ _)
  rw [EcdsaPrivateKey.taken, if_neg long, if_pos prefixed, List.drop_left]

theorem taken_sec1 {secret : Bytes} (length : secret.length = 32) (rest : Bytes) :
    EcdsaPrivateKey.taken (EcdsaPrivateKey.derPrefix2 ++ secret ++ rest) = secret := by
  have long : (EcdsaPrivateKey.derPrefix2 ++ secret ++ rest).length ≠ 32 := by
    have size : EcdsaPrivateKey.derPrefix2.length = 7 := rfl
    rw [List.length_append, List.length_append, length, size]
    omega
  have other : ¬ EcdsaPrivateKey.derPrefix.isPrefixOf (EcdsaPrivateKey.derPrefix2 ++ secret ++ rest) = true := by
    have unlike : EcdsaPrivateKey.derPrefix.isPrefixOf (EcdsaPrivateKey.derPrefix2 ++ secret ++ rest) = false := rfl
    rw [unlike]
    decide
  rw [EcdsaPrivateKey.taken, if_neg long, if_neg other, List.append_assoc, List.drop_left, List.take_left' length]

/-- The secret of a form of ECDSA is what is taken. -/
theorem taken_of_form {type : String} {secret : Bytes} (form : Form data type secret) (isEcdsa : type = "secp256k1") :
    EcdsaPrivateKey.taken data = secret ∧
      (EcdsaPrivateKey.derPrefix <+: data ∧ data.length = 50 ∨
        EcdsaPrivateKey.derPrefix2 <+: data ∧ 39 ≤ data.length) := by
  cases form with
  | seed length => exact absurd isEcdsa (by decide)
  | pair length size => exact absurd isEcdsa (by decide)
  | ed25519Der length => exact absurd isEcdsa (by decide)
  | ecdsaDer length =>
      refine ⟨taken_ecdsaDer length, .inl ⟨List.prefix_append _ _, ?_⟩⟩
      rw [List.length_append, length]
      rfl
  | @sec1 _ rest length =>
      refine ⟨taken_sec1 length rest, .inr ⟨?_, ?_⟩⟩
      · rw [List.append_assoc]
        exact List.prefix_append _ _
      · have size : EcdsaPrivateKey.derPrefix2.length = 7 := rfl
        rw [List.length_append, List.length_append, length, size]
        omega

theorem form_of_taken
    (form : EcdsaPrivateKey.derPrefix <+: data ∧ data.length = 50 ∨
      EcdsaPrivateKey.derPrefix2 <+: data ∧ 39 ≤ data.length) :
    Form data "secp256k1" (EcdsaPrivateKey.taken data) := by
  rcases form with ⟨⟨secret, rfl⟩, length⟩ | ⟨⟨secret, rfl⟩, length⟩
  · have size : secret.length = 32 := by
      rw [List.length_append] at length
      exact Nat.add_left_cancel (n := 18) length
    rw [taken_ecdsaDer size]
    exact .ecdsaDer size
  · have size : (secret.take 32).length = 32 := by
      rw [List.length_append] at length
      have enough : 32 ≤ secret.length := Nat.le_of_add_le_add_left (a := 7) length
      rw [List.length_take, Nat.min_eq_left enough]
    have shape : EcdsaPrivateKey.derPrefix2 ++ secret =
        EcdsaPrivateKey.derPrefix2 ++ secret.take 32 ++ secret.drop 32 := by
      rw [List.append_assoc, List.take_append_drop]
    rw [shape, taken_sec1 size]
    exact .sec1 size

/-- The number of the key's scalar. -/
theorem value_privateKey (documented : curve.Documented) {taken : Bytes} (nonzero : curve.keyFromPrivate taken ≠ 0) :
    BigEndian.value (EcdsaPrivateKey.fromBytesRaw curve taken).keyPair.privateKey =
      BigEndian.value taken % curveOrder := by
  rw [EcdsaPrivateKey.fromBytesRaw, EcdsaPrivateKey.privateKey_ofScalar documented (Nat.pos_of_ne_zero nonzero),
    BigEndian.value_minimal, documented.keyFromPrivate]

/-! ## Both classes -/

/-- Bytes are read as keys of their form exactly when they are unambiguous. -/
theorem readsForms_iff (documented : nacl.Documented) (oneForm : ReadsOneForm nacl)
    (onCurve : curve.Documented) (engine : String) (data : Bytes) :
    ReadsForms nacl curve engine data ↔ Unambiguous data := by
  cases first : Ed25519PrivateKey.fromBytes nacl data with
  | ok key =>
      have form := form_of_ed25519 documented oneForm first
      have whole : read nacl curve engine data = .ok (ed25519 key) := by rw [read, first]
      constructor
      · intro _
        rcases length_of_form form rfl with length | length | prefixed
        · exact .inl length
        · exact .inr (.inl length)
        · exact .inr (.inr (.inl prefixed))
      · intro _ key' read'
        cases whole.symm.trans read'
        exact ⟨_, form, rfl⟩
  | error error =>
      have notEd25519 (form : data.length = 32 ∨ data.length = 64 ∨
          (ed25519DerPrefix <+: data ∧ data.length = 48)) : False := by
        obtain ⟨key, ok⟩ := read_of_ed25519 documented oneForm form
        cases first.symm.trans ok
      have scalar := onCurve.keyFromPrivate (EcdsaPrivateKey.taken data)
      by_cases zero : curve.keyFromPrivate (EcdsaPrivateKey.taken data) = 0
      · have multiple : curveOrder ∣ BigEndian.value (EcdsaPrivateKey.taken data) :=
          Nat.dvd_of_mod_eq_zero (scalar.symm.trans zero)
        have refused : EcdsaPrivateKey.read curve data = .error .typeError := by
          rw [ecdsa_read_eq, EcdsaPrivateKey.readRaw, if_pos zero]
        refine ⟨fun _ => .inr (.inr (.inr (.inl multiple))), fun _ key read' => ?_⟩
        rw [read, first] at read'
        simp only [refused] at read'
        cases read'
      · have ok : EcdsaPrivateKey.read curve data =
            .ok (EcdsaPrivateKey.fromBytesRaw curve (EcdsaPrivateKey.taken data)) := by
          rw [ecdsa_read_eq, EcdsaPrivateKey.readRaw, if_neg zero]
        have whole : read nacl curve engine data =
            .ok (ecdsa (EcdsaPrivateKey.fromBytesRaw curve (EcdsaPrivateKey.taken data))) := by
          rw [read, first]
          simp only [ok]
        have number := value_privateKey onCurve zero
        constructor
        · intro reads
          obtain ⟨secret, form, isKey⟩ := reads _ whole
          obtain ⟨same, shape⟩ := taken_of_form form rfl
          have value := number.symm.trans isKey.privateKey
          have less := Nat.mod_lt (BigEndian.value (EcdsaPrivateKey.taken data)) (show 0 < curveOrder by decide)
          rw [value] at less
          refine .inr (.inr (.inr (.inr ⟨shape, ?_⟩)))
          rw [same]
          exact less
        · intro unambiguous key read'
          cases whole.symm.trans read'
          rcases unambiguous with length | length | prefixed | multiple | ⟨shape, less⟩
          · exact absurd (.inl length) notEd25519
          · exact absurd (.inr (.inl length)) notEd25519
          · exact absurd (.inr (.inr prefixed)) notEd25519
          · exact absurd (scalar.trans (Nat.mod_eq_zero_of_dvd multiple)) zero
          · have positive : 0 < BigEndian.value (EcdsaPrivateKey.taken data) := by
              rw [scalar, Nat.mod_eq_of_lt less] at zero
              exact Nat.pos_of_ne_zero zero
            exact ⟨_, form_of_taken shape, EcdsaPrivateKey.isKeyOf_fromBytesRaw onCurve positive less rfl⟩

section Samples

open EcdsaPrivateKey (basePoint basePoint_documented)

/-- `sampleNacl` with a reader of the one form. -/
def formNacl : Nacl :=
  { sampleNacl with
    fromDer := fun data =>
      if ed25519DerPrefix <+: data ∧ data.length = 48 then .ok (.string (hexEncode (data.drop 16)))
      else .error "no object"
    privateKeyFromAsn1 := fun asn =>
      match asn with
      | .string text => .ok (hexDecode text)
      | _ => .error "no key" }

theorem formNacl_documented : formNacl.Documented := ⟨sampleNacl_documented.1, sampleNacl_documented.2⟩

theorem formNacl_readsOneForm : ReadsOneForm formNacl := by
  intro data secret length
  constructor
  · rintro ⟨asn, object, privateKey⟩
    by_cases own : ed25519DerPrefix <+: data ∧ data.length = 48
    · have read : formNacl.fromDer data = .ok (.string (hexEncode (data.drop 16))) := if_pos own
      cases read.symm.trans object
      obtain ⟨⟨rest, rfl⟩, -⟩ := own
      have same : hexDecode (hexEncode ((ed25519DerPrefix ++ rest).drop 16)) = secret := Except.ok.inj privateKey
      rw [hexDecode_hexEncode] at same
      obtain rfl : rest = secret := same
      rw [List.length_append] at length
      exact ⟨Nat.add_left_cancel (n := 16) length, rfl⟩
    · have read : formNacl.fromDer data = .error "no object" := if_neg own
      cases read.symm.trans object
  · rintro ⟨-, rfl⟩
    refine ⟨_, if_pos ⟨List.prefix_append _ _, length⟩, ?_⟩
    exact congrArg Except.ok (hexDecode_hexEncode secret)

theorem ecdsa_form_read :
    ReadsForms formNacl basePoint "" (EcdsaPrivateKey.derPrefix ++ (List.replicate 31 0 ++ [1])) := by
  apply (readsForms_iff formNacl_documented formNacl_readsOneForm basePoint_documented "" _).mpr
  refine .inr (.inr (.inr (.inr ⟨.inl ⟨List.prefix_append _ _, by decide⟩, ?_⟩)))
  decide +kernel

/-- Eight bytes are the key of the scalar 1. -/
theorem short_bytes_read : ¬ ReadsForms formNacl basePoint "" [0, 0, 0, 0, 0, 0, 0, 1] := by
  intro reads
  have whole : read formNacl basePoint "" [0, 0, 0, 0, 0, 0, 0, 1] =
      .ok (ecdsa (EcdsaPrivateKey.fromBytesRaw basePoint [1])) := by decide +kernel
  obtain ⟨secret, form, -⟩ := reads _ whole
  obtain ⟨-, ⟨-, length⟩ | ⟨-, length⟩⟩ := taken_of_form form rfl
  · exact absurd length (by decide)
  · exact absurd length (by decide)

end Samples

end PrivateKey

end HederaSdk
