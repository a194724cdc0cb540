import HederaSdk.Keys

/-!
# Bytes of public keys

The raw bytes of a key and its three encodings, beside what `PublicKey.fromBytes` reads. The lengths
of the two encodings of secp256k1 keys are looked at, but not what stands in front of the key.
-/

namespace HederaSdk

namespace PublicKey

/-- `forge` reads its own encoding among those of 44 bytes, and `elliptic` points of 33 or 65 bytes. -/
structure Decoders.Documented (decoders : Decoders) : Prop where
  forge : ∀ data raw, data.length = 44 → (decoders.forge data = .ok raw ↔ data = ed25519DerPrefix ++ raw.1)
  elliptic : ∀ data, data.length ≠ 33 → data.length ≠ 65 → ∃ message, decoders.elliptic data = .error message

/-- The forms in which the bytes of a key are known. -/
inductive EncodedAs : PublicKey → Bytes → Prop where
  | raw (key : PublicKey) : EncodedAs key key.raw
  | ed25519 (raw : Bytes) (valid : raw.length = KeyType.rawLength .ed25519) :
      EncodedAs ⟨.ed25519, raw, valid⟩ (ed25519DerPrefix ++ raw)
  | legacy (raw : Bytes) (valid : raw.length = KeyType.rawLength .secp256k1) :
      EncodedAs ⟨.secp256k1, raw, valid⟩ (legacyDerPrefix ++ raw)
  | standard (raw : Bytes) (valid : raw.length = KeyType.rawLength .secp256k1) :
      EncodedAs ⟨.secp256k1, raw, valid⟩ (ecdsaDerPrefix ++ raw)

/-- The bytes are read as a key when they are a form of it and not otherwise, and the forms that the
key writes are read as it. -/
structure ReadsExactly (decoders : Decoders) (data : Bytes) : Prop where
  exact : ∀ key, fromBytes decoders data = .ok key ↔ EncodedAs key data
  again : ∀ key, fromBytes decoders data = .ok key →
    fromBytes decoders key.toBytesDer = .ok key ∧ fromBytes decoders key.toBytesRaw = .ok key

/-- A prefix of its own stands in front of every key of the curve that has one. -/
def OwnPrefix (data : Bytes) : Prop :=
  (data.length = 47 → legacyDerPrefix <+: data) ∧ (data.length = 56 → ecdsaDerPrefix <+: data)

variable {decoders : Decoders} {data : Bytes}

/-! ## What is read, by length -/

theorem fromBytes_of_32 (length : data.length = 32) :
    fromBytes decoders data = .ok ⟨.ed25519, data, length⟩ := by
  simp [fromBytes, fromBytesEd25519, length]

theorem fromBytes_of_33 (length : data.length = 33) :
    fromBytes decoders data = .ok ⟨.secp256k1, data, length⟩ := by
  simp [fromBytes, fromBytesEd25519, fromBytesEcdsa, length]

theorem fromBytes_of_44 (documented : decoders.Documented) (length : data.length = 44) (key : PublicKey) :
    fromBytes decoders data = .ok key ↔ ∃ raw, decoders.forge data = .ok raw ∧ key = ⟨.ed25519, raw.1, raw.2⟩ := by
  cases read : decoders.forge data with
  | ok raw =>
      have whole : fromBytes decoders data = .ok ⟨.ed25519, raw.1, raw.2⟩ := by
        simp [fromBytes, fromBytesEd25519, length, read]
      rw [whole]
      constructor
      · intro same
        exact ⟨raw, rfl, (Except.ok.inj same).symm⟩
      · rintro ⟨raw', same, rfl⟩
        rw [Except.ok.inj same]
  | error message =>
      obtain ⟨message', refused⟩ := documented.elliptic (data.drop 23) (by simp [length]) (by simp [length])
      have whole : ∃ message, fromBytes decoders data = .error message := by
        simp [fromBytes, fromBytesEd25519, fromBytesEcdsa, length, read, refused]
      obtain ⟨message, whole⟩ := whole
      rw [whole]
      constructor
      · intro none
        cases none
      · rintro ⟨raw, none, -⟩
        cases none

theorem fromBytes_of_47 (length : data.length = 47) :
    fromBytes decoders data = .ok ⟨.secp256k1, data.drop 14, by simp [length, KeyType.rawLength]⟩ := by
  simp [fromBytes, fromBytesEd25519, fromBytesEcdsa, length]

theorem length_of_56 (length : data.length = 56) : ((data.drop 23).take 33).length = KeyType.rawLength .secp256k1 := by
  rw [List.length_take, List.length_drop, length]
  rfl

theorem fromBytes_of_56 (length : data.length = 56) :
    fromBytes decoders data = .ok ⟨.secp256k1, (data.drop 23).take 33, length_of_56 length⟩ := by
  simp [fromBytes, fromBytesEd25519, fromBytesEcdsa, length]

/-! ## The forms of a key -/

theorem length_of_encodedAs {key : PublicKey} (encoded : EncodedAs key data) :
    data = key.raw ∨ data.length = 44 ∧ data = ed25519DerPrefix ++ key.raw ∧ key.type = .ed25519 ∨
      data.length = 47 ∧ data = legacyDerPrefix ++ key.raw ∧ key.type = .secp256k1 ∨
        data.length = 56 ∧ data = ecdsaDerPrefix ++ key.raw ∧ key.type = .secp256k1 := by
  cases encoded with
  | raw key => exact .inl rfl
  | ed25519 raw valid =>
      refine .inr (.inl ⟨?_, rfl, rfl⟩)
      rw [List.length_append, valid]
      rfl
  | legacy raw valid =>
      refine .inr (.inr (.inl ⟨?_, rfl, rfl⟩))
      rw [List.length_append, valid]
      rfl
  | standard raw valid =>
      refine .inr (.inr (.inr ⟨?_, rfl, rfl⟩))
      rw [List.length_append, valid]
      rfl

theorem length_raw (key : PublicKey) : key.raw.length = 32 ∨ key.raw.length = 33 := by
  obtain ⟨type, raw, valid⟩ := key
  cases type with
  | ed25519 => exact .inl valid
  | secp256k1 => exact .inr valid

theorem eq_of_raw {key key' : PublicKey} (same : key.raw = key'.raw) : key = key' := toBytesRaw_injective same

theorem encodedAs_of_raw {key key' : PublicKey} (whole : key.raw = data) : EncodedAs key' data ↔ key' = key := by
  have length := length_raw key
  rw [whole] at length
  constructor
  · intro encoded
    rcases length_of_encodedAs encoded with same | ⟨other, -⟩ | ⟨other, -⟩ | ⟨other, -⟩
    · exact eq_of_raw (same.symm.trans whole.symm)
    all_goals omega
  · rintro rfl
    rw [← whole]
    exact .raw key'

theorem encodedAs_of_44 (length : data.length = 44) (key : PublicKey) :
    EncodedAs key data ↔ data = ed25519DerPrefix ++ key.raw ∧ key.type = .ed25519 := by
  have short := length_raw key
  constructor
  · intro encoded
    rcases length_of_encodedAs encoded with same | ⟨-, shape⟩ | ⟨other, -⟩ | ⟨other, -⟩
    · rw [same] at length
      omega
    · exact shape
    all_goals omega
  · rintro ⟨shape, type⟩
    obtain ⟨type', raw, valid⟩ := key
    obtain rfl : type' = .ed25519 := type
    rw [shape]
    exact .ed25519 raw valid

theorem encodedAs_of_47 (length : data.length = 47) (key : PublicKey) :
    EncodedAs key data ↔ data = legacyDerPrefix ++ key.raw ∧ key.type = .secp256k1 := by
  have short := length_raw key
  constructor
  · intro encoded
    rcases length_of_encodedAs encoded with same | ⟨other, -⟩ | ⟨-, shape⟩ | ⟨other, -⟩
    · rw [same] at length
      omega
    · omega
    · exact shape
    · omega
  · rintro ⟨shape, type⟩
    obtain ⟨type', raw, valid⟩ := key
    obtain rfl : type' = .secp256k1 := type
    rw [shape]
    exact .legacy raw valid

theorem encodedAs_of_56 (length : data.length = 56) (key : PublicKey) :
    EncodedAs key data ↔ data = ecdsaDerPrefix ++ key.raw ∧ key.type = .secp256k1 := by
  have short := length_raw key
  constructor
  · intro encoded
    rcases length_of_encodedAs encoded with same | ⟨other, -⟩ | ⟨other, -⟩ | ⟨-, shape⟩
    · rw [same] at length
      omega
    · omega
    · omega
    · exact shape
  · rintro ⟨shape, type⟩
    obtain ⟨type', raw, valid⟩ := key
    obtain rfl : type' = .secp256k1 := type
    rw [shape]
    exact .standard raw valid

/-! ## Exactness -/

theorem drop_legacyDerPrefix (raw : Bytes) : (legacyDerPrefix ++ raw).drop 14 = raw := rfl

theorem drop_ecdsaDerPrefix (raw : Bytes) : (ecdsaDerPrefix ++ raw).drop 23 = raw := rfl

theorem fromBytes_ownDer (documented : decoders.Documented) (key : PublicKey) :
    fromBytes decoders key.toBytesDer = .ok key := by
  obtain ⟨type, raw, valid⟩ := key
  cases type with
  | ed25519 =>
      have length : (ed25519DerPrefix ++ raw).length = 44 := by
        rw [List.length_append, valid]
        rfl
      apply (fromBytes_of_44 documented length _).mpr
      exact ⟨⟨raw, valid⟩, (documented.forge _ ⟨raw, valid⟩ length).mpr rfl, rfl⟩
  | secp256k1 =>
      have length : (legacyDerPrefix ++ raw).length = 47 := by
        rw [List.length_append, valid]
        rfl
      apply (fromBytes_of_47 length).trans
      exact congrArg Except.ok (eq_of_raw (drop_legacyDerPrefix raw))

theorem exact_of_44 (documented : decoders.Documented) (length : data.length = 44) (key : PublicKey) :
    fromBytes decoders data = .ok key ↔ EncodedAs key data := by
  rw [fromBytes_of_44 documented length, encodedAs_of_44 length]
  constructor
  · rintro ⟨raw, read, rfl⟩
    exact ⟨(documented.forge data raw length).mp read, rfl⟩
  · rintro ⟨shape, type⟩
    obtain ⟨type', raw, valid⟩ := key
    obtain rfl : type' = .ed25519 := type
    exact ⟨⟨raw, valid⟩, (documented.forge data ⟨raw, valid⟩ length).mpr shape, rfl⟩

theorem exact_of_47 (length : data.length = 47) :
    (∀ key, fromBytes decoders data = .ok key ↔ EncodedAs key data) ↔ legacyDerPrefix <+: data := by
  constructor
  · intro exact
    have encoded := (exact _).mp (fromBytes_of_47 length)
    exact ⟨_, ((encodedAs_of_47 length _).mp encoded).1.symm⟩
  · rintro ⟨raw, shape⟩ key
    have behind : data.drop 14 = raw := by
      rw [← shape]
      exact drop_legacyDerPrefix raw
    rw [fromBytes_of_47 length, encodedAs_of_47 length, Except.ok.injEq]
    constructor
    · rintro rfl
      refine ⟨?_, rfl⟩
      change data = legacyDerPrefix ++ data.drop 14
      rw [behind, shape]
    · rintro ⟨same, -⟩
      apply eq_of_raw
      change data.drop 14 = key.raw
      rw [same, drop_legacyDerPrefix]

theorem exact_of_56 (length : data.length = 56) :
    (∀ key, fromBytes decoders data = .ok key ↔ EncodedAs key data) ↔ ecdsaDerPrefix <+: data := by
  constructor
  · intro exact
    have encoded := (exact _).mp (fromBytes_of_56 length)
    exact ⟨_, ((encodedAs_of_56 length _).mp encoded).1.symm⟩
  · rintro ⟨raw, shape⟩ key
    have size : raw.length = 33 := by
      rw [← shape, List.length_append] at length
      exact Nat.add_left_cancel (n := 23) length
    have behind : (data.drop 23).take 33 = raw := by
      rw [← shape, drop_ecdsaDerPrefix]
      exact List.take_of_length_le (Nat.le_of_eq size)
    rw [fromBytes_of_56 length, encodedAs_of_56 length, Except.ok.injEq]
    constructor
    · rintro rfl
      refine ⟨?_, rfl⟩
      change data = ecdsaDerPrefix ++ (data.drop 23).take 33
      rw [behind, shape]
    · rintro ⟨same, -⟩
      apply eq_of_raw
      change (data.drop 23).take 33 = key.raw
      rw [behind]
      exact List.append_cancel_left (shape.trans same)

/-- Bytes of these lengths are read exactly when the two encodings of the curve have a prefix of
their own. -/
theorem bytesReadExactly_iff (documented : decoders.Documented) (listed : data.length ∈ [32, 33, 44, 47, 56]) :
    ReadsExactly decoders data ↔ OwnPrefix data := by
  have again (key : PublicKey) (_ : fromBytes decoders data = .ok key) :
      fromBytes decoders key.toBytesDer = .ok key ∧ fromBytes decoders key.toBytesRaw = .ok key :=
    ⟨fromBytes_ownDer documented key, fromBytes_toBytesRaw decoders key⟩
  have whole {key : PublicKey} (read : fromBytes decoders data = .ok key) (raw : key.raw = data) (key' : PublicKey) :
      fromBytes decoders data = .ok key' ↔ EncodedAs key' data := by
    rw [read, encodedAs_of_raw raw, Except.ok.injEq]
    exact eq_comm
  constructor
  · intro reads
    exact ⟨fun length => (exact_of_47 length).mp reads.exact, fun length => (exact_of_56 length).mp reads.exact⟩
  · rintro ⟨legacy, standard⟩
    refine ⟨?_, again⟩
    simp only [List.mem_cons, List.not_mem_nil, or_false] at listed
    rcases listed with length | length | length | length | length
    · exact whole (fromBytes_of_32 length) rfl
    · exact whole (fromBytes_of_33 length) rfl
    · exact exact_of_44 documented length
    · exact (exact_of_47 length).mpr (legacy length)
    · exact (exact_of_56 length).mpr (standard length)

section Samples

/-- Decoders that read the one form of `forge` and nothing with `elliptic`. -/
def sampleDecoders : Decoders where
  forge data :=
    if h : ed25519DerPrefix <+: data ∧ data.length = 44 then .ok ⟨data.drop 12, by simp [h.2]⟩ else .error "no key"
  elliptic _ := .error "Unknown point format"

theorem sampleDecoders_documented : sampleDecoders.Documented where
  forge data raw length := by
    obtain ⟨raw, size⟩ := raw
    unfold sampleDecoders
    simp only
    constructor
    · intro read
      by_cases own : ed25519DerPrefix <+: data ∧ data.length = 44
      · rw [dif_pos own, Except.ok.injEq, Subtype.mk.injEq] at read
        obtain ⟨⟨rest, rfl⟩, -⟩ := own
        rw [← read]
        rfl
      · rw [dif_neg own] at read
        cases read
    · rintro rfl
      rw [dif_pos ⟨List.prefix_append _ _, length⟩]
      rfl
  elliptic _ _ _ := ⟨_, rfl⟩

theorem legacy_key_read : ReadsExactly sampleDecoders (legacyDerPrefix ++ List.replicate 33 2) := by
  apply (bytesReadExactly_iff sampleDecoders_documented (by decide)).mpr
  exact ⟨fun _ => List.prefix_append _ _, fun other => absurd other (by decide)⟩

/-- Bytes without any prefix are a key of the curve when there are 47 of them. -/
theorem foreign_prefix_read : ¬ ReadsExactly sampleDecoders (List.replicate 47 0) := by
  intro reads
  have prefixed := (exact_of_47 (by decide)).mp reads.exact
  exact absurd prefixed (by decide)

end Samples

end PublicKey

end HederaSdk
