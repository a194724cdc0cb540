import HederaSdk.Cryptography.Mnemonic
import Mathlib.Data.List.Nodup

/-!
# Phrases and their entropy

Both readers regroup the bits that the words were made of: `_validate` accepts the phrases of the
entropies and no others, and `legacy2` returns the entropy.
-/

namespace HederaSdk

open Library Library.BitGroups

namespace Mnemonic

variable {platform : MnemonicPlatform}

/-- Phrases have 12 words for 16 bytes or 24 for 32. -/
structure Sizes (words bytes : Nat) : Prop where
  needed : neededEntropy words = some bytes
  bits : words * 11 = bytes * 8 + bytes * 8 / 32
  divider : words * 11 / 33 = bytes * 8 / 32
  short : bytes ≤ 1024
  words : words = 12 ∨ words = 24

theorem sizes_12 : Sizes 12 16 := ⟨rfl, rfl, rfl, by decide, .inl rfl⟩

theorem sizes_24 : Sizes 24 32 := ⟨rfl, rfl, rfl, by decide, .inr rfl⟩

theorem sizes_of_needed {words bytes : Nat} (needed : neededEntropy words = some bytes) : Sizes words bytes := by
  unfold neededEntropy at needed
  split at needed
  · rename_i twelve
    rw [twelve, ← Option.some.inj needed]
    exact sizes_12
  split at needed
  · rename_i twentyFour
    rw [twentyFour, ← Option.some.inj needed]
    exact sizes_24
  · cases needed

theorem exists_sizes {words : Nat} (length : words = 12 ∨ words = 24) : ∃ bytes, Sizes words bytes := by
  rcases length with rfl | rfl
  · exact ⟨16, sizes_12⟩
  · exact ⟨32, sizes_24⟩

theorem length_phraseBits (documented : platform.Documented) {entropy : Bytes} {words : Nat}
    (sizes : Sizes words entropy.length) : (phraseBits platform entropy).length = words * 11 := by
  rw [phraseBits, List.length_append, length_byteBits, length_checksum documented sizes.short, sizes.bits]

/-! ## Generating -/

/-- The words of an entropy are those of its bits in groups of eleven. -/
theorem wordsOf_eq {entropy : Bytes} {parts : List (List Bool)} (sized : ∀ part ∈ parts, part.length = 11)
    (joined : phraseBits platform entropy = parts.flatten) :
    wordsOf platform entropy = parts.map (wordAt platform) := by
  have text : bytesToBinary entropy ++ deriveChecksumBits platform entropy =
      (parts.map fun part => part.map digit).flatten := by
    rw [bytesToBinary_eq, deriveChecksumBits_eq, ← List.map_append, ← phraseBits, joined, List.map_flatten]
  have textSized : ∀ part ∈ parts.map fun part => part.map digit, part.length = 11 := by
    intro part member
    obtain ⟨group, inside, rfl⟩ := List.mem_map.mp member
    rw [List.length_map]
    exact sized group inside
  rw [wordsOf, text, groups_flatten (by decide) _ textSized, List.map_map]
  apply List.map_congr_left
  intro part _
  change platform.bip39Words.getD (Nat.ofDigitChars 2 (part.map digit) 0) "undefined" = _
  rw [ofDigitChars_digits, wordAt]

theorem exists_phraseParts (documented : platform.Documented) {entropy : Bytes} {words : Nat}
    (sizes : Sizes words entropy.length) :
    ∃ parts : List (List Bool), phraseBits platform entropy = parts.flatten ∧ parts.length = words ∧
      ∀ part ∈ parts, part.length = 11 :=
  exists_parts 11 (length_phraseBits documented sizes)

/-- Words are the phrase of an entropy when the bits are the same. -/
theorem isPhraseOf_iff (documented : platform.Documented) {entropy : Bytes} {parts : List (List Bool)}
    (sized : ∀ part ∈ parts, part.length = 11) (sizes : Sizes parts.length entropy.length) :
    IsPhraseOf platform entropy (parts.map (wordAt platform)) ↔ phraseBits platform entropy = parts.flatten := by
  have made : generate platform parts.length (fun _ => entropy) = .ok (wordsOf platform entropy) := by
    rw [generate, sizes.needed]
  rw [IsPhraseOf, List.length_map, made, Except.ok.injEq]
  constructor
  · rintro ⟨-, same⟩
    obtain ⟨own, joined, -, ownSized⟩ := exists_phraseParts documented sizes
    rw [wordsOf_eq ownSized joined] at same
    rw [joined, eq_of_map_wordAt documented ownSized sized same]
  · intro joined
    exact ⟨sizes.needed, wordsOf_eq sized joined⟩

/-! ## Validating -/

theorem bitsText_eq (documented : platform.Documented) {parts : List (List Bool)}
    (sized : ∀ part ∈ parts, part.length = 11) :
    ((parts.map (wordAt platform)).flatMap fun word =>
        Text.padded 11 (binaryText (indexOf platform.bip39Words word))) = parts.flatten.map digit := by
  have each (part : List Bool) (member : part ∈ parts) :
      Text.padded 11 (binaryText (indexOf platform.bip39Words (wordAt platform part))) = part.map digit := by
    have length := sized part member
    have whole := bits_number part
    rw [length] at whole
    have small : number part < 2 ^ (10 + 1) := number_lt_of_length length
    rw [indexOf_wordAt documented length, binaryText_natCast, padded_toDigits small, whole]
  rw [List.flatMap_map, List.map_flatten, List.flatMap_def]
  congr 1
  apply List.map_congr_left each

/-- The bytes that the bits in front of the divider are read as. -/
theorem entropyBytes_eq {group : List Bool} {count : Nat} (length : group.length = count * 8) :
    ∃ entropy : Bytes, byteBits entropy = group ∧ entropy.length = count ∧
      ((groups 8 (group.map digit)).map fun bin => UInt8.ofNat (binaryToByte bin)) = entropy := by
  obtain ⟨parts, joined, number_, sized⟩ := exists_parts 8 length
  refine ⟨parts.map fun part => UInt8.ofNat (number part), ?_, ?_, ?_⟩
  · rw [byteBits_numbers sized, joined]
  · rw [List.length_map, number_]
  · have text : group.map digit = (parts.map fun part => part.map digit).flatten := by
      rw [joined, List.map_flatten]
    have textSized : ∀ part ∈ parts.map fun part => part.map digit, part.length = 8 := by
      intro part member
      obtain ⟨group, inside, rfl⟩ := List.mem_map.mp member
      rw [List.length_map]
      exact sized group inside
    rw [text, groups_flatten (by decide) _ textSized, List.map_map]
    apply List.map_congr_left
    intro part _
    change UInt8.ofNat (Nat.ofDigitChars 2 (part.map digit) 0) = _
    rw [ofDigitChars_digits]

/-- Words of the list are accepted when their bits are those of an entropy with its checksum. -/
theorem validate_groups (documented : platform.Documented) {parts : List (List Bool)} {bytes : Nat}
    (sized : ∀ part ∈ parts, part.length = 11) (sizes : Sizes parts.length bytes) :
    validate platform (parts.map (wordAt platform)) = .ok (parts.map (wordAt platform)) ↔
      ∃ entropy : Bytes, entropy.length = bytes ∧ phraseBits platform entropy = parts.flatten := by
  have count : (parts.map (wordAt platform)).length = parts.length := List.length_map _
  have other : ¬ (parts.map (wordAt platform)).length = 22 := by
    have words := sizes.words
    omega
  have supported : ¬ ¬ ((parts.map (wordAt platform)).length = 12 ∨ (parts.map (wordAt platform)).length = 24) := by
    rw [count, not_not]
    exact sizes.words
  have known : unknownWordIndices (fun word => decide (word ∈ platform.bip39Words)) (parts.map (wordAt platform)) = [] := by
    rw [unknownWordIndices_eq_nil]
    intro word member
    obtain ⟨part, inside, rfl⟩ := List.mem_map.mp member
    exact decide_eq_true (wordAt_mem documented (sized part inside))
  have length : parts.flatten.length = parts.length * 11 := length_flatten_of_sized parts sized
  have divided : parts.flatten.length / 33 * 32 = bytes * 8 := by
    have bits := sizes.bits
    have divider := sizes.divider
    have words := sizes.words
    rw [length]
    omega
  have front : (parts.flatten.take (bytes * 8)).length = bytes * 8 := by
    have bits := sizes.bits
    rw [List.length_take, length]
    omega
  obtain ⟨entropy, own, size, read⟩ := entropyBytes_eq front
  have result : validate platform (parts.map (wordAt platform)) =
      if (checksum platform entropy).map digit ≠ (parts.flatten.drop (bytes * 8)).map digit then
        .error ⟨parts.map (wordAt platform), .checksumMismatch, []⟩
      else .ok (parts.map (wordAt platform)) := by
    unfold validate
    rw [if_neg other, if_neg supported]
    simp only [known, List.length_nil, Nat.lt_irrefl, if_false, bitsText_eq documented sized, List.length_map,
      divided, ← List.map_take, ← List.map_drop, read, deriveChecksumBits_eq]
  rw [result]
  have checks : (checksum platform entropy).map digit = (parts.flatten.drop (bytes * 8)).map digit ↔
      phraseBits platform entropy = parts.flatten := by
    rw [List.map_inj_right fun _ _ same => digit_injective same]
    have halves := List.take_append_drop (bytes * 8) parts.flatten
    constructor
    · intro same
      rw [phraseBits, own, same, halves]
    · intro same
      rw [← halves, phraseBits, own] at same
      exact List.append_cancel_left same
  constructor
  · intro accepted
    refine ⟨entropy, size, checks.mp ?_⟩
    by_contra different
    rw [if_pos different] at accepted
    cases accepted
  · rintro ⟨entropy', size', joined⟩
    have bitsSame : byteBits entropy' = byteBits entropy := by
      have taken := congrArg (List.take (bytes * 8)) joined
      rw [phraseBits, List.take_left' (by rw [length_byteBits, size'])] at taken
      rw [taken, own]
    have sameEntropy : entropy' = entropy := by
      have first := map_number_bits entropy'
      have groupsSame := @eq_of_byteBits entropy' (entropy.map fun b => bits 8 b.toNat) (by
        intro part member
        obtain ⟨b, -, rfl⟩ := List.mem_map.mp member
        exact length_bits 8 b.toNat) (by rw [bitsSame, byteBits, List.flatMap_def])
      rw [← first, ← groupsSame, map_number_bits]
    rw [sameEntropy] at joined
    rw [if_neg (not_not.mpr (checks.mpr joined))]

/-! ## The entropy of a phrase -/

theorem maskedBit (n k : Nat) : decide (n &&& (1 <<< k) ≠ 0) = n.testBit k := by
  rw [Nat.one_shiftLeft, Nat.and_two_pow]
  have positive := Nat.two_pow_pos k
  cases n.testBit k with
  | false => simp
  | true => simp

theorem wordBits_eq (index : Nat) : wordBits index = bits 11 index := by
  rw [wordBits, bits_eq_testBit]
  apply List.map_congr_left
  intro i _
  exact maskedBit index (10 - i)

theorem bytesToBits_eq (data : Bytes) : bytesToBits data = byteBits data := by
  have each (b : UInt8) : ((List.range 8).map fun j => decide (b.toNat &&& (1 <<< (7 - j)) ≠ 0)) = bits 8 b.toNat := by
    rw [bits_eq_testBit]
    apply List.map_congr_left
    intro j _
    exact maskedBit b.toNat (7 - j)
  rw [bytesToBits, byteBits]
  simp only [each]

theorem concatBits_eq (documented : platform.Documented) {parts : List (List Bool)}
    (sized : ∀ part ∈ parts, part.length = 11) :
    concatBits platform platform.bip39Words (parts.map (wordAt platform)) = .ok parts.flatten := by
  induction parts with
  | nil => rfl
  | cons part parts inductionHypothesis =>
      have length := sized part List.mem_cons_self
      have later := inductionHypothesis fun part member => sized part (List.mem_cons_of_mem _ member)
      have lower := documented.lower _ (wordAt_mem documented length)
      have whole := bits_number part
      rw [length] at whole
      rw [List.map_cons, concatBits, lower, indexOf_wordAt documented length, if_neg (by omega), later, Int.toNat_natCast, wordBits_eq, whole, List.flatten_cons]
      rfl

/-- Eight bits that are or-ed together are the byte they number. -/
theorem orBits (group : List Bool) (length : group.length = 8) :
    (List.range 8).foldl (fun entropy j => if group[j]? = some true then entropy ||| 1 <<< (7 - j) else entropy) 0 =
      number group := by
  obtain ⟨b0, b1, b2, b3, b4, b5, b6, b7, rfl⟩ :
      ∃ b0 b1 b2 b3 b4 b5 b6 b7 : Bool, group = [b0, b1, b2, b3, b4, b5, b6, b7] := by
    match group, length with
    | [b0, b1, b2, b3, b4, b5, b6, b7], _ => exact ⟨b0, b1, b2, b3, b4, b5, b6, b7, rfl⟩
  revert b0 b1 b2 b3 b4 b5 b6 b7
  decide

theorem entropyByte_zero (b : UInt8) (rest : List Bool) : entropyByte (bits 8 b.toNat ++ rest) 0 = b := by
  have own : (List.range 8).foldl (fun entropy j =>
      if (bits 8 b.toNat ++ rest)[0 * 8 + j]? = some true then entropy ||| 1 <<< (7 - j) else entropy) 0 =
      (List.range 8).foldl (fun entropy j =>
        if (bits 8 b.toNat)[j]? = some true then entropy ||| 1 <<< (7 - j) else entropy) 0 := by
    apply List.foldl_ext
    intro entropy j member
    have below : j < (bits 8 b.toNat).length := by
      rw [length_bits]
      exact List.mem_range.mp member
    rw [Nat.zero_mul, Nat.zero_add, List.getElem?_append_left below]
  rw [entropyByte, own, orBits _ (length_bits 8 b.toNat), number_bits b.toNat_lt, UInt8.ofNat_toNat]

theorem entropyByte_succ {group : List Bool} (length : group.length = 8) (rest : List Bool) (i : Nat) :
    entropyByte (group ++ rest) (i + 1) = entropyByte rest i := by
  have shift (j : Nat) : (group ++ rest)[(i + 1) * 8 + j]? = rest[i * 8 + j]? := by
    rw [List.getElem?_append_right (by omega)]
    congr 1
    omega
  unfold entropyByte
  simp only [shift]

/-- The bytes come back from their bits, whatever is behind them. -/
theorem map_entropyByte (entropy : Bytes) (rest : List Bool) :
    (List.range entropy.length).map (entropyByte (byteBits entropy ++ rest)) = entropy := by
  induction entropy with
  | nil => rfl
  | cons b entropy inductionHypothesis =>
      have shape : byteBits (b :: entropy) ++ rest = bits 8 b.toNat ++ (byteBits entropy ++ rest) := by
        rw [byteBits, List.flatMap_cons, List.append_assoc]
        rfl
      rw [shape, List.length_cons, List.range_succ_eq_map, List.map_cons, entropyByte_zero, List.map_map]
      congr 1
      apply Eq.trans _ inductionHypothesis
      apply List.map_congr_left
      intro i _
      exact entropyByte_succ (length_bits 8 b.toNat) _ i

/-- The entropy of a phrase is what it was made of. -/
theorem legacy2_groups (documented : platform.Documented) {entropy : Bytes} {parts : List (List Bool)}
    (sized : ∀ part ∈ parts, part.length = 11) (sizes : Sizes parts.length entropy.length)
    (joined : phraseBits platform entropy = parts.flatten) :
    legacy2 platform (parts.map (wordAt platform)) platform.bip39Words = .ok entropy := by
  have bits := sizes.bits
  have divider := sizes.divider
  have front : parts.length * 11 - parts.length * 11 / 33 = entropy.length * 8 := by omega
  have bytes : entropy.length * 8 / 8 = entropy.length := Nat.mul_div_cancel _ (by decide)
  have checked : ((List.range (parts.length * 11 / 33)).all fun i =>
      decide (parts.flatten[entropy.length * 8 + i]? = (byteBits (platform.sha256 entropy))[i]?)) = true := by
    rw [List.all_eq_true]
    intro i member
    have below := List.mem_range.mp member
    rw [divider] at below
    apply decide_eq_true
    have size := length_byteBits entropy
    rw [← joined, phraseBits, List.getElem?_append_right (by omega), size, Nat.add_sub_cancel_left, checksum,
      List.getElem?_take_of_lt below]
  unfold legacy2
  rw [concatBits_eq documented sized, List.length_map]
  change (if ((List.range (parts.length * 11 / 33)).all fun i =>
      decide (parts.flatten[parts.length * 11 - parts.length * 11 / 33 + i]? =
        (bytesToBits (platform.sha256 ((List.range ((parts.length * 11 - parts.length * 11 / 33) / 8)).map
          (entropyByte parts.flatten))))[i]?)) = true
    then Except.ok ((List.range ((parts.length * 11 - parts.length * 11 / 33) / 8)).map
      (entropyByte parts.flatten)) else Except.error "Checksum mismatch") = _
  have entropySame : (List.range ((parts.length * 11 - parts.length * 11 / 33) / 8)).map
      (entropyByte parts.flatten) = entropy := by
    rw [front, bytes, ← joined]
    exact map_entropyByte entropy _
  rw [entropySame, front, bytesToBits_eq, if_pos checked]

/-! ## Phrases -/

/-- A phrase of an entropy is accepted, and the entropy comes back from it. -/
theorem phrase_comesBack (documented : platform.Documented) {entropy : Bytes} {words : Nat}
    (needed : neededEntropy words = some entropy.length) :
    ∃ phrase, generate platform words (fun _ => entropy) = .ok phrase ∧ phrase.length = words ∧
      validate platform phrase = .ok phrase ∧ legacy2 platform phrase platform.bip39Words = .ok entropy := by
  have sizes := sizes_of_needed needed
  obtain ⟨parts, joined, length, sized⟩ := exists_phraseParts documented sizes
  rw [← length] at sizes
  refine ⟨parts.map (wordAt platform), ?_, ?_, ?_, ?_⟩
  · rw [generate, needed]
    exact congrArg Except.ok (wordsOf_eq sized joined)
  · rw [List.length_map, length]
  · exact (validate_groups documented sized sizes).mpr ⟨entropy, rfl, joined⟩
  · exact legacy2_groups documented sized sizes joined

/-- Words that are accepted are words of the list. -/
theorem known_of_validate {words : List String} (length : words.length = 12 ∨ words.length = 24)
    (accepted : validate platform words = .ok words) : ∀ word ∈ words, word ∈ platform.bip39Words := by
  by_contra unknown
  have some : 0 < (unknownWordIndices (fun word => decide (word ∈ platform.bip39Words)) words).length := by
    rw [List.length_pos_iff, Ne, unknownWordIndices_eq_nil]
    intro known
    exact unknown fun word member => of_decide_eq_true (known word member)
  unfold validate at accepted
  rw [if_neg (by omega), if_neg (not_not.mpr length)] at accepted
  simp only [some, if_true] at accepted
  cases accepted

/-- The accepted phrases are those of the entropies. -/
theorem validate_iff (documented : platform.Documented) {words : List String}
    (length : words.length = 12 ∨ words.length = 24) :
    validate platform words = .ok words ↔ ∃ entropy, IsPhraseOf platform entropy words := by
  obtain ⟨bytes, sizes⟩ := exists_sizes length
  constructor
  · intro accepted
    obtain ⟨parts, rfl, sized⟩ := exists_groups documented (known_of_validate length accepted)
    rw [List.length_map] at sizes
    obtain ⟨entropy, rfl, joined⟩ := (validate_groups documented sized sizes).mp accepted
    exact ⟨entropy, (isPhraseOf_iff documented sized sizes).mpr joined⟩
  · rintro ⟨entropy, needed, made⟩
    obtain ⟨phrase, made', -, accepted, -⟩ := phrase_comesBack documented needed
    cases made.symm.trans made'
    exact accepted

/-- What is generated is accepted and gives its entropy back, and nothing else is accepted. -/
theorem phrases_correspond (documented : platform.Documented) :
    (∀ entropy words, neededEntropy words = some entropy.length →
      ∃ phrase, generate platform words (fun _ => entropy) = .ok phrase ∧ phrase.length = words ∧
        validate platform phrase = .ok phrase ∧ legacy2 platform phrase platform.bip39Words = .ok entropy) ∧
    ∀ words : List String, words.length = 12 ∨ words.length = 24 →
      (validate platform words = .ok words ↔ ∃ entropy, IsPhraseOf platform entropy words) :=
  ⟨fun _ _ => phrase_comesBack documented, fun _ => validate_iff documented⟩

section Samples

/-- The numbers up to 2047 for words, and digests of zeros. -/
def samplePlatform : MnemonicPlatform where
  bip39Words := (List.range 2048).map toString
  legacyWords := []
  toLowerCase := id
  sha256 _ := List.replicate 32 0

theorem samplePlatform_documented : samplePlatform.Documented where
  length := by simp [samplePlatform]
  nodup := by
    apply List.Nodup.map _ List.nodup_range
    intro m n same
    have texts : Text.decimal m = Text.decimal n := congrArg String.toList same
    exact Nat.cast_inj.mp (Text.decimal_injective texts)
  lower _ _ := rfl
  digest _ := List.length_replicate

theorem zeros_come_back :
    ∃ phrase, generate samplePlatform 12 (fun _ => List.replicate 16 0) = .ok phrase ∧ phrase.length = 12 ∧
      validate samplePlatform phrase = .ok phrase ∧
        legacy2 samplePlatform phrase samplePlatform.bip39Words = .ok (List.replicate 16 0) :=
  (phrases_correspond samplePlatform_documented).1 (List.replicate 16 0) 12 rfl

end Samples

end Mnemonic

end HederaSdk
