import HederaSdk.Cryptography.Mnemonic
import HederaSdk.Library.BigEndian
import Mathlib.Data.Nat.Digits.Lemmas

/-!
# The old phrases

Twenty-two words of a list of 4096 are the digits of a number of 33 bytes: the entropy, masked by its
checksum, and the checksum behind it. The checksum is a CRC of the entropy without its last byte, so
two entropies that differ in one byte have one checksum only when it is the last.
-/

namespace HederaSdk

open Library

/-- The words of the old list are different, and lower case. -/
structure MnemonicPlatform.LegacyDocumented (platform : MnemonicPlatform) : Prop where
  length : platform.legacyWords.length = 4096
  nodup : platform.legacyWords.Nodup
  lower : ∀ word ∈ platform.legacyWords, platform.toLowerCase word = word

namespace Mnemonic

/-! ## Digits -/

section Digits

/-- The number that digits of radix 4096 stand for, the most significant first. -/
def legacyNumber (indices : List Nat) : Nat := Nat.ofDigits 4096 indices.reverse

theorem legacyNumber_eq_foldl (indices : List Nat) :
    legacyNumber indices = indices.foldl (fun num element => num * 4096 + element) 0 := by
  rw [legacyNumber, Nat.ofDigits_eq_foldr, List.foldr_reverse]
  apply List.foldl_ext
  intro num element _
  rw [Nat.cast_id, Nat.add_comm, Nat.mul_comm]

theorem legacyNumber_lt {indices : List Nat} (length : indices.length = 22) (small : ∀ n ∈ indices, n < 4096) :
    legacyNumber indices < 256 ^ 33 := by
  have bound := Nat.ofDigits_lt_base_pow_length (b := 4096) (l := indices.reverse) (by decide)
    fun n member => small n (List.mem_reverse.mp member)
  rw [List.length_reverse, length] at bound
  exact bound

theorem legacyNumber_injective {indices indices' : List Nat} (length : indices.length = indices'.length)
    (small : ∀ n ∈ indices, n < 4096) (small' : ∀ n ∈ indices', n < 4096)
    (same : legacyNumber indices = legacyNumber indices') : indices = indices' := by
  apply List.reverse_injective
  apply Nat.ofDigits_inj_of_len_eq (b := 4096) (by decide)
  · rw [List.length_reverse, List.length_reverse, length]
  · exact fun n member => small n (List.mem_reverse.mp member)
  · exact fun n member => small' n (List.mem_reverse.mp member)
  · exact same

theorem radixDigits_natCast (toLength n : Nat) : radixDigits 256 toLength n = BigEndian.encode toLength n := by
  induction toLength generalizing n with
  | zero => rfl
  | succ toLength inductionHypothesis =>
      have quotient : (n : Int).tdiv 256 = (n / 256 : Nat) := rfl
      have remainder : UInt8.ofInt ((n : Int).tmod 256) = UInt8.ofNat n := by
        change UInt8.ofInt ((n % 256 : Nat) : Int) = _
        apply UInt8.toNat_inj.mp
        rw [UInt8.ofInt, UInt8.toNat_ofNat', UInt8.toNat_ofNat']
        omega
      rw [radixDigits, quotient, inductionHypothesis, remainder]
      rfl

theorem convertRadix_eq (indices : List Nat) :
    convertRadix (indices.map Nat.cast) 4096 256 33 = BigEndian.encode 33 (legacyNumber indices) := by
  have number : (indices.map Nat.cast).foldl (fun num element : Int => num * 4096 + element) 0 =
      (legacyNumber indices : Int) := by
    rw [legacyNumber_eq_foldl, List.foldl_map]
    exact List.foldl_hom Nat.cast (fun num element => by push_cast; rfl)
  rw [convertRadix, number, radixDigits_natCast]

/-- No digit is lost. -/
theorem value_convertRadix {indices : List Nat} (length : indices.length = 22) (small : ∀ n ∈ indices, n < 4096) :
    BigEndian.value (convertRadix (indices.map Nat.cast) 4096 256 33) = legacyNumber indices := by
  rw [convertRadix_eq]
  exact BigEndian.value_encode_of_lt (legacyNumber_lt length small)

end Digits

/-! ## Words -/

section Words

variable {platform : MnemonicPlatform}

def legacyIndices (platform : MnemonicPlatform) (words : List String) : List Nat :=
  words.map fun word => platform.legacyWords.idxOf (platform.toLowerCase word)

/-- The words are those of the list, in upper or lower case. -/
def LegacyKnown (platform : MnemonicPlatform) (words : List String) : Prop :=
  ∀ word ∈ words, platform.toLowerCase word ∈ platform.legacyWords

/-- The digits that the words name are those of the masked entropy and the checksum behind it. -/
structure LegacyEncodes (platform : MnemonicPlatform) (words : List String) (entropy : Bytes) (checksum : UInt8) :
    Prop where
  phrase : words.length = 22
  bytes : entropy.length = 32
  number : legacyNumber (legacyIndices platform words) =
    BigEndian.value (entropy.map (· ^^^ checksum) ++ [checksum])

theorem legacyIndices_lt (documented : platform.LegacyDocumented) {words : List String}
    (known : LegacyKnown platform words) : ∀ n ∈ legacyIndices platform words, n < 4096 := by
  intro n member
  obtain ⟨word, inWords, rfl⟩ := List.mem_map.mp member
  rw [← documented.length]
  exact List.idxOf_lt_length_iff.mpr (known word inWords)

theorem length_convertRadix (nums : List Int) (fromRadix : Int) (toLength : Nat) :
    (convertRadix nums fromRadix 256 toLength).length = toLength := by
  have digits (num : Int) : (radixDigits 256 toLength num).length = toLength := by
    induction toLength generalizing num with
    | zero => rfl
    | succ toLength inductionHypothesis =>
        rw [radixDigits, List.length_append, inductionHypothesis, List.length_singleton]
  exact digits _

/-- Masking twice changes nothing. -/
theorem mask_mask (data : Bytes) (checksum : UInt8) : (data.map (· ^^^ checksum)).map (· ^^^ checksum) = data := by
  rw [List.map_map]
  apply (List.map_congr_left fun b _ => ?_).trans (List.map_id data)
  change b ^^^ checksum ^^^ checksum = b
  rw [UInt8.xor_assoc, UInt8.xor_self, UInt8.xor_zero]

/-- The bytes of a phrase: the masked entropy and the checksum. -/
theorem legacy1_bytes (words wordlist : List String) :
    ((legacy1 platform words wordlist).1.map (· ^^^ (legacy1 platform words wordlist).2)) ++
      [(legacy1 platform words wordlist).2] =
        convertRadix (words.map fun word => indexOf wordlist (platform.toLowerCase word)) wordlist.length 256 33 := by
  have length := length_convertRadix (words.map fun word => indexOf wordlist (platform.toLowerCase word))
    wordlist.length 33
  rw [legacy1]
  generalize convertRadix (words.map fun word => indexOf wordlist (platform.toLowerCase word)) wordlist.length 256 33 =
    data at length
  rcases data.eq_nil_or_concat with rfl | ⟨front, last, rfl⟩
  · cases length
  · rw [List.concat_eq_append]
    simp only [List.dropLast_concat, mask_mask, List.getLastD_concat]

theorem length_legacy1 (words wordlist : List String) : (legacy1 platform words wordlist).1.length = 32 := by
  have bytes := congrArg List.length (@legacy1_bytes platform words wordlist)
  rw [length_convertRadix, List.length_append, List.length_map, List.length_singleton] at bytes
  omega

/-- What is decoded is what the words encode. -/
theorem legacy1_iff (documented : platform.LegacyDocumented) {words : List String} (length : words.length = 22)
    (known : LegacyKnown platform words) (entropy : Bytes) (checksum : UInt8) :
    legacy1 platform words platform.legacyWords = (entropy, checksum) ↔
      LegacyEncodes platform words entropy checksum := by
  have small := legacyIndices_lt documented known
  have size : (legacyIndices platform words).length = 22 := by rw [legacyIndices, List.length_map, length]
  have indices : (words.map fun word => indexOf platform.legacyWords (platform.toLowerCase word)) =
      (legacyIndices platform words).map Nat.cast := by
    rw [legacyIndices, List.map_map]
    exact List.map_congr_left fun word member => if_pos (known word member)
  have radix : (platform.legacyWords.length : Int) = 4096 := by rw [documented.length]; rfl
  have bytes := @legacy1_bytes platform words platform.legacyWords
  have number := value_convertRadix size small
  rw [indices, radix] at bytes
  rw [← bytes] at number
  constructor
  · intro decoded
    rw [decoded] at number
    have long := @length_legacy1 platform words platform.legacyWords
    rw [decoded] at long
    exact ⟨length, long, number.symm⟩
  · rintro ⟨-, long, same⟩
    have own := @length_legacy1 platform words platform.legacyWords
    generalize legacy1 platform words platform.legacyWords = decoded at number own
    obtain ⟨entropy', checksum'⟩ := decoded
    change BigEndian.value (entropy'.map (· ^^^ checksum') ++ [checksum']) = _ at number
    change entropy'.length = 32 at own
    have equal := BigEndian.value_injective (by
      simp only [List.length_append, List.length_map, List.length_singleton]
      omega) (number.trans same)
    obtain ⟨masked, last⟩ := List.append_inj' equal rfl
    obtain ⟨rfl, -⟩ := List.cons.inj last
    have entropies := congrArg (List.map (· ^^^ checksum')) masked
    rw [mask_mask, mask_mask] at entropies
    rw [entropies]

/-- Every entropy with its checksum has a phrase. -/
theorem exists_legacyEncodes (documented : platform.LegacyDocumented) {entropy : Bytes} (length : entropy.length = 32)
    (checksum : UInt8) :
    ∃ words : List String, (∀ word ∈ words, word ∈ platform.legacyWords) ∧
      LegacyEncodes platform words entropy checksum := by
  have small : BigEndian.value (entropy.map (· ^^^ checksum) ++ [checksum]) < 4096 ^ 22 := by
    have bound := BigEndian.value_lt (entropy.map (· ^^^ checksum) ++ [checksum])
    rw [List.length_append, List.length_map, length] at bound
    exact bound
  generalize whole : BigEndian.value (entropy.map (· ^^^ checksum) ++ [checksum]) = n at small
  have digits := Nat.length_digitsAppend (by decide) 22 small
  have below : ∀ i ∈ Nat.digitsAppend 4096 22 n, i < platform.legacyWords.length := by
    intro i member
    rw [documented.length]
    exact Nat.lt_of_mem_digitsAppend (by decide) 22 i member
  have word (i : Nat) (bound : i < platform.legacyWords.length) :
      platform.legacyWords.getD i "" = platform.legacyWords[i] :=
    List.getD_eq_getElem _ _ bound
  refine ⟨(Nat.digitsAppend 4096 22 n).reverse.map fun i => platform.legacyWords.getD i "", ?_, ?_, length, ?_⟩
  · intro text member
    obtain ⟨i, inDigits, rfl⟩ := List.mem_map.mp member
    rw [word i (below i (List.mem_reverse.mp inDigits))]
    exact List.getElem_mem _
  · rw [List.length_map, List.length_reverse, digits]
  · have indices : legacyIndices platform
        ((Nat.digitsAppend 4096 22 n).reverse.map fun i => platform.legacyWords.getD i "") =
          (Nat.digitsAppend 4096 22 n).reverse := by
      rw [legacyIndices, List.map_map]
      apply (List.map_congr_left fun i inDigits => ?_).trans (List.map_id _)
      have member := List.mem_reverse.mp inDigits
      change platform.legacyWords.idxOf (platform.toLowerCase (platform.legacyWords.getD i "")) = i
      rw [word i (below i member), documented.lower _ (List.getElem_mem _), documented.nodup.idxOf_getElem]
    have number : Nat.ofDigits 4096 (Nat.digitsAppend 4096 22 n) = n :=
      (Nat.setInvOn_digitsAppend_ofDigits (by decide) 22).2 small
    rw [indices, legacyNumber, List.reverse_reverse, number, whole]

/-- The digits keep the number, no two phrases have the same bytes, and decoding gives the entropy and
the checksum that a phrase encodes. -/
theorem legacy_digits_kept (documented : platform.LegacyDocumented) :
    (∀ indices : List Nat, indices.length = 22 → (∀ n ∈ indices, n < 4096) →
      (convertRadix (indices.map Nat.cast) 4096 256 33).length = 33 ∧
        BigEndian.value (convertRadix (indices.map Nat.cast) 4096 256 33) = legacyNumber indices) ∧
    (∀ indices indices' : List Nat, indices.length = 22 → indices'.length = 22 → (∀ n ∈ indices, n < 4096) →
      (∀ n ∈ indices', n < 4096) →
        convertRadix (indices.map Nat.cast) 4096 256 33 = convertRadix (indices'.map Nat.cast) 4096 256 33 →
          indices = indices') ∧
    (∀ words : List String, words.length = 22 → LegacyKnown platform words → ∀ entropy checksum,
      legacy1 platform words platform.legacyWords = (entropy, checksum) ↔
        LegacyEncodes platform words entropy checksum) ∧
    ∀ entropy : Bytes, entropy.length = 32 → ∀ checksum, ∃ words : List String,
      (∀ word ∈ words, word ∈ platform.legacyWords) ∧ LegacyEncodes platform words entropy checksum := by
  refine ⟨?_, ?_, ?_, ?_⟩
  · intro indices length small
    exact ⟨length_convertRadix _ _ _, value_convertRadix length small⟩
  · intro indices indices' length length' small small' same
    apply legacyNumber_injective (length.trans length'.symm) small small'
    rw [← value_convertRadix length small, same, value_convertRadix length' small']
  · intro words length known entropy checksum
    exact legacy1_iff documented length known entropy checksum
  · intro entropy length checksum
    exact exists_legacyEncodes documented length checksum

end Words

/-! ## The checksum -/

/-- One bit of the checksum. -/
def crcBit (crc : UInt8) : UInt8 := (crc >>> 1) ^^^ (if crc &&& 1 = 0 then 0 else 0xb2)

def crcByte (crc : UInt8) : UInt8 := crcBit (crcBit (crcBit (crcBit (crcBit (crcBit (crcBit (crcBit crc)))))))

theorem crc8_eq (data : Bytes) : crc8 data = data.dropLast.foldl (fun crc b => crcByte (crc ^^^ b)) 0xff ^^^ 0xff := rfl

/-- The polynomial has the highest bit, which tells what the lowest one was. -/
theorem crcBit_injective : Function.Injective crcBit := by
  let before (crc : UInt8) : UInt8 := if crc < 0x80 then crc <<< 1 else ((crc ^^^ 0xb2) <<< 1) ||| 1
  have all : ∀ n : Fin 256, before (crcBit (.ofFin n)) = .ofFin n := by decide +kernel
  exact Function.LeftInverse.injective fun crc => all crc.toFin

theorem crcByte_injective : Function.Injective crcByte := by
  intro a b same
  unfold crcByte at same
  simpa only [crcBit_injective.eq_iff] using same

theorem xor_left_cancel {a b c : UInt8} : a ^^^ b = a ^^^ c ↔ b = c := by
  constructor
  · intro same
    have again := congrArg (a ^^^ ·) same
    simpa only [← UInt8.xor_assoc, UInt8.xor_self, UInt8.zero_xor] using again
  · exact congrArg (a ^^^ ·)

/-- What is different before the bytes is different behind them. -/
theorem foldl_crcByte_injective (data : Bytes) :
    Function.Injective fun crc => data.foldl (fun crc b => crcByte (crc ^^^ b)) crc := by
  induction data with
  | nil => exact fun _ _ same => same
  | cons b rest inductionHypothesis =>
      intro crc crc' same
      have bytes := crcByte_injective (inductionHypothesis same)
      rw [UInt8.xor_comm crc, UInt8.xor_comm crc'] at bytes
      exact xor_left_cancel.mp bytes

theorem foldl_crcByte_set_iff (data : Bytes) (crc : UInt8) {p : Nat} (inside : p < data.length) (b : UInt8) :
    (data.set p b).foldl (fun crc b => crcByte (crc ^^^ b)) crc = data.foldl (fun crc b => crcByte (crc ^^^ b)) crc ↔
      b = data[p] := by
  induction data generalizing crc p with
  | nil => exact absurd inside (Nat.not_lt_zero p)
  | cons a rest inductionHypothesis =>
      cases p with
      | zero =>
          rw [List.set_cons_zero, List.foldl_cons, List.foldl_cons, (foldl_crcByte_injective rest).eq_iff,
            crcByte_injective.eq_iff, xor_left_cancel]
          rfl
      | succ p =>
          rw [List.set_cons_succ, List.foldl_cons, List.foldl_cons, inductionHypothesis]
          rfl

/-- Another byte changes the checksum unless it is the last. -/
theorem crc8_set_iff (data : Bytes) {p : Nat} (inside : p < data.length) {b : UInt8} (other : b ≠ data[p]) :
    crc8 (data.set p b) = crc8 data ↔ p + 1 = data.length := by
  rw [crc8_eq, crc8_eq, UInt8.xor_comm _ 0xff, UInt8.xor_comm _ 0xff, xor_left_cancel, List.dropLast_eq_take,
    List.dropLast_eq_take, List.length_set, List.take_set]
  by_cases last : p + 1 = data.length
  · rw [List.set_eq_of_length_le (by rw [List.length_take]; omega)]
    exact iff_of_true rfl last
  · have front : p < (data.take (data.length - 1)).length := by
      rw [List.length_take]
      omega
    rw [foldl_crcByte_set_iff _ _ front, List.getElem_take]
    exact iff_of_false other last

section Checksum

variable {platform : MnemonicPlatform} {words words' : List String}

/-- The entropies differ in the byte at a place, and nowhere else. -/
structure DiffersAt (p : Nat) (entropy entropy' : Bytes) : Prop where
  here : entropy'[p]? ≠ entropy[p]?
  elsewhere : ∀ i, i ≠ p → entropy'[i]? = entropy[i]?

theorem DiffersAt.set {p : Nat} {entropy entropy' : Bytes} (differs : DiffersAt p entropy entropy')
    (length : entropy'.length = entropy.length) :
    ∃ (inside : p < entropy.length) (b : UInt8), b ≠ entropy[p] ∧ entropy' = entropy.set p b := by
  obtain ⟨here, elsewhere⟩ := differs
  have inside : p < entropy.length := by
    by_contra outside
    exact here (by rw [List.getElem?_eq_none (by omega), List.getElem?_eq_none (by omega)])
  have inside' : p < entropy'.length := by omega
  rw [List.getElem?_eq_getElem inside, List.getElem?_eq_getElem inside'] at here
  refine ⟨inside, entropy'[p], fun same => here (congrArg some same), ?_⟩
  apply List.ext_getElem?
  intro i
  by_cases same : i = p
  · subst same
    rw [List.getElem?_set_self inside, List.getElem?_eq_getElem inside']
  · rw [List.getElem?_set_ne (Ne.symm same), elsewhere i same]

/-- Twenty-two words are accepted when they are known and the checksum is that of the entropy. -/
theorem validate_legacy_iff (length : words.length = 22) :
    validate platform words = .ok words ↔ LegacyKnown platform words ∧
      (legacy1 platform words platform.legacyWords).2 = crc8 (legacy1 platform words platform.legacyWords).1 := by
  have known : 0 < (unknownWordIndices (fun word => decide (platform.toLowerCase word ∈ platform.legacyWords))
      words).length ↔ ¬ LegacyKnown platform words := by
    rw [List.length_pos_iff, not_iff_not, unknownWordIndices_eq_nil]
    simp only [decide_eq_true_eq, LegacyKnown]
  unfold validate
  rw [if_pos length]
  by_cases unknown : LegacyKnown platform words
  · simp only [known, not_not.mpr unknown, if_false]
    by_cases same : (legacy1 platform words platform.legacyWords).2 =
        crc8 (legacy1 platform words platform.legacyWords).1
    · rw [if_neg (not_not.mpr same)]
      exact iff_of_true rfl ⟨unknown, same⟩
    · rw [if_pos same]
      exact iff_of_false (fun accepted => by cases accepted) fun holds => same holds.2
  · simp only [known, unknown, not_false_eq_true, if_true]
    exact iff_of_false (fun accepted => by cases accepted) And.left

/-- Of the phrases with the checksum of an accepted one and an entropy that differs in one byte, those
of known words that differ in the last byte are accepted, and no other. -/
theorem legacy_change_accepted_iff (length : words.length = 22) (accepted : validate platform words = .ok words)
    (length' : words'.length = 22)
    (checksum : (legacy1 platform words' platform.legacyWords).2 = (legacy1 platform words platform.legacyWords).2)
    {p : Nat} (differs : DiffersAt p (legacy1 platform words platform.legacyWords).1
      (legacy1 platform words' platform.legacyWords).1) :
    validate platform words' = .ok words' ↔ LegacyKnown platform words' ∧ p = 31 := by
  have sizes := @length_legacy1 platform words platform.legacyWords
  obtain ⟨inside, b, other, entropy⟩ := differs.set (by rw [length_legacy1, length_legacy1])
  rw [validate_legacy_iff length] at accepted
  rw [validate_legacy_iff length', checksum, accepted.2, entropy, eq_comm (b := crc8 _), crc8_set_iff _ inside other,
    sizes]
  apply and_congr_right
  intro _
  omega

end Checksum

section Samples

def countedWords (size : Nat) : List String := (List.range size).map toString

theorem mem_countedWords {size n : Nat} (small : n < size) : toString n ∈ countedWords size :=
  List.mem_map_of_mem (List.mem_range.mpr small)

theorem nodup_countedWords (size : Nat) : (countedWords size).Nodup := by
  apply List.Nodup.map _ List.nodup_range
  intro m n same
  have texts : Text.decimal m = Text.decimal n := congrArg String.toList same
  exact Nat.cast_inj.mp (Text.decimal_injective texts)

theorem length_countedWords (size : Nat) : (countedWords size).length = size := by
  rw [countedWords, List.length_map, List.length_range]

theorem idxOf_countedWords {size n : Nat} (small : n < size) : (countedWords size).idxOf (toString n) = n := by
  have inside : n < (countedWords size).length := by
    rw [length_countedWords]
    exact small
  have word : (countedWords size)[n] = toString n := by simp [countedWords]
  rw [← word, (nodup_countedWords size).idxOf_getElem]

/-- The numbers up to 4095 for words. -/
def sampleLegacyPlatform : MnemonicPlatform where
  bip39Words := []
  legacyWords := countedWords 4096
  toLowerCase := id
  sha256 _ := List.replicate 32 0

theorem legacyWords_sample : sampleLegacyPlatform.legacyWords = countedWords 4096 := by
  rw [sampleLegacyPlatform]

theorem sampleLegacyPlatform_documented : sampleLegacyPlatform.LegacyDocumented where
  length := by rw [legacyWords_sample, length_countedWords]
  nodup := by
    rw [legacyWords_sample]
    apply nodup_countedWords
  lower _ _ := rfl

/-- The words of an entropy of zeros. -/
def zeroNumbers : List Nat := (List.replicate 11 [3373, 722]).flatten

/-- The words of zeros and a byte of 1 behind them. -/
def zerosAndOneNumbers : List Nat := zeroNumbers.dropLast ++ [978]

theorem known_sample {numbers : List Nat} (small : ∀ n ∈ numbers, n < 4096) :
    LegacyKnown sampleLegacyPlatform (numbers.map toString) := by
  intro word member
  obtain ⟨n, inside, rfl⟩ := List.mem_map.mp member
  rw [legacyWords_sample]
  apply mem_countedWords
  exact small n inside

theorem indices_sample {numbers : List Nat} (small : ∀ n ∈ numbers, n < 4096) :
    legacyIndices sampleLegacyPlatform (numbers.map toString) = numbers := by
  rw [legacyIndices, List.map_map, legacyWords_sample]
  apply (List.map_congr_left fun n member => ?_).trans (List.map_id numbers)
  apply idxOf_countedWords
  exact small n member

theorem legacy1_sample {numbers : List Nat} (length : numbers.length = 22) (small : ∀ n ∈ numbers, n < 4096)
    {entropy : Bytes} {checksum : UInt8} (long : entropy.length = 32)
    (number : legacyNumber numbers = BigEndian.value (entropy.map (· ^^^ checksum) ++ [checksum])) :
    legacy1 sampleLegacyPlatform (numbers.map toString) sampleLegacyPlatform.legacyWords = (entropy, checksum) := by
  apply (legacy1_iff sampleLegacyPlatform_documented (by rw [List.length_map, length]) (known_sample small) _ _).mpr
  exact ⟨by rw [List.length_map, length], long, by rw [indices_sample small, number]⟩

theorem zeros_decoded :
    legacy1 sampleLegacyPlatform (zeroNumbers.map toString) sampleLegacyPlatform.legacyWords =
      (List.replicate 32 0, 210) :=
  legacy1_sample (by decide) (by decide) (by decide) (by decide +kernel)

theorem zerosAndOne_decoded :
    legacy1 sampleLegacyPlatform (zerosAndOneNumbers.map toString) sampleLegacyPlatform.legacyWords =
      (List.replicate 31 0 ++ [1], 210) :=
  legacy1_sample (by decide) (by decide) (by decide) (by decide +kernel)

theorem zeros_accepted : validate sampleLegacyPlatform (zeroNumbers.map toString) = .ok (zeroNumbers.map toString) := by
  rw [validate_legacy_iff (by decide), zeros_decoded]
  exact ⟨known_sample (by decide), by decide +kernel⟩

theorem differsAt_last : DiffersAt 31 (List.replicate 32 0) (List.replicate 31 0 ++ [1]) where
  here := by decide
  elsewhere i other := by
    by_cases inside : i < 31
    · rw [List.getElem?_append_left (by rw [List.length_replicate]; exact inside)]
      rw [List.getElem?_replicate, List.getElem?_replicate, if_pos inside, if_pos (by omega)]
    · have outside : 32 ≤ i := by omega
      rw [List.getElem?_eq_none, List.getElem?_eq_none] <;> simpa using outside

theorem zeros_digits_kept : sampleLegacyPlatform.LegacyDocumented ∧
    BigEndian.value (convertRadix (zeroNumbers.map Nat.cast) 4096 256 33) = legacyNumber zeroNumbers :=
  ⟨sampleLegacyPlatform_documented,
    ((legacy_digits_kept sampleLegacyPlatform_documented).1 zeroNumbers (by decide) (by decide)).2⟩

theorem zerosAndOne_accepted :
    validate sampleLegacyPlatform (zerosAndOneNumbers.map toString) = .ok (zerosAndOneNumbers.map toString) :=
  (legacy_change_accepted_iff (by decide) zeros_accepted (by decide) (by rw [zeros_decoded, zerosAndOne_decoded])
    (by rw [zeros_decoded, zerosAndOne_decoded]; exact differsAt_last)).mpr ⟨known_sample (by decide), rfl⟩

/-- A phrase with the checksum of an accepted one and another last byte is accepted too. -/
theorem last_byte_unprotected :
    ¬ ∀ (platform : MnemonicPlatform) (words words' : List String), platform.LegacyDocumented → words.length = 22 →
      words'.length = 22 → validate platform words = .ok words →
        (legacy1 platform words' platform.legacyWords).2 = (legacy1 platform words platform.legacyWords).2 →
          ∀ p, DiffersAt p (legacy1 platform words platform.legacyWords).1
            (legacy1 platform words' platform.legacyWords).1 → validate platform words' ≠ .ok words' := by
  intro protected_
  apply protected_ sampleLegacyPlatform (zeroNumbers.map toString) (zerosAndOneNumbers.map toString)
    sampleLegacyPlatform_documented (by decide) (by decide) zeros_accepted (by rw [zeros_decoded, zerosAndOne_decoded])
    31 (by rw [zeros_decoded, zerosAndOne_decoded]; exact differsAt_last)
  rw [validate_legacy_iff (by decide), zerosAndOne_decoded]
  exact ⟨known_sample (by decide), by decide +kernel⟩

end Samples

end Mnemonic

end HederaSdk
