import HederaSdk.Js.Value
import HederaSdk.Keys
import HederaSdk.Library.BitGroups

/-!
# Mnemonics

The words of an entropy name its bits in groups of eleven, with bits of its digest behind them. A
phrase of 12 or 24 words is accepted when the bits behind are those of the digest, and then it is
the phrase of the entropy that its other bits are.
-/

namespace HederaSdk

open Library Library.BitGroups

/-- The lists of words, and the functions of the platform that phrases are made with. -/
structure MnemonicPlatform where
  bip39Words : List String
  legacyWords : List String
  toLowerCase : String → String
  /-- `sha256.digest` -/
  sha256 : Bytes → Bytes

/-- The words of the list are different, and lower case; a digest has 32 bytes. -/
structure MnemonicPlatform.Documented (platform : MnemonicPlatform) : Prop where
  length : platform.bip39Words.length = 2048
  nodup : platform.bip39Words.Nodup
  lower : ∀ word ∈ platform.bip39Words, platform.toLowerCase word = word
  digest : ∀ data, (platform.sha256 data).length = 32

inductive BadMnemonicReason where
  | badLength
  | unknownWords
  | checksumMismatch
  deriving DecidableEq

structure BadMnemonicError where
  words : List String
  reason : BadMnemonicReason
  unknownWordIndices : List Nat
  deriving DecidableEq

namespace Mnemonic

def indexOf (list : List String) (word : String) : Int := if word ∈ list then list.idxOf word else -1

/-- `toString(2)` -/
def binaryText (n : Int) : List Char := if n < 0 then '-' :: Nat.toDigits 2 n.natAbs else Nat.toDigits 2 n.toNat

def binaryToByte (bin : List Char) : Nat := Nat.ofDigitChars 2 bin 0

def bytesToBinary (bytes : Bytes) : List Char := bytes.flatMap fun x => Text.padded 8 (binaryText x.toNat)

/-! ## The old phrases -/

/-- The digits of a number, the last one first taken. -/
def radixDigits (toRadix : Int) : Nat → Int → Bytes
  | 0, _ => []
  | toLength + 1, num => radixDigits toRadix toLength (num.tdiv toRadix) ++ [UInt8.ofInt (num.tmod toRadix)]

def convertRadix (nums : List Int) (fromRadix toRadix : Int) (toLength : Nat) : Bytes :=
  radixDigits toRadix toLength (nums.foldl (fun num element => num * fromRadix + element) 0)

def crc8 (data : Bytes) : UInt8 :=
  let step (crc : UInt8) : UInt8 := (crc >>> 1) ^^^ (if crc &&& 1 = 0 then 0 else 0xb2)
  data.dropLast.foldl (fun crc b => step (step (step (step (step (step (step (step (crc ^^^ b))))))))) 0xff ^^^ 0xff

section

variable (platform : MnemonicPlatform)

def legacy1 (words wordlist : List String) : Bytes × UInt8 :=
  let indices := words.map fun word => indexOf wordlist (platform.toLowerCase word)
  let data := convertRadix indices wordlist.length 256 33
  let checksum := data.getLastD 0
  (data.dropLast.map (· ^^^ checksum), checksum)

/-! ## Generating -/

def deriveChecksumBits (entropyBuffer : Bytes) : List Char :=
  (bytesToBinary (platform.sha256 entropyBuffer)).take (entropyBuffer.length * 8 / 32)

/-- The words of a seed, in groups of eleven bits. -/
def wordsOf (seed : Bytes) : List String :=
  (groups 11 (bytesToBinary seed ++ deriveChecksumBits platform seed)).map fun binary =>
    platform.bip39Words.getD (binaryToByte binary) "undefined"

def neededEntropy (length : Nat) : Option Nat :=
  if length = 12 then some 16 else if length = 24 then some 32 else none

/-- `_generate`, with the random bytes by their number. -/
def generate (length : Nat) (bytes : Nat → Bytes) : Except String (List String) :=
  match neededEntropy length with
  | none => .error s!"unsupported phrase length {length}, only 12 or 24 are supported"
  | some needed => .ok (wordsOf platform (bytes needed))

/-! ## Validating -/

def unknownWordIndices (known : String → Bool) (words : List String) : List Nat :=
  words.zipIdx.foldl (fun unknowns word => if known word.1 then unknowns else unknowns ++ [word.2]) []

/-- `_validate` -/
def validate (words : List String) : Except BadMnemonicError (List String) :=
  if words.length = 22 then
    let unknowns := unknownWordIndices (fun word => decide (platform.toLowerCase word ∈ platform.legacyWords)) words
    if 0 < unknowns.length then .error ⟨words, .unknownWords, unknowns⟩
    else
      let (seed, checksum) := legacy1 platform words platform.legacyWords
      if checksum ≠ crc8 seed then .error ⟨words, .checksumMismatch, []⟩ else .ok words
  else if ¬ (words.length = 12 ∨ words.length = 24) then .error ⟨words, .badLength, []⟩
  else
    let unknowns := unknownWordIndices (fun word => decide (word ∈ platform.bip39Words)) words
    if 0 < unknowns.length then .error ⟨words, .unknownWords, unknowns⟩
    else
      let bits := words.flatMap fun word => Text.padded 11 (binaryText (indexOf platform.bip39Words word))
      let dividerIndex := bits.length / 33 * 32
      let entropyBits := bits.take dividerIndex
      let checksumBits := bits.drop dividerIndex
      let entropyBytes := (groups 8 entropyBits).map fun bin => UInt8.ofNat (binaryToByte bin)
      if deriveChecksumBits platform entropyBytes ≠ checksumBits then .error ⟨words, .checksumMismatch, []⟩
      else .ok words

/-! ## The entropy of a phrase -/

def bytesToBits (data : Bytes) : List Bool :=
  data.flatMap fun b => (List.range 8).map fun j => decide (b.toNat &&& (1 <<< (7 - j)) ≠ 0)

def wordBits (index : Nat) : List Bool := (List.range 11).map fun i => decide (index &&& (1 <<< (10 - i)) ≠ 0)

/-- The bits of the words, up to one that is not in the list. -/
def concatBits (wordlist : List String) : List String → Except String (List Bool)
  | [] => .ok []
  | word :: words =>
      let index := indexOf wordlist (platform.toLowerCase word)
      if index < 0 then .error s!"Word not found in wordlist: {word}"
      else (concatBits wordlist words).map fun rest => wordBits index.toNat ++ rest

def entropyByte (bits : List Bool) (i : Nat) : UInt8 :=
  .ofNat ((List.range 8).foldl
    (fun entropy j => if bits[i * 8 + j]? = some true then entropy ||| 1 <<< (7 - j) else entropy) 0)

/-- `entropy.legacy2`, of a number of words that three divides. -/
def legacy2 (words wordlist : List String) : Except String Bytes := do
  let concatBitsLen := words.length * 11
  let bits ← concatBits platform wordlist words
  let checksumBitsLen := concatBitsLen / 33
  let entropyBitsLen := concatBitsLen - checksumBitsLen
  let entropy := (List.range (entropyBitsLen / 8)).map (entropyByte bits)
  let hashBits := bytesToBits (platform.sha256 entropy)
  if (List.range checksumBitsLen).all fun i => bits[entropyBitsLen + i]? = hashBits[i]? then .ok entropy
  else .error "Checksum mismatch"

/-- The phrase that is generated from an entropy. -/
def IsPhraseOf (entropy : Bytes) (words : List String) : Prop :=
  neededEntropy words.length = some entropy.length ∧ generate platform words.length (fun _ => entropy) = .ok words

end

/-! ## Texts of bits -/

variable {platform : MnemonicPlatform}

/-- The bits of bytes. -/
def byteBits (data : Bytes) : List Bool := data.flatMap fun b => bits 8 b.toNat

theorem length_byteBits (data : Bytes) : (byteBits data).length = data.length * 8 := by
  induction data with
  | nil => rfl
  | cons b data inductionHypothesis =>
      rw [byteBits] at inductionHypothesis ⊢
      rw [List.flatMap_cons, List.length_append, inductionHypothesis, length_bits, List.length_cons]
      omega

theorem binaryText_natCast (n : Nat) : binaryText n = Nat.toDigits 2 n := by
  rw [binaryText, if_neg (by omega), Int.toNat_natCast]

theorem bytesToBinary_eq (data : Bytes) : bytesToBinary data = (byteBits data).map digit := by
  have each (b : UInt8) : Text.padded 8 (binaryText b.toNat) = (bits 8 b.toNat).map digit := by
    rw [binaryText_natCast]
    exact padded_toDigits b.toNat_lt
  rw [bytesToBinary, byteBits, List.map_flatMap]
  simp only [each]

/-- The bits of the digest that are behind those of the entropy. -/
def checksum (platform : MnemonicPlatform) (entropy : Bytes) : List Bool :=
  (byteBits (platform.sha256 entropy)).take (entropy.length * 8 / 32)

theorem deriveChecksumBits_eq (entropy : Bytes) :
    deriveChecksumBits platform entropy = (checksum platform entropy).map digit := by
  rw [deriveChecksumBits, bytesToBinary_eq, checksum, List.map_take]

theorem length_checksum (documented : platform.Documented) {entropy : Bytes} (short : entropy.length ≤ 1024) :
    (checksum platform entropy).length = entropy.length * 8 / 32 := by
  rw [checksum, List.length_take, length_byteBits, documented.digest]
  omega

/-- All bits of a phrase. -/
def phraseBits (platform : MnemonicPlatform) (entropy : Bytes) : List Bool :=
  byteBits entropy ++ checksum platform entropy

theorem eq_of_byteBits {data : Bytes} {parts : List (List Bool)} (sized : ∀ part ∈ parts, part.length = 8)
    (same : byteBits data = parts.flatten) : parts = data.map fun b => bits 8 b.toNat := by
  have own : byteBits data = (data.map fun b => bits 8 b.toNat).flatten := by
    rw [byteBits, List.flatMap_def]
  have first := groups_flatten (by decide) parts sized
  have second := groups_flatten (by decide : 0 < 8) (data.map fun b => bits 8 b.toNat) (by
    intro part member
    obtain ⟨b, -, rfl⟩ := List.mem_map.mp member
    exact length_bits 8 b.toNat)
  rw [← first, ← same, own, second]

theorem map_number_bits (data : Bytes) :
    (data.map fun b => bits 8 b.toNat).map (fun part => UInt8.ofNat (number part)) = data := by
  have each (b : UInt8) : UInt8.ofNat (number (bits 8 b.toNat)) = b := by
    rw [number_bits b.toNat_lt, UInt8.ofNat_toNat]
  rw [List.map_map]
  exact (List.map_congr_left fun b _ => each b).trans (List.map_id data)

/-- Groups of eight bits are those of the bytes that they number. -/
theorem byteBits_numbers {parts : List (List Bool)} (sized : ∀ part ∈ parts, part.length = 8) :
    byteBits (parts.map fun part => UInt8.ofNat (number part)) = parts.flatten := by
  induction parts with
  | nil => rfl
  | cons part parts inductionHypothesis =>
      have length := sized part List.mem_cons_self
      have less : number part < 256 := by
        have bound := number_lt part
        rw [length] at bound
        exact bound
      have byte : (UInt8.ofNat (number part)).toNat = number part := by
        rw [UInt8.toNat_ofNat']
        exact Nat.mod_eq_of_lt less
      have whole := bits_number part
      rw [length] at whole
      have later := inductionHypothesis fun part member => sized part (List.mem_cons_of_mem _ member)
      rw [byteBits] at later ⊢
      rw [List.map_cons, List.flatMap_cons, later, byte, whole, List.flatten_cons]

/-! ## Words -/

def wordAt (platform : MnemonicPlatform) (part : List Bool) : String :=
  platform.bip39Words.getD (number part) "undefined"

theorem number_lt_of_length {part : List Bool} (sized : part.length = 11) : number part < 2048 := by
  have bound := number_lt part
  rw [sized] at bound
  exact bound

theorem wordAt_eq (documented : platform.Documented) {part : List Bool} (sized : part.length = 11) :
    ∃ inside : number part < platform.bip39Words.length, wordAt platform part = platform.bip39Words[number part] := by
  have inside : number part < platform.bip39Words.length := by
    rw [documented.length]
    exact number_lt_of_length sized
  exact ⟨inside, List.getD_eq_getElem _ _ inside⟩

theorem wordAt_mem (documented : platform.Documented) {part : List Bool} (sized : part.length = 11) :
    wordAt platform part ∈ platform.bip39Words := by
  obtain ⟨inside, word⟩ := wordAt_eq documented sized
  rw [word]
  exact List.getElem_mem inside

theorem indexOf_wordAt (documented : platform.Documented) {part : List Bool} (sized : part.length = 11) :
    indexOf platform.bip39Words (wordAt platform part) = number part := by
  obtain ⟨inside, word⟩ := wordAt_eq documented sized
  rw [indexOf, if_pos (wordAt_mem documented sized), word, documented.nodup.idxOf_getElem]

theorem eq_of_wordAt (documented : platform.Documented) {part part' : List Bool} (sized : part.length = 11)
    (sized' : part'.length = 11) (same : wordAt platform part = wordAt platform part') : part = part' := by
  have numbers := indexOf_wordAt documented sized
  rw [same, indexOf_wordAt documented sized', Nat.cast_inj] at numbers
  have first := bits_number part
  have second := bits_number part'
  rw [sized] at first
  rw [sized', numbers] at second
  exact first.symm.trans second

theorem eq_of_map_wordAt (documented : platform.Documented) {parts parts' : List (List Bool)}
    (sized : ∀ part ∈ parts, part.length = 11) (sized' : ∀ part ∈ parts', part.length = 11)
    (same : parts.map (wordAt platform) = parts'.map (wordAt platform)) : parts = parts' := by
  induction parts generalizing parts' with
  | nil => exact (List.map_eq_nil_iff.mp same.symm).symm
  | cons part parts inductionHypothesis =>
      cases parts' with
      | nil => cases same
      | cons part' parts' =>
          obtain ⟨first, rest⟩ := List.cons.inj same
          have heads := eq_of_wordAt documented (sized part List.mem_cons_self)
            (sized' part' List.mem_cons_self) first
          have tails := inductionHypothesis (fun part member => sized part (List.mem_cons_of_mem _ member))
            (fun part member => sized' part (List.mem_cons_of_mem _ member)) rest
          rw [heads, tails]

/-- Words of the list are those of groups of eleven bits. -/
theorem exists_groups (documented : platform.Documented) {words : List String}
    (known : ∀ word ∈ words, word ∈ platform.bip39Words) :
    ∃ parts : List (List Bool), words = parts.map (wordAt platform) ∧ ∀ part ∈ parts, part.length = 11 := by
  refine ⟨words.map fun word => bits 11 (platform.bip39Words.idxOf word), ?_, ?_⟩
  · rw [List.map_map]
    symm
    apply (List.map_congr_left ?_).trans (List.map_id words)
    intro word member
    have inside := List.idxOf_lt_length_iff.mpr (known word member)
    have less : platform.bip39Words.idxOf word < 2 ^ 11 := by
      rw [documented.length] at inside
      exact inside
    change platform.bip39Words.getD (number (bits 11 (platform.bip39Words.idxOf word))) "undefined" = word
    rw [number_bits less, List.getD_eq_getElem _ _ inside, List.getElem_idxOf]
  · intro part member
    obtain ⟨word, -, rfl⟩ := List.mem_map.mp member
    exact length_bits 11 _

theorem unknownWordIndices_eq_nil (known : String → Bool) (words : List String) :
    unknownWordIndices known words = [] ↔ ∀ word ∈ words, known word = true := by
  have from_ (start : Nat) (unknowns : List Nat) :
      (words.zipIdx start).foldl (fun unknowns word => if known word.1 then unknowns else unknowns ++ [word.2])
        unknowns = [] ↔ unknowns = [] ∧ ∀ word ∈ words, known word = true := by
    induction words generalizing start unknowns with
    | nil => simp
    | cons word words inductionHypothesis =>
        rw [List.zipIdx_cons, List.foldl_cons, inductionHypothesis, List.forall_mem_cons]
        cases found : known word with
        | true => simp
        | false => simp
  rw [unknownWordIndices, from_]
  exact and_iff_right rfl

end Mnemonic

end HederaSdk
