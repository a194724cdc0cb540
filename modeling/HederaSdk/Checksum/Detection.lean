import HederaSdk.Checksum
import HederaSdk.Library.CheckDigits
import Mathlib.Algebra.Order.Floor.Semifield
import Mathlib.Data.Rat.Floor
import Mathlib.Data.Nat.ModEq

/-!
# What a checksum detects

A checksum is a permutation of a number that holds, side by side, the length of the text
modulo 5, the sums of its digits at even and at odd positions modulo 11, and a weighted
sum. A digit that is mistyped, neighbours that are exchanged and up to four digits that
are missing or too many change that number.
-/

namespace HederaSdk

open Library

/-- The text of an address without a checksum. -/
def IsAddress (addr : String) : Prop := ∀ c ∈ addr.toList, c = '.' ∨ c.isDigit = true

/-- A character is replaced, two neighbours are exchanged, or some characters are missing
or too many. -/
inductive Mistyped : List Char → List Char → Prop
  | replaced (before after : List Char) {c d : Char} : c ≠ d →
      Mistyped (before ++ c :: after) (before ++ d :: after)
  | exchanged (before after : List Char) {c d : Char} : c ≠ d →
      Mistyped (before ++ c :: d :: after) (before ++ d :: c :: after)
  | longer {first second : List Char} : first.length < second.length →
      second.length ≤ first.length + 4 → Mistyped first second
  | shorter {first second : List Char} : second.length < first.length →
      first.length ≤ second.length + 4 → Mistyped first second

/-! ## The number of a checksum -/

/-- The length and the sums, side by side. -/
def packed (digits : List Nat) (length : Nat) : Nat :=
  (((length % 5) * 11 + (alternatingSums digits).1) * 11 + (alternatingSums digits).2) * base26 3 +
    weightedSum (base26 3) digits

/-- The hash of the ledger id. -/
def ledgerHash (ledgerId : Bytes) : Nat :=
  weightedSum (base26 5) (ledgerId.map UInt8.toNat ++ List.replicate 6 0)

/-- The checksum as a single number. -/
def checksumNumber (ledgerId : Bytes) (addr : String) : Nat :=
  (packed (checksumDigits addr) addr.length + ledgerHash ledgerId) % base26 5 * 1000003 % base26 5

def letter (digit : Nat) : Char := Char.ofNat (97 + digit)

theorem checksum_eq (ledgerId : Bytes) (addr : String) :
    checksum ledgerId addr =
      String.ofList ((CheckDigits.digits 26 5 (checksumNumber ledgerId addr)).map letter) := by
  rw [checksum, CheckDigits.digits, List.map_map]
  rfl

theorem alternatingSums_eq (digits : List Nat) : alternatingSums digits =
    ((CheckDigits.sums digits).1 % 11, (CheckDigits.sums digits).2 % 11) := by
  induction digits with
  | nil => rfl
  | cons d rest inductionHypothesis =>
      simp only [alternatingSums, CheckDigits.sums, inductionHypothesis, Nat.add_mod_mod]

theorem weightedSum_lt {modulus : Nat} (positive : 0 < modulus) (digits : List Nat) :
    weightedSum modulus digits < modulus := by
  induction digits using List.reverseRecOn with
  | nil => exact positive
  | append_singleton digits d _ =>
      rw [weightedSum, List.foldl_append]
      exact Nat.mod_lt _ positive

theorem packed_lt (digits : List Nat) (length : Nat) : packed digits length < base26 5 := by
  have weighted := weightedSum_lt (show 0 < base26 3 by decide) digits
  have five := Nat.mod_lt length (show 0 < 5 by decide)
  have even := Nat.mod_lt (CheckDigits.sums digits).1 (show 0 < 11 by decide)
  have odd := Nat.mod_lt (CheckDigits.sums digits).2 (show 0 < 11 by decide)
  have three : base26 3 = 17576 := by decide
  have all : base26 5 = 11881376 := by decide
  rw [packed, alternatingSums_eq]
  generalize weightedSum (base26 3) digits = weight at weighted ⊢
  simp only [three, all] at weighted ⊢
  omega

/-- What a packed number holds. -/
theorem packed_inj {first second : List Nat} {length length' : Nat} :
    packed first length = packed second length' ↔ length ≡ length' [MOD 5] ∧
      CheckDigits.SameSums 11 first second ∧
      weightedSum (base26 3) first = weightedSum (base26 3) second := by
  have weighted := weightedSum_lt (show 0 < base26 3 by decide) first
  have weighted' := weightedSum_lt (show 0 < base26 3 by decide) second
  have even := Nat.mod_lt (CheckDigits.sums first).1 (show 0 < 11 by decide)
  have odd := Nat.mod_lt (CheckDigits.sums first).2 (show 0 < 11 by decide)
  have even' := Nat.mod_lt (CheckDigits.sums second).1 (show 0 < 11 by decide)
  have odd' := Nat.mod_lt (CheckDigits.sums second).2 (show 0 < 11 by decide)
  have three : base26 3 = 17576 := by decide
  rw [packed, packed, alternatingSums_eq, alternatingSums_eq, CheckDigits.SameSums, Nat.ModEq, Nat.ModEq,
    Nat.ModEq]
  generalize weightedSum (base26 3) first = weight at weighted ⊢
  generalize weightedSum (base26 3) second = weight' at weighted' ⊢
  simp only [three] at weighted weighted' ⊢
  omega

theorem letter_toNat {digit : Nat} (small : digit < 26) : (letter digit).toNat = 97 + digit := by
  have all : ∀ digit : Fin 26, (letter digit).toNat = 97 + digit := by decide
  exact all ⟨digit, small⟩

/-- The final permutation and the hash of the ledger take nothing away. -/
theorem checksumNumber_inj {ledgerId : Bytes} {first second : String} :
    checksumNumber ledgerId first = checksumNumber ledgerId second ↔
      packed (checksumDigits first) first.length = packed (checksumDigits second) second.length := by
  have coprime : Nat.gcd (base26 5) 1000003 = 1 := by decide +kernel
  have small := packed_lt (checksumDigits first) first.length
  have small' := packed_lt (checksumDigits second) second.length
  constructor
  · intro same
    have added := Nat.ModEq.cancel_right_of_coprime coprime same
    rw [Nat.ModEq, Nat.mod_mod, Nat.mod_mod] at added
    have packs := Nat.ModEq.add_right_cancel' (ledgerHash ledgerId) added
    exact packs.eq_of_lt_of_lt small small'
  · intro same
    rw [checksumNumber, checksumNumber, same]

/-- Checksums for a ledger are the same exactly when they hold the same. -/
theorem checksum_inj {ledgerId : Bytes} {first second : String} :
    checksum ledgerId first = checksum ledgerId second ↔
      packed (checksumDigits first) first.length = packed (checksumDigits second) second.length := by
  rw [← @checksumNumber_inj ledgerId]
  constructor
  · intro same
    rw [checksum_eq, checksum_eq] at same
    have letters := congrArg (fun text => text.toList.map fun c => c.toNat - 97) same
    simp only [String.toList_ofList, List.map_map] at letters
    have digits (n : Nat) : (CheckDigits.digits 26 5 n).map ((fun c : Char => c.toNat - 97) ∘ letter) =
        CheckDigits.digits 26 5 n := by
      refine (List.map_congr_left fun digit member => ?_).trans (List.map_id _)
      obtain ⟨i, _, rfl⟩ := List.mem_map.mp member
      have small := Nat.mod_lt (n / 26 ^ i) (show 0 < 26 by decide)
      rw [Function.comp_apply, letter_toNat small]
      exact Nat.add_sub_cancel_left ..
    rw [digits, digits, CheckDigits.digits_inj (by decide)] at letters
    exact letters.eq_of_lt_of_lt (Nat.mod_lt _ (by decide)) (Nat.mod_lt _ (by decide))
  · intro same
    rw [checksum_eq, checksum_eq, same]

/-! ## The letters -/

/-- The loop that writes the letters: it divides exactly, and the code of a character drops
the fraction. -/
def lettersFrom : Nat → ℚ → List Char → List Char
  | 0, _, answer => answer
  | count + 1, c, answer =>
      lettersFrom count (c / 26) (Char.ofNat ⌊97 + (c - 26 * ⌊c / 26⌋₊)⌋₊ :: answer)

theorem floor_letter (n i : Nat) :
    ⌊97 + ((n : ℚ) / 26 ^ i - 26 * ⌊(n : ℚ) / 26 ^ i / 26⌋₊)⌋₊ = 97 + n / 26 ^ i % 26 := by
  have power : ((26 ^ i : Nat) : ℚ) = 26 ^ i := by push_cast; rfl
  have whole : ⌊(n : ℚ) / 26 ^ i⌋₊ = n / 26 ^ i := by
    rw [← power]
    exact Nat.floor_div_eq_div n (26 ^ i)
  have next : ⌊(n : ℚ) / 26 ^ i / 26⌋₊ = n / 26 ^ i / 26 := by
    have nested := Nat.floor_div_ofNat ((n : ℚ) / 26 ^ i) 26
    rw [whole] at nested
    exact nested
  have shift : 97 + ((n : ℚ) / 26 ^ i - 26 * (n / 26 ^ i / 26 : Nat)) =
      (n : ℚ) / 26 ^ i + 97 - (26 * (n / 26 ^ i / 26) : Nat) := by
    push_cast
    ring
  have bound := Nat.div_mul_le_self (n / 26 ^ i) 26
  rw [next, shift, Nat.floor_sub_natCast, Nat.floor_add_ofNat (by positivity), whole]
  have parts := Nat.div_add_mod (n / 26 ^ i) 26
  omega

theorem lettersFrom_eq (n count i : Nat) (answer : List Char) :
    lettersFrom count ((n : ℚ) / 26 ^ i) answer =
      ((List.range' i count).reverse.map fun i => letter (n / 26 ^ i % 26)) ++ answer := by
  induction count generalizing i answer with
  | zero => rfl
  | succ count inductionHypothesis =>
      have next : (n : ℚ) / 26 ^ i / 26 = (n : ℚ) / 26 ^ (i + 1) := by
        rw [div_div, pow_succ]
      rw [lettersFrom, floor_letter, next, inductionHypothesis, List.range'_succ, List.reverse_cons,
        List.map_append, List.append_assoc]
      rfl

/-- The letters are those of the loop. -/
theorem checksum_eq_loop (ledgerId : Bytes) (addr : String) :
    checksum ledgerId addr = String.ofList (lettersFrom 5 (checksumNumber ledgerId addr) []) := by
  have loop := lettersFrom_eq (checksumNumber ledgerId addr) 5 0 []
  rw [pow_zero, div_one, ← List.range_eq_range', List.append_nil] at loop
  rw [loop, checksum_eq, CheckDigits.digits, List.map_map]
  rfl

/-- Five lowercase letters. -/
def IsFiveLetters (text : String) : Prop :=
  text.toList.length = 5 ∧ ∀ c ∈ text.toList, 'a' ≤ c ∧ c ≤ 'z'

theorem isFiveLetters_checksum (ledgerId : Bytes) (addr : String) :
    IsFiveLetters (checksum ledgerId addr) := by
  rw [checksum_eq, IsFiveLetters, String.toList_ofList]
  refine ⟨by simp [CheckDigits.digits], fun c member => ?_⟩
  obtain ⟨digit, inDigits, rfl⟩ := List.mem_map.mp member
  obtain ⟨i, _, rfl⟩ := List.mem_map.mp inDigits
  have all : ∀ digit : Fin 26, 'a' ≤ letter digit ∧ letter digit ≤ 'z' := by decide
  exact all ⟨_, Nat.mod_lt _ (by decide)⟩

/-! ## What is detected -/

theorem checksumDigits_eq (addr : String) :
    checksumDigits addr = addr.toList.map fun c => if c = '.' then 10 else c.toNat - 48 := rfl

/-- Characters of addresses are read as digits that differ modulo 11. -/
theorem eq_of_digit_modEq {c d : Char} (address : c = '.' ∨ c.isDigit = true)
    (address' : d = '.' ∨ d.isDigit = true)
    (same : (if c = '.' then 10 else c.toNat - 48) ≡ (if d = '.' then 10 else d.toNat - 48) [MOD 11]) :
    c = d := by
  have digit {c : Char} (isDigit : c.isDigit = true) : 48 ≤ c.toNat ∧ c.toNat ≤ 57 ∧ c ≠ '.' := by
    have bounds := Char.isDigit_iff_toNat.mp isDigit
    refine ⟨bounds.1, bounds.2, ?_⟩
    rintro rfl
    cases isDigit
  rw [Nat.ModEq] at same
  rcases address with rfl | isDigit <;> rcases address' with rfl | isDigit'
  · rfl
  · obtain ⟨low, high, other⟩ := digit isDigit'
    rw [if_pos rfl, if_neg other] at same
    omega
  · obtain ⟨low, high, other⟩ := digit isDigit
    rw [if_pos rfl, if_neg other] at same
    omega
  · obtain ⟨low, high, other⟩ := digit isDigit
    obtain ⟨low', high', other'⟩ := digit isDigit'
    rw [if_neg other, if_neg other'] at same
    exact Char.toNat_inj.mp (by omega)

/-- A text that was mistyped has another checksum. -/
theorem checksum_ne_of_mistyped (ledgerId : Bytes) {first second : String} (address : IsAddress first)
    (address' : IsAddress second) (mistyped : Mistyped first.toList second.toList) :
    checksum ledgerId first ≠ checksum ledgerId second := by
  intro same
  obtain ⟨lengths, sums, _⟩ := packed_inj.mp (checksum_inj.mp same)
  rw [checksumDigits, checksumDigits] at sums
  rw [IsAddress] at address address'
  rw [← String.length_toList, ← String.length_toList] at lengths
  generalize first.toList = text at mistyped address lengths sums
  generalize second.toList = text' at mistyped address' lengths sums
  cases mistyped with
  | replaced before after differ =>
      rw [List.map_append, List.map_cons, List.map_append, List.map_cons,
        CheckDigits.sameSums_replaced] at sums
      exact differ (eq_of_digit_modEq (address _ (by simp)) (address' _ (by simp)) sums)
  | exchanged before after differ =>
      simp only [List.map_append, List.map_cons] at sums
      rw [CheckDigits.sameSums_exchanged] at sums
      exact differ (eq_of_digit_modEq (address _ (by simp)) (address' _ (by simp)) sums)
  | longer more few =>
      rw [Nat.ModEq] at lengths
      omega
  | shorter fewer few =>
      rw [Nat.ModEq] at lengths
      omega

/-- A checksum is five letters, and a text that was mistyped has another. -/
theorem checksum_detects (ledgerId : Bytes) {first second : String} (address : IsAddress first)
    (address' : IsAddress second) :
    IsFiveLetters (checksum ledgerId first) ∧
      (Mistyped first.toList second.toList → checksum ledgerId first ≠ checksum ledgerId second) :=
  ⟨isFiveLetters_checksum ledgerId first, checksum_ne_of_mistyped ledgerId address address'⟩

/-- The neighbours 2 and 3 are exchanged. -/
theorem exchanged_digits_are_detected : checksum [0] "0.0.123" ≠ checksum [0] "0.0.132" :=
  (checksum_detects [0] (show IsAddress "0.0.123" by simp [IsAddress])
    (show IsAddress "0.0.132" by simp [IsAddress])).2
    (.exchanged "0.0.1".toList [] (show '2' ≠ '3' by decide))

end HederaSdk
