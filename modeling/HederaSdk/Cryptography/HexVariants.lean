import HederaSdk.Cryptography.Hex
import HederaSdk.Js.ParseInt
import HederaSdk.Library.Text

/-!
# Hex text on the three platforms

Node reads pairs of digits up to the first that is none; the browser and React Native take whatever
pairs of characters a text has, and a pair that is no number is 0. None of them refuses a text.
-/

namespace HederaSdk

open Library

namespace HexText

/-- The text without `0x`. -/
def body (text : String) : List Char :=
  match text.toList with
  | '0' :: 'x' :: digits => digits
  | digits => digits

/-! ## Reading -/

/-- What `.` of a regular expression does not match. -/
def isLineTerminator (c : Char) : Bool := c ∈ ['\n', '\r', '\u2028', '\u2029']

/-- `text.match(/.{1,2}/gu)` -/
def matchPairs : List Char → List (List Char)
  | [] => []
  | [c] => if isLineTerminator c then [] else [[c]]
  | c :: d :: rest =>
      if isLineTerminator c then matchPairs (d :: rest)
      else if isLineTerminator d then [c] :: matchPairs (d :: rest)
      else [c, d] :: matchPairs rest

/-- A number as an element of a `Uint8Array`; `NaN` is 0. -/
def toUint8 (number : Option Int) : UInt8 := UInt8.ofInt (number.getD 0)

/-- `decode` of hex.browser.js and of hex.native.js. -/
def decodeMatches (text : String) : Bytes := (matchPairs (body text)).map fun byte => toUint8 (parseInt (some 16) byte)

/-! ## Writing -/

/-- `n.toString(16).padStart(2, "0")` -/
def byteToHex (n : Nat) : List Char := Text.padded 2 (Nat.toDigits 16 n)

/-- `encode` of hex.browser.js and of hex.native.js. -/
def encodeTable (data : Bytes) : String :=
  data.foldl (fun string byte => string ++ .ofList (byteToHex byte.toNat)) ""

inductive Platform where
  | node
  | browser
  | native

def Platform.decode : Platform → String → Bytes
  | .node => hexDecode
  | .browser | .native => decodeMatches

def Platform.encode : Platform → Bytes → String
  | .node => hexEncode
  | .browser | .native => encodeTable

/-- Pairs of hexadecimal digits. -/
def Hexadecimal (digits : List Char) : Prop :=
  digits.length % 2 = 0 ∧ digits.all (fun c => (hexValue c).isSome) = true

instance instDecidableHexadecimal (digits : List Char) : Decidable (Hexadecimal digits) :=
  inferInstanceAs (Decidable (_ ∧ _))

/-- A byte stands for two characters at most, so some are lost. -/
def Drops (platform : Platform) (text : String) : Prop := 2 * (platform.decode text).length < (body text).length

/-- What is expected of reading a text. None of the platforms throws, so all of them return bytes. -/
structure Dependable (text : String) : Prop where
  agree : ∀ platform platform' : Platform, platform.decode text = platform'.decode text
  comesBack : Hexadecimal (body text) → ∀ platform : Platform,
    (platform.encode (platform.decode text)).toList = (body text).map Char.toLower
  refused : ¬ Hexadecimal (body text) → ∀ platform : Platform, ¬ Drops platform text

/-! ## Digits -/

def hexDigits : List Char := "0123456789abcdefABCDEF".toList

theorem mem_hexDigits {c : Char} (digit : (hexValue c).isSome = true) : c ∈ hexDigits := by
  have range (low high : Nat) (below : low ≤ c.toNat) (above : c.toNat ≤ high)
      (all : ∀ n ∈ List.range (high + 1), low ≤ n → Char.ofNat n ∈ hexDigits) : c ∈ hexDigits := by
    rw [← Char.ofNat_toNat c]
    exact all c.toNat (List.mem_range.mpr (by omega)) below
  unfold hexValue at digit
  split at digit
  · rename_i bounds
    exact range 48 57 bounds.1 bounds.2 (by decide)
  split at digit
  · rename_i bounds
    exact range 97 102 bounds.1 bounds.2 (by decide)
  split at digit
  · rename_i bounds
    exact range 65 70 bounds.1 bounds.2 (by decide)
  · cases digit

theorem hexValue_lower {c : Char} (digit : (hexValue c).isSome = true) :
    ∃ value, hexValue c = some value ∧ value < 16 ∧ hexDigit value = c.toLower := by
  have all : (hexDigits.all fun c =>
      (hexValue c).any fun value => decide (value < 16 ∧ hexDigit value = c.toLower)) = true := by
    decide
  obtain ⟨value, shape, holds⟩ :=
    (Option.any_eq_true _ _).mp (List.all_eq_true.mp all c (mem_hexDigits digit))
  exact ⟨value, shape, of_decide_eq_true holds⟩

theorem not_lineTerminator {c : Char} (digit : (hexValue c).isSome = true) : isLineTerminator c = false := by
  have all : (hexDigits.all fun c => !isLineTerminator c) = true := by decide
  apply eq_false_of_ne_true
  intro terminator
  have kept := List.all_eq_true.mp all c (mem_hexDigits digit)
  rw [terminator] at kept
  cases kept

theorem parseInt_pair {c d : Char} {high low : Nat} (first : hexValue c = some high)
    (second : hexValue d = some low) : parseInt (some 16) [c, d] = some ((16 * high + low : Nat) : Int) := by
  have all : (hexDigits.all fun c => hexDigits.all fun d =>
      parseInt (some 16) [c, d] == some ((16 * (hexValue c).getD 0 + (hexValue d).getD 0 : Nat) : Int)) = true := by
    decide
  have digit := List.all_eq_true.mp all c (mem_hexDigits (by rw [first]; rfl))
  have pair := eq_of_beq (List.all_eq_true.mp digit d (mem_hexDigits (by rw [second]; rfl)))
  rw [first, second] at pair
  exact pair

theorem toUint8_natCast (n : Nat) : toUint8 (some (n : Int)) = UInt8.ofNat n := by
  apply UInt8.toNat_inj.mp
  change (UInt8.ofInt n).toNat = _
  rw [UInt8.ofInt, UInt8.toNat_ofNat', UInt8.toNat_ofNat']
  omega

theorem byteToHex_eq {n : Nat} (small : n < 256) : byteToHex n = [hexDigit (n / 16), hexDigit (n % 16)] := by
  have all : ∀ n : Fin 256, byteToHex n = [hexDigit (n / 16), hexDigit (n % 16)] := by decide +kernel
  exact all ⟨n, small⟩

theorem encodeTable_eq (data : Bytes) : encodeTable data = hexEncode data := by
  have from_ (text : String) : data.foldl (fun string byte => string ++ .ofList (byteToHex byte.toNat)) text =
      text ++ hexEncode data := by
    induction data generalizing text with
    | nil => exact String.append_empty.symm
    | cons b rest inductionHypothesis =>
        rw [List.foldl_cons, inductionHypothesis, byteToHex_eq b.toNat_lt, String.append_assoc, hexEncode,
          hexEncode, List.flatMap_cons, String.ofList_append]
  rw [encodeTable, from_, String.empty_append]

theorem Platform.encode_eq (platform : Platform) (data : Bytes) : platform.encode data = hexEncode data := by
  cases platform with
  | node => rfl
  | browser => exact encodeTable_eq data
  | native => exact encodeTable_eq data

/-! ## Texts -/

theorem hexDecode_eq (text : String) : hexDecode text = decodePairs (body text) := by
  rw [hexDecode]
  split
  · rename_i shape
    simp only [body, shape]
  · rename_i other
    rw [body]
    split
    · rename_i shape
      exact (other _ shape).elim
    · rfl

theorem Hexadecimal.tail {c d : Char} {rest : List Char} (digits : Hexadecimal (c :: d :: rest)) :
    Hexadecimal rest := by
  obtain ⟨even, all⟩ := digits
  rw [List.length_cons, List.length_cons] at even
  rw [List.all_cons, List.all_cons, Bool.and_eq_true, Bool.and_eq_true] at all
  exact ⟨by omega, all.2.2⟩

/-- Node drops what is behind the pairs of digits. -/
theorem hexadecimal_of_length {digits : List Char} (all : digits.length ≤ 2 * (decodePairs digits).length) :
    Hexadecimal digits := by
  induction digits using decodePairs.induct with
  | case1 c d rest high low second first inductionHypothesis =>
      rw [decodePairs, first, second] at all
      simp only [List.length_cons] at all
      obtain ⟨even, digits⟩ := inductionHypothesis (by omega)
      refine ⟨by rw [List.length_cons, List.length_cons]; omega, ?_⟩
      rw [List.all_cons, List.all_cons, first, second, digits]
      rfl
  | case2 c d rest wrong =>
      have none : decodePairs (c :: d :: rest) = [] := by
        rw [decodePairs]
        split
        · rename_i high low first second
          exact (wrong high low first second).elim
        · rfl
      rw [none] at all
      exact absurd all (Nat.not_succ_le_zero _)
  | case3 digits short =>
      cases digits with
      | nil => exact ⟨rfl, rfl⟩
      | cons c rest =>
          cases rest with
          | nil => exact absurd all (Nat.not_succ_le_zero 0)
          | cons d rest => exact (short c d rest rfl).elim

/-- On pairs of digits the platforms agree, and the digits come back. -/
theorem Hexadecimal.read {digits : List Char} (hexadecimal : Hexadecimal digits) :
    (matchPairs digits).map (fun byte => toUint8 (parseInt (some 16) byte)) = decodePairs digits ∧
      (hexEncode (decodePairs digits)).toList = digits.map Char.toLower := by
  induction digits using decodePairs.induct with
  | case1 c d rest high low second first inductionHypothesis =>
      obtain ⟨pairs, lower⟩ := inductionHypothesis hexadecimal.tail
      have digit : (hexValue c).isSome = true := by rw [first]; rfl
      have digit' : (hexValue d).isSome = true := by rw [second]; rfl
      obtain ⟨value, shape, small, lowerFirst⟩ := hexValue_lower digit
      obtain ⟨value', shape', small', lowerSecond⟩ := hexValue_lower digit'
      rw [first, Option.some.injEq] at shape
      rw [second, Option.some.injEq] at shape'
      subst shape shape'
      rw [matchPairs, not_lineTerminator digit, not_lineTerminator digit', decodePairs, first, second]
      simp only [Bool.false_eq_true, if_false, List.map_cons, parseInt_pair first second]
      constructor
      · rw [pairs, toUint8_natCast]
      · have byte : (UInt8.ofNat (16 * high + low)).toNat = 16 * high + low := by
          rw [UInt8.toNat_ofNat']
          omega
        rw [hexEncode, String.toList_ofList] at lower ⊢
        rw [List.flatMap_cons, byte, lower, ← lowerFirst, ← lowerSecond]
        have quotient : (16 * high + low) / 16 = high := by omega
        have remainder : (16 * high + low) % 16 = low := by omega
        rw [quotient, remainder]
        rfl
  | case2 c d rest wrong =>
      have digits := List.all_eq_true.mp hexadecimal.2
      obtain ⟨high, first⟩ := Option.isSome_iff_exists.mp (digits c List.mem_cons_self)
      obtain ⟨low, second⟩ :=
        Option.isSome_iff_exists.mp (digits d (List.mem_cons_of_mem _ List.mem_cons_self))
      exact (wrong high low first second).elim
  | case3 digits short =>
      cases digits with
      | nil => exact ⟨rfl, rfl⟩
      | cons c rest =>
          cases rest with
          | nil => exact absurd hexadecimal.1 Nat.one_ne_zero
          | cons d rest => exact (short c d rest rfl).elim

end HexText

end HederaSdk
