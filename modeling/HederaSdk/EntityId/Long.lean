import HederaSdk.EntityId
import Mathlib.Tactic.Ring

/-!
# Reading a `Long`

The package of 64-bit integers reads a decimal text in pieces of eight characters. Each
piece is read by `parseInt`, which stops at the first character that is no digit, and the
number wraps around at 2^64. A piece without a digit at its head counts as 0.
-/

namespace HederaSdk.Long

/-- White space and line terminators. -/
def isWhiteSpace (c : Char) : Bool :=
  decide (c.toNat ∈ [9, 10, 11, 12, 13, 32, 160, 5760, 8232, 8233, 8239, 8287, 12288, 65279] ∨
    8192 ≤ c.toNat ∧ c.toNat ≤ 8202)

/-- The number at the head of a text, where `none` is `NaN`. -/
def readDigits (text : List Char) : Option Int :=
  match text.takeWhile Char.isDigit with
  | [] => none
  | digits => some (Nat.ofDigitChars 10 digits 0)

/-- `parseInt(text, 10)` -/
def parseInt (text : List Char) : Option Int :=
  match text.dropWhile isWhiteSpace with
  | [] => none
  | c :: rest =>
      if c = '-' then (readDigits rest).map fun n => -n
      else if c = '+' then readDigits rest
      else readDigits (c :: rest)

/-- The 64 bits of a number. -/
def wrap (n : Int) : Int := Int.bmod n 18446744073709551616

/-- The pieces of eight characters, and what is left, are added to the result. -/
def addPieces : Nat → List Char → Int → Int
  | 0, _, result => result
  | fuel + 1, text, result =>
      if text = [] then result
      else
        addPieces fuel (text.drop 8)
          (wrap (result * 10 ^ (text.take 8).length + (parseInt (text.take 8)).getD 0))

/-- Texts that are read as 0. -/
def notFinite : List (List Char) :=
  ["NaN".toList, "Infinity".toList, "+Infinity".toList, "-Infinity".toList]

def fromChars : List Char → Except JsError Int
  | [] => .error (.error "empty string")
  | c :: rest =>
      if c :: rest ∈ notFinite then .ok 0
      else if c = '-' then (fromChars rest).map fun n => wrap (-n)
      else if '-' ∈ rest then .error (.error "interior hyphen")
      else .ok (addPieces (c :: rest).length (c :: rest) 0)

/-- `Long.fromString(text)` -/
def fromString : LongReader where
  fromString text := fromChars text.toList

theorem wrap_wrap (n : Int) : wrap (wrap n) = wrap n := Int.bmod_bmod

theorem wrap_wrap_mul_add (n m : Int) (k : Nat) : wrap (wrap n * 10 ^ k + m) = wrap (n * 10 ^ k + m) :=
  (Int.bmod_add_cancel_right m).mpr Int.bmod_mul_bmod

theorem wrap_of_small {n : Int} (positive : 0 ≤ n) (small : n < 9223372036854775808) : wrap n = n :=
  Int.bmod_eq_of_le (by omega) (by omega)

/-- Digits are neither white space nor signs. -/
theorem not_isWhiteSpace {c : Char} (digit : c.isDigit = true) :
    isWhiteSpace c = false ∧ c ≠ '-' ∧ c ≠ '+' := by
  have bounds : 48 ≤ c.toNat ∧ c.toNat ≤ 57 := Char.isDigit_iff_toNat.mp digit
  refine ⟨?_, ?_, ?_⟩
  · rw [isWhiteSpace, decide_eq_false_iff_not]
    simp only [List.mem_cons, List.not_mem_nil, or_false]
    omega
  · rintro rfl
    cases digit
  · rintro rfl
    cases digit

theorem parseInt_digits {text : List Char} (nonempty : text ≠ []) (digits : ∀ c ∈ text, c.isDigit = true) :
    parseInt text = some ((Nat.ofDigitChars 10 text 0 : Nat) : Int) := by
  obtain ⟨c, rest, rfl⟩ := List.exists_cons_of_ne_nil nonempty
  obtain ⟨solid, noMinus, noPlus⟩ := not_isWhiteSpace (digits c List.mem_cons_self)
  rw [parseInt, List.dropWhile_cons_of_neg (by simp [solid])]
  simp only [noMinus, noPlus, if_false]
  rw [readDigits, Library.Text.takeWhile_all digits]

/-- A text of digits is read as the number it spells, modulo 2^64. -/
theorem addPieces_digits {text : List Char} (digits : ∀ c ∈ text, c.isDigit = true) {fuel : Nat}
    (enough : text.length ≤ fuel) (n : Int) :
    addPieces fuel text (wrap n) = wrap (n * 10 ^ text.length + Nat.ofDigitChars 10 text 0) := by
  induction fuel generalizing text n with
  | zero =>
      obtain rfl := List.length_eq_zero_iff.mp (Nat.le_zero.mp enough)
      simp [addPieces]
  | succ fuel inductionHypothesis =>
      by_cases empty : text = []
      · subst empty
        simp [addPieces]
      · have head : ∀ c ∈ text.take 8, c.isDigit = true := fun c member =>
          digits c (List.mem_of_mem_take member)
        have tail : ∀ c ∈ text.drop 8, c.isDigit = true := fun c member =>
          digits c (List.mem_of_mem_drop member)
        have positive := List.length_pos_iff.mpr empty
        have filled : text.take 8 ≠ [] := by simpa using empty
        have parts : Nat.ofDigitChars 10 text 0 = 10 ^ (text.drop 8).length *
            Nat.ofDigitChars 10 (text.take 8) 0 + Nat.ofDigitChars 10 (text.drop 8) 0 := by
          rw [← Nat.ofDigitChars_eq_ofDigitChars_zero, ← Nat.ofDigitChars_append, List.take_append_drop]
        have lengths : text.length = (text.take 8).length + (text.drop 8).length := by
          rw [← List.length_append, List.take_append_drop]
        rw [addPieces, if_neg empty, parseInt_digits filled head, wrap_wrap_mul_add,
          inductionHypothesis tail (by rw [List.length_drop]; omega), parts, lengths, Option.getD_some]
        congr 1
        push_cast
        ring

theorem fromString_eq {text : List Char} (nonempty : text ≠ []) (noHyphen : '-' ∉ text)
    (finite : text ∉ notFinite) :
    fromString.fromString (.ofList text) = .ok (addPieces text.length text 0) := by
  obtain ⟨c, rest, rfl⟩ := List.exists_cons_of_ne_nil nonempty
  rw [List.mem_cons, not_or] at noHyphen
  change fromChars (String.ofList (c :: rest)).toList = _
  rw [String.toList_ofList, fromChars, if_neg finite, if_neg (Ne.symm noHyphen.1), if_neg noHyphen.2]

/-- A text of hex digits is always read. -/
theorem fromString_hex {text : List Char} (nonempty : text ≠ [])
    (hex : ∀ c ∈ text, EntityIdHelper.isHex c = true) :
    fromString.fromString (.ofList text) = .ok (addPieces text.length text 0) := by
  refine fromString_eq nonempty (fun hyphen => ?_) fun infinite => ?_
  · exact absurd (hex '-' hyphen) (by decide)
  · have all : ∀ text ∈ notFinite, text.all EntityIdHelper.isHex = false := by decide
    have some := all text infinite
    rw [List.all_eq_true.mpr hex] at some
    cases some

/-- The number that digits spell. -/
abbrev spelled (digits : List Char) : Int := Nat.ofDigitChars 10 digits 0

/-- A text of digits is read as the number that it spells, modulo 2^64. -/
theorem fromString_digits {text : List Char} (nonempty : text ≠ [])
    (digits : ∀ c ∈ text, c.isDigit = true) :
    fromString.fromString (.ofList text) = .ok (wrap (spelled text)) := by
  have read := addPieces_digits digits le_rfl 0
  rw [Int.zero_mul, Int.zero_add] at read
  rw [fromString_hex nonempty fun c member => EntityIdHelper.isDigit_isHex c (digits c member)]
  exact congrArg Except.ok read

theorem spelled_decimal {n : Int} (positive : 0 ≤ n) : spelled (Library.Text.decimal n) = n := by
  rw [Library.Text.decimal_eq, if_pos positive, spelled, Nat.ofDigitChars_ten_toDigits]
  exact Int.toNat_of_nonneg positive

theorem ofList_decimal (n : Int) : String.ofList (Library.Text.decimal n) = toString n := by
  simp [Library.Text.decimal]

/-- The text of an integer is read as the integer, modulo 2^64. -/
theorem fromString_decimal (n : Int) : fromString.fromString (toString n) = .ok (wrap n) := by
  have digits {m : Int} (positive : 0 ≤ m) : fromString.fromString (toString m) = .ok (wrap m) := by
    have all : ∀ c ∈ Library.Text.decimal m, c.isDigit = true := fun c member =>
      Library.Text.isDigit_of_mem_decimal positive member
    rw [← ofList_decimal, fromString_digits (Library.Text.decimal_ne_nil m) all, spelled_decimal positive]
  rcases le_or_gt 0 n with positive | negative
  · exact digits positive
  · have shape : Library.Text.decimal n = '-' :: Library.Text.decimal (-n) := by
      rw [Library.Text.decimal_eq, if_neg (by omega), Library.Text.decimal_eq, if_pos (by omega)]
    have finite : '-' :: Library.Text.decimal (-n) ∉ notFinite := by
      intro member
      have letters : ∀ text ∈ notFinite, text.tail.all Char.isDigit = false := by decide
      have some := letters _ member
      rw [List.tail_cons, List.all_eq_true.mpr fun c member =>
        Library.Text.isDigit_of_mem_decimal (by omega) member] at some
      cases some
    have read := digits (m := -n) (by omega)
    rw [← ofList_decimal] at read
    change fromChars (String.ofList (Library.Text.decimal (-n))).toList = _ at read
    rw [String.toList_ofList] at read
    rw [← ofList_decimal, shape]
    change fromChars (String.ofList ('-' :: Library.Text.decimal (-n))).toList = _
    rw [String.toList_ofList, fromChars, if_neg finite, if_pos rfl, read]
    have back : wrap (-wrap (-n)) = wrap n := by simp only [wrap, Int.bmod_neg_bmod, neg_neg]
    exact congrArg Except.ok back

theorem fromString_faithful : fromString.Faithful where
  fromString_toString n positive long := by
    rw [fromString_decimal, wrap_of_small positive long.2]

end HederaSdk.Long
