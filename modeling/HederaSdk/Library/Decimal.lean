import HederaSdk.Library.Text
import Mathlib.Algebra.Order.Field.Rat
import Mathlib.Tactic.FieldSimp
import Mathlib.Tactic.Ring

/-!
# Plain decimals

A plain decimal is a sign, some digits and perhaps a point with digits behind it. Where the
point stands does not change the digits, so a value is that of all digits divided by a power
of ten.
-/

namespace HederaSdk.Library

structure Plain where
  negative : Bool
  whole : List Char
  /-- Without digits there is no point. -/
  fraction : List Char
  nonempty : whole ≠ []
  digits : ∀ c ∈ whole ++ fraction, c.isDigit = true

namespace Plain

/-- The text without the sign. -/
def magnitude (plain : Plain) : List Char :=
  plain.whole ++ (if plain.fraction = [] then [] else '.' :: plain.fraction)

def text (plain : Plain) : List Char := (if plain.negative then ['-'] else []) ++ plain.magnitude

def absolute (plain : Plain) : ℚ :=
  (Nat.ofDigitChars 10 (plain.whole ++ plain.fraction) 0 : ℚ) / 10 ^ plain.fraction.length

def value (plain : Plain) : ℚ := if plain.negative then -plain.absolute else plain.absolute

/-- The decimal of an integer. -/
def ofInt (n : Int) : Plain where
  negative := n < 0
  whole := Nat.toDigits 10 n.natAbs
  fraction := []
  nonempty := Nat.toDigits_ne_nil
  digits := by
    intro c member
    rw [List.append_nil] at member
    exact Nat.isDigit_of_mem_toDigits (by decide) (by decide) member

theorem text_ofInt (n : Int) : (ofInt n).text = Text.decimal n := by
  rw [Text.decimal_eq, text, magnitude]
  rcases le_or_gt 0 n with positive | negative
  · have same : n.natAbs = n.toNat := by omega
    simp [ofInt, positive, not_lt.mpr positive, same]
  · have same : n.natAbs = (-n).toNat := by omega
    simp [ofInt, negative, not_le.mpr negative, same]

theorem value_ofInt (n : Int) : (ofInt n).value = n := by
  rcases le_or_gt 0 n with positive | negative
  · obtain ⟨m, rfl⟩ := Int.eq_ofNat_of_zero_le positive
    simp [value, absolute, ofInt]
  · obtain ⟨m, rfl⟩ := Int.exists_eq_neg_ofNat negative.le
    have sign : 0 < m := by omega
    simp [value, absolute, ofInt, sign]

/-! ## Reading -/

def readMagnitude (text : List Char) : Option ℚ :=
  match text.takeWhile Char.isDigit, text.dropWhile Char.isDigit with
  | [], _ => none
  | whole, [] => some (Nat.ofDigitChars 10 whole 0)
  | whole, '.' :: fraction =>
      if fraction ≠ [] ∧ fraction.all Char.isDigit then
        some (Nat.ofDigitChars 10 (whole ++ fraction) 0 / 10 ^ fraction.length)
      else none
  | _, _ => none

/-- A reader of plain decimals. -/
def read : List Char → Option ℚ
  | '-' :: magnitude => (readMagnitude magnitude).map fun q => -q
  | text => readMagnitude text

theorem readMagnitude_magnitude (plain : Plain) : readMagnitude plain.magnitude = some plain.absolute := by
  obtain ⟨negative, whole, fraction, nonempty, digits⟩ := plain
  obtain ⟨c, rest, rfl⟩ := List.exists_cons_of_ne_nil nonempty
  have wholes : ∀ d ∈ c :: rest, d.isDigit = true := fun d member =>
    digits d (List.mem_append_left _ member)
  cases fraction with
  | nil =>
      simp only [magnitude, if_true, List.append_nil, readMagnitude, Text.takeWhile_all wholes,
        Text.dropWhile_all wholes, absolute, List.length_nil, pow_zero, div_one]
  | cons d fraction =>
      have fractions : (d :: fraction).all Char.isDigit = true :=
        List.all_eq_true.mpr fun e member => digits e (List.mem_append_right _ member)
      have stop : ('.').isDigit = false := by decide
      simp only [magnitude, reduceCtorEq, if_false, readMagnitude, Text.takeWhile_append_stop stop,
        Text.dropWhile_append_stop stop, Text.takeWhile_all wholes, Text.dropWhile_all wholes,
        List.nil_append]
      rw [if_pos ⟨List.cons_ne_nil _ _, fractions⟩]
      rfl

theorem read_text (plain : Plain) : read plain.text = some plain.value := by
  have read_ := readMagnitude_magnitude plain
  rw [text, value]
  cases sign : plain.negative with
  | true => simp [read, read_]
  | false =>
      obtain ⟨c, rest, shape⟩ := List.exists_cons_of_ne_nil plain.nonempty
      have digit := plain.digits c (by simp [shape])
      have start : plain.magnitude = c :: (rest ++ if plain.fraction = [] then [] else '.' :: plain.fraction) := by
        rw [magnitude, shape, List.cons_append]
      have noMinus : c ≠ '-' := by
        rintro rfl
        cases digit
      simp only [Bool.false_eq_true, if_false, List.nil_append]
      rw [← read_, start, read]
      intro magnitude same
      exact noMinus (List.cons.inj same).1

end Plain

end HederaSdk.Library
