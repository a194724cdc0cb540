import Mathlib.Data.List.Induction
import Mathlib.Data.Nat.Bitwise
import Mathlib.Tactic.IntervalCases
import HederaSdk.Library.Text

/-!
# Groups of bits

A number below a power of two is written with a fixed number of bits, the most significant first.
Bits are grouped from the front; groups of one size that are joined are found again.
-/

namespace HederaSdk.Library.BitGroups

/-! ## One group -/

def bits : Nat → Nat → List Bool
  | 0, _ => []
  | width + 1, n => bits width (n / 2) ++ [decide (n % 2 = 1)]

def number (group : List Bool) : Nat := group.foldl (fun n bit => 2 * n + bit.toNat) 0

@[simp] theorem length_bits (width n : Nat) : (bits width n).length = width := by
  induction width generalizing n with
  | zero => rfl
  | succ width inductionHypothesis => rw [bits, List.length_append, inductionHypothesis, List.length_singleton]

theorem number_concat (group : List Bool) (bit : Bool) : number (group ++ [bit]) = 2 * number group + bit.toNat := by
  rw [number, List.foldl_append]
  rfl

theorem toNat_bit (n : Nat) : (decide (n % 2 = 1)).toNat = n % 2 := by
  rcases Nat.mod_two_eq_zero_or_one n with even | odd
  · simp [even]
  · simp [odd]

theorem number_bits {width n : Nat} (small : n < 2 ^ width) : number (bits width n) = n := by
  induction width generalizing n with
  | zero =>
      rw [pow_zero, Nat.lt_one_iff] at small
      rw [small]
      rfl
  | succ width inductionHypothesis =>
      have half : n / 2 < 2 ^ width := by
        rw [pow_succ] at small
        omega
      rw [bits, number_concat, inductionHypothesis half, toNat_bit]
      omega

theorem number_lt (group : List Bool) : number group < 2 ^ group.length := by
  induction group using List.reverseRecOn with
  | nil => exact Nat.zero_lt_one
  | append_singleton group bit inductionHypothesis =>
      rw [number_concat, List.length_append, List.length_singleton, pow_succ]
      have one := bit.toNat_lt
      omega

theorem bits_number (group : List Bool) : bits group.length (number group) = group := by
  induction group using List.reverseRecOn with
  | nil => rfl
  | append_singleton group bit inductionHypothesis =>
      have one := bit.toNat_lt
      have half : (2 * number group + bit.toNat) / 2 = number group := by omega
      have last : decide ((2 * number group + bit.toNat) % 2 = 1) = bit := by
        cases bit with
        | false => simp
        | true => simp [Nat.add_mod]
      rw [List.length_append, List.length_singleton, bits, number_concat, half, last, inductionHypothesis]

/-- The bits of a number are those that shifting finds. -/
theorem bits_eq_testBit (width n : Nat) :
    bits width n = (List.range width).map fun i => n.testBit (width - 1 - i) := by
  induction width generalizing n with
  | zero => rfl
  | succ width inductionHypothesis =>
      rw [bits, inductionHypothesis, List.range_succ, List.map_append]
      congr 1
      · apply List.map_congr_left
        intro i member
        have below := List.mem_range.mp member
        have shift : width + 1 - 1 - i = (width - 1 - i) + 1 := by omega
        rw [shift, Nat.testBit_succ]
      · have last : width + 1 - 1 - width = 0 := by omega
        rw [List.map_singleton, last, Nat.testBit_zero]

/-! ## Groups of one size -/

section

variable {α : Type*}

/-- Groups from the front, as far as so many steps go; the last one may be shorter. -/
def groupsFrom (size : Nat) : Nat → List α → List (List α)
  | 0, _ => []
  | _, [] => []
  | steps + 1, list => list.take size :: groupsFrom size steps (list.drop size)

def groups (size : Nat) (list : List α) : List (List α) := groupsFrom size list.length list

theorem groupsFrom_flatten {size : Nat} (positive : 0 < size) (parts : List (List α))
    (sized : ∀ part ∈ parts, part.length = size) (steps : Nat) (enough : parts.length ≤ steps) :
    groupsFrom size steps parts.flatten = parts := by
  induction parts generalizing steps with
  | nil => cases steps <;> rfl
  | cons part parts inductionHypothesis =>
      have length := sized part List.mem_cons_self
      obtain ⟨steps, rfl⟩ : ∃ before, steps = before + 1 := ⟨steps - 1, by rw [List.length_cons] at enough; omega⟩
      obtain ⟨a, rest, shape⟩ := List.exists_cons_of_length_pos (l := part) (by omega)
      have later := inductionHypothesis (fun part member => sized part (List.mem_cons_of_mem _ member)) steps
        (Nat.le_of_succ_le_succ enough)
      rw [List.flatten_cons, shape, List.cons_append, groupsFrom, ← List.cons_append, ← shape,
        List.take_left' length, List.drop_left' length, later]
      intro none
      cases none

theorem length_flatten_of_sized {size : Nat} (parts : List (List α)) (sized : ∀ part ∈ parts, part.length = size) :
    parts.flatten.length = parts.length * size := by
  induction parts with
  | nil => simp
  | cons part parts inductionHypothesis =>
      have later := inductionHypothesis fun part member => sized part (List.mem_cons_of_mem _ member)
      rw [List.flatten_cons, List.length_append, sized part List.mem_cons_self, later, List.length_cons,
        Nat.succ_mul, Nat.add_comm]

/-- Groups that were joined are found again. -/
theorem groups_flatten {size : Nat} (positive : 0 < size) (parts : List (List α))
    (sized : ∀ part ∈ parts, part.length = size) : groups size parts.flatten = parts := by
  apply groupsFrom_flatten positive parts sized
  rw [length_flatten_of_sized parts sized]
  exact Nat.le_mul_of_pos_right _ positive

/-- A list of so many times the size is joined from groups. -/
theorem exists_parts (size : Nat) {list : List α} {count : Nat} (length : list.length = count * size) :
    ∃ parts : List (List α), list = parts.flatten ∧ parts.length = count ∧ ∀ part ∈ parts, part.length = size := by
  induction count generalizing list with
  | zero =>
      rw [Nat.zero_mul] at length
      refine ⟨[], ?_, rfl, fun part none => by cases none⟩
      rw [List.length_eq_zero_iff.mp length, List.flatten_nil]
  | succ count inductionHypothesis =>
      rw [Nat.succ_mul] at length
      have rest : (list.drop size).length = count * size := by
        rw [List.length_drop]
        omega
      obtain ⟨parts, joined, number, sized⟩ := inductionHypothesis rest
      refine ⟨list.take size :: parts, ?_, ?_, ?_⟩
      · rw [List.flatten_cons, ← joined, List.take_append_drop]
      · rw [List.length_cons, number]
      · intro part member
        rcases List.mem_cons.mp member with rfl | later
        · rw [List.length_take]
          omega
        · exact sized part later

end

/-! ## Texts of bits -/

def digit (bit : Bool) : Char := if bit then '1' else '0'

theorem digit_injective : Function.Injective digit := by
  intro first second same
  cases first <;> cases second <;> first | rfl | exact absurd same (by decide)

theorem digitChar_eq {n : Nat} (small : n < 2) : Nat.digitChar n = digit (decide (n % 2 = 1)) := by
  interval_cases n <;> rfl

theorem ofDigitChars_digits (group : List Bool) : Nat.ofDigitChars 2 (group.map digit) 0 = number group := by
  have from_ (start : Nat) : Nat.ofDigitChars 2 (group.map digit) start =
      group.foldl (fun n bit => 2 * n + bit.toNat) start := by
    induction group generalizing start with
    | nil => rfl
    | cons bit group inductionHypothesis =>
        rw [List.map_cons, Nat.ofDigitChars_cons, inductionHypothesis, List.foldl_cons]
        cases bit <;> rfl
  exact from_ 0

theorem padded_concat (width : Nat) (text : List Char) (c : Char) :
    Text.padded (width + 1) (text ++ [c]) = Text.padded width text ++ [c] := by
  rw [Text.padded, Text.padded, List.length_append, List.length_singleton, Nat.add_sub_add_right, List.append_assoc]

/-- A number in binary, filled up with zeros, is its bits. -/
theorem padded_toDigits {width n : Nat} (small : n < 2 ^ (width + 1)) :
    Text.padded (width + 1) (Nat.toDigits 2 n) = (bits (width + 1) n).map digit := by
  induction width generalizing n with
  | zero =>
      rw [Nat.zero_add, pow_one] at small
      rw [Nat.toDigits_of_lt_base small, digitChar_eq small]
      rfl
  | succ width inductionHypothesis =>
      have half : n / 2 < 2 ^ (width + 1) := by
        rw [pow_succ] at small
        omega
      have front := inductionHypothesis half
      rw [bits, List.map_append, ← front, List.map_singleton]
      by_cases one : n < 2
      · have none : n / 2 = 0 := by omega
        have zeros : Text.padded (width + 1) ['0'] = List.replicate (width + 1) '0' := by
          rw [Text.padded, List.length_singleton, Nat.add_sub_cancel, List.replicate_succ']
        rw [none, Nat.toDigits_of_lt_base one, Nat.toDigits_zero, zeros, digitChar_eq one]
        rfl
      · have last : n % 2 < 2 := Nat.mod_lt _ (by decide)
        rw [Nat.toDigits_of_base_le (by decide) (Nat.le_of_not_lt one), padded_concat, digitChar_eq last,
          Nat.mod_mod]

end HederaSdk.Library.BitGroups
