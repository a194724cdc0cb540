import Mathlib.Algebra.Group.Nat.Defs
import Mathlib.Data.List.TakeWhile

/-!
# Texts that can be taken apart

A text that is put together from parts can be taken apart again when each part
ends where a character comes that it cannot have. `span_unique` is this rule; the
decimal digits of an integer are a part that no separator is in.
-/

namespace HederaSdk.Library.Text

/-- Two texts with a part of the characters wanted, each followed by another
character or by nothing, are the same text only when the parts are the same. -/
theorem span_unique {p : Char → Prop} {first second rest rest' : List Char}
    (inFirst : ∀ c ∈ first, p c) (inSecond : ∀ c ∈ second, p c)
    (behind : ∀ c ∈ rest.head?, ¬ p c) (behind' : ∀ c ∈ rest'.head?, ¬ p c)
    (same : first ++ rest = second ++ rest') : first = second ∧ rest = rest' := by
  induction first generalizing second with
  | nil =>
      cases second with
      | nil => exact ⟨rfl, same⟩
      | cons c second =>
          rw [List.nil_append, List.cons_append] at same
          exact absurd (inSecond c (List.mem_cons_self ..)) (behind c (by simp [same]))
  | cons c first inductionHypothesis =>
      cases second with
      | nil =>
          rw [List.nil_append, List.cons_append] at same
          exact absurd (inFirst c (List.mem_cons_self ..)) (behind' c (by simp [← same]))
      | cons d second =>
          obtain ⟨rfl, behinds⟩ := List.cons.inj same
          obtain ⟨rfl, rests⟩ := inductionHypothesis
            (fun c member => inFirst c (List.mem_cons_of_mem _ member))
            (fun c member => inSecond c (List.mem_cons_of_mem _ member)) behinds
          exact ⟨rfl, rests⟩

/-- The case of a separator. -/
theorem separated_unique {separator : Char} {first second rest rest' : List Char}
    (inFirst : separator ∉ first) (inSecond : separator ∉ second)
    (same : first ++ separator :: rest = second ++ separator :: rest') :
    first = second ∧ rest = rest' := by
  have parts := @span_unique (· ≠ separator) first second (separator :: rest)
    (separator :: rest')
    (fun c member here => inFirst (here ▸ member)) (fun c member here => inSecond (here ▸ member))
    (by simp) (by simp) same
  exact ⟨parts.1, (List.cons.inj parts.2).2⟩

/-! ## Scanning -/

/-- A scanner that takes characters while they are wanted does not look behind a stop. -/
theorem takeWhile_append_stop {p : Char → Bool} {stop : Char} (stops : p stop = false)
    (text rest : List Char) : (text ++ stop :: rest).takeWhile p = text.takeWhile p := by
  induction text with
  | nil => simp [stops]
  | cons c text inductionHypothesis =>
      cases wanted : p c with
      | true => simp [wanted, inductionHypothesis]
      | false => simp [wanted]

theorem dropWhile_append_stop {p : Char → Bool} {stop : Char} (stops : p stop = false)
    (text rest : List Char) :
    (text ++ stop :: rest).dropWhile p = text.dropWhile p ++ stop :: rest := by
  induction text with
  | nil => simp [stops]
  | cons c text inductionHypothesis =>
      cases wanted : p c with
      | true => simp [wanted, inductionHypothesis]
      | false => simp [wanted]

theorem takeWhile_all {p : Char → Bool} {text : List Char} (all : ∀ c ∈ text, p c = true) :
    text.takeWhile p = text := List.takeWhile_eq_self_iff.mpr all

theorem dropWhile_all {p : Char → Bool} {text : List Char} (all : ∀ c ∈ text, p c = true) :
    text.dropWhile p = [] := List.dropWhile_eq_nil_iff.mpr all

/-! ## Decimal digits -/

/-- The decimal text of an integer. -/
def decimal (n : Int) : List Char := (toString n).toList

theorem decimal_eq (n : Int) : decimal n =
    if 0 ≤ n then Nat.toDigits 10 n.toNat else '-' :: Nat.toDigits 10 (-n).toNat := by
  rw [decimal, Int.toString_eq_repr, Int.repr_eq_if]
  split <;> simp

theorem mem_decimal {n : Int} {c : Char} (member : c ∈ decimal n) : c.isDigit = true ∨ c = '-' := by
  have digits {n : Nat} (member : c ∈ Nat.toDigits 10 n) : c.isDigit = true :=
    Nat.isDigit_of_mem_toDigits (by decide) (by decide) member
  rw [decimal_eq] at member
  split at member
  · exact .inl (digits member)
  · rcases List.mem_cons.mp member with minus | inDigits
    · exact .inr minus
    · exact .inl (digits inDigits)

/-- A number that is not negative has digits only. -/
theorem isDigit_of_mem_decimal {n : Int} (positive : 0 ≤ n) {c : Char} (member : c ∈ decimal n) :
    c.isDigit = true := by
  rw [decimal_eq, if_pos positive] at member
  exact Nat.isDigit_of_mem_toDigits (by decide) (by decide) member

theorem toDigits_injective : Function.Injective (Nat.toDigits 10) := by
  intro m n same
  have read := congrArg (fun digits => Nat.ofDigitChars 10 digits 0) same
  simpa using read

theorem decimal_injective : Function.Injective decimal := by
  have minus (n : Nat) (rest : List Char) : Nat.toDigits 10 n ≠ '-' :: rest := by
    intro same
    have digit : ('-').isDigit = true :=
      Nat.isDigit_of_mem_toDigits (b := 10) (n := n) (by decide) (by decide) (by simp [same])
    exact absurd digit (by decide)
  intro m n same
  rw [decimal_eq, decimal_eq] at same
  split at same <;> split at same
  · have := toDigits_injective same
    omega
  · exact absurd same (minus _ _)
  · exact absurd same.symm (minus _ _)
  · have := toDigits_injective (List.cons.inj same).2
    omega

@[simp] theorem decimal_inj {m n : Int} : decimal m = decimal n ↔ m = n := decimal_injective.eq_iff

theorem decimal_ne_nil (n : Int) : decimal n ≠ [] := by
  rw [decimal_eq]
  split <;> simp

theorem head?_toDigits {n : Nat} (zero : (Nat.toDigits 10 n).head? = some '0') : n = 0 := by
  induction n using Nat.strongRecOn with
  | _ n inductionHypothesis =>
      by_cases small : n < 10
      · rw [Nat.toDigits_of_lt_base small] at zero
        have digit : ∀ n : Fin 10, n.1.digitChar = '0' → n.1 = 0 := by decide
        exact digit ⟨n, small⟩ (Option.some.inj zero)
      · rw [Nat.toDigits_of_base_le (by decide) (by omega)] at zero
        obtain ⟨first, rest, shape⟩ :=
          List.exists_cons_of_ne_nil (Nat.toDigits_ne_nil (n := n / 10) (b := 10))
        rw [shape] at zero
        have := inductionHypothesis (n / 10) (by omega) (by rw [shape]; exact zero)
        omega

/-- Only zero starts with a zero. -/
theorem head?_decimal {n : Int} (zero : (decimal n).head? = some '0') : n = 0 := by
  rw [decimal_eq] at zero
  split at zero
  · have := head?_toDigits zero
    omega
  · simp at zero

theorem length_decimal_le {n : Int} {k : Nat} (positive : 0 < k) (bound : n.natAbs < 10 ^ k) :
    (decimal n).length ≤ k + 1 := by
  have digits {m : Nat} (small : m ≤ n.natAbs) : (Nat.toDigits 10 m).length ≤ k :=
    (Nat.length_toDigits_le_iff (by decide) positive).mpr (by omega)
  rw [decimal_eq]
  split
  · have := digits (m := n.toNat) (by omega)
    omega
  · have := digits (m := (-n).toNat) (by omega)
    simp only [List.length_cons]
    omega

/-! ## Padding -/

/-- Zeros in front of a text up to a length. -/
def padded (length : Nat) (text : List Char) : List Char :=
  List.replicate (length - text.length) '0' ++ text

/-- No two integers are padded to one text. -/
theorem padded_decimal_injective (length : Nat) :
    Function.Injective fun n : Int => padded length (decimal n) := by
  have shorter {m n : Int} (same : padded length (decimal m) = padded length (decimal n)) :
      (decimal n).length ≤ (decimal m).length := by
    by_contra longer
    have lengths := congrArg List.length same
    simp only [padded, List.length_append, List.length_replicate] at lengths
    have suffix : decimal n =
        List.replicate (length - (decimal m).length - (length - (decimal n).length)) '0' ++
          decimal m := by
      have zeros : List.replicate (length - (decimal m).length) '0' =
          List.replicate (length - (decimal n).length) '0' ++
            List.replicate (length - (decimal m).length - (length - (decimal n).length)) '0' := by
        rw [List.replicate_append_replicate]
        congr 1
        omega
      rw [padded, padded, zeros, List.append_assoc] at same
      exact (List.append_cancel_left same).symm
    have zero : n = 0 := by
      apply head?_decimal
      rw [suffix]
      cases count : length - (decimal m).length - (length - (decimal n).length) with
      | zero => omega
      | succ count => rfl
    have one : (decimal n).length = 1 := by rw [zero]; rfl
    have := List.length_pos_iff.mpr (decimal_ne_nil m)
    omega
  intro m n same
  have lengths := Nat.le_antisymm (shorter same.symm) (shorter same)
  simp only [padded, lengths] at same
  exact decimal_injective (List.append_cancel_left same)

end HederaSdk.Library.Text
