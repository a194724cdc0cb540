import Mathlib.Data.List.Basic

/-!
# Splitting a text at a separator

The first two parts of a text between separators. A separator is found where its first
character is, so a part without that character is a part as a whole.
-/

namespace HederaSdk.Library.Split

variable {α : Type*} [DecidableEq α]

/-- The text before the first separator, and the text behind it. -/
def breakOn (separator : List α) : List α → Option (List α × List α)
  | [] => none
  | c :: text =>
      match separator.isPrefixOf? (c :: text) with
      | some rest => some ([], rest)
      | none => (breakOn separator text).map fun parts => (c :: parts.1, parts.2)

/-- `[first, second] = text.split(separator)`: without a separator there is no second part. -/
def firstTwo (separator text : List α) : List α × Option (List α) :=
  match breakOn separator text with
  | none => (text, none)
  | some (first, rest) =>
      (first, some (match breakOn separator rest with
        | none => rest
        | some (second, _) => second))

theorem isPrefixOf?_append (separator rest : List α) :
    separator.isPrefixOf? (separator ++ rest) = some rest := by
  induction separator with
  | nil => rfl
  | cons c separator inductionHypothesis => simp [List.isPrefixOf?, inductionHypothesis]

variable {c : α} {separator : List α}

theorem breakOn_of_notMem {text : List α} (free : c ∉ text) : breakOn (c :: separator) text = none := by
  induction text with
  | nil => rfl
  | cons d text inductionHypothesis =>
      have apart : (c == d) = false := beq_eq_false_iff_ne.mpr (List.ne_of_not_mem_cons free)
      have behind := inductionHypothesis (List.not_mem_of_not_mem_cons free)
      simp [breakOn, List.isPrefixOf?, apart, behind]

theorem breakOn_append {first : List α} (free : c ∉ first) (rest : List α) :
    breakOn (c :: separator) (first ++ (c :: separator ++ rest)) = some (first, rest) := by
  induction first with
  | nil => simp [breakOn, List.isPrefixOf?, isPrefixOf?_append]
  | cons d first inductionHypothesis =>
      have apart : (c == d) = false := beq_eq_false_iff_ne.mpr (List.ne_of_not_mem_cons free)
      have behind := inductionHypothesis (List.not_mem_of_not_mem_cons free)
      rw [List.cons_append, breakOn, List.isPrefixOf?, apart]
      simp only [Bool.false_eq_true, if_false]
      rw [behind]
      rfl

/-- Two parts that the separator does not start in. -/
theorem firstTwo_append {first second : List α} (free : c ∉ first) (free' : c ∉ second) :
    firstTwo (c :: separator) (first ++ (c :: separator ++ second)) = (first, some second) := by
  rw [firstTwo, breakOn_append free]
  simp only [breakOn_of_notMem free']

/-- The case of a single character. -/
theorem firstTwo_cons {first second : List α} (free : c ∉ first) (free' : c ∉ second) :
    firstTwo [c] (first ++ c :: second) = (first, some second) := firstTwo_append free free'

end HederaSdk.Library.Split
