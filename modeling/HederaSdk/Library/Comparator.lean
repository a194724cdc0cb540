import Mathlib.Order.Basic
import Mathlib.Data.Set.Basic

/-!
# Comparators

A comparator answers with a number whose sign says which of two values comes first. On the
values of a set it is an order when swapping the values swaps the sign and the answers
compose. A comparator that follows a key into a linear order is one.
-/

namespace HederaSdk.Library

universe u v

variable {α : Type u} {κ : Type v} {compare : α → α → ℤ} {values : Set α}

/-- The comparator orders the values. -/
structure Orders (compare : α → α → ℤ) (values : Set α) : Prop where
  swap : ∀ a ∈ values, ∀ b ∈ values, (compare b a).sign = -(compare a b).sign
  total : ∀ a ∈ values, ∀ b ∈ values, compare a b ≤ 0 ∨ compare b a ≤ 0
  antisymm : ∀ a ∈ values, ∀ b ∈ values, compare a b ≤ 0 → compare b a ≤ 0 → compare a b = 0
  trans : ∀ a ∈ values, ∀ b ∈ values, ∀ c ∈ values, compare a b ≤ 0 → compare b c ≤ 0 → compare a c ≤ 0

/-- The order has a place for each text. -/
structure Tells (compare : α → α → ℤ) (text : α → κ) (values : Set α) : Prop extends
    Orders compare values where
  zero : ∀ a ∈ values, ∀ b ∈ values, compare a b = 0 ↔ text a = text b

/-- An equality that agrees with the comparator. -/
structure Equates (equals : α → α → Bool) (compare : α → α → ℤ) (values : Set α) : Prop where
  refl : ∀ a ∈ values, equals a a = true
  symm : ∀ a ∈ values, ∀ b ∈ values, equals a b = true → equals b a = true
  trans : ∀ a ∈ values, ∀ b ∈ values, ∀ c ∈ values,
    equals a b = true → equals b c = true → equals a c = true
  agrees : ∀ a ∈ values, ∀ b ∈ values, equals a b = true ↔ compare a b = 0

/-- What follows a key is an order. -/
theorem orders_of_key [LinearOrder κ] (key : α → κ)
    (less : ∀ a ∈ values, ∀ b ∈ values, key a < key b → compare a b < 0 ∧ 0 < compare b a)
    (same : ∀ a ∈ values, ∀ b ∈ values, key a = key b → compare a b = 0) : Orders compare values := by
  have le {a b : α} (first : a ∈ values) (second : b ∈ values) : compare a b ≤ 0 ↔ key a ≤ key b := by
    rcases lt_trichotomy (key a) (key b) with before | equal | behind
    · exact iff_of_true (less a first b second before).1.le before.le
    · exact iff_of_true (same a first b second equal).le equal.le
    · exact iff_of_false (not_le.mpr (less b second a first behind).2) (not_le.mpr behind)
  constructor
  · intro a first b second
    rcases lt_trichotomy (key a) (key b) with before | equal | behind
    · obtain ⟨negative, positive⟩ := less a first b second before
      rw [Int.sign_eq_neg_one_of_neg negative, Int.sign_eq_one_of_pos positive, Int.neg_neg]
    · rw [same a first b second equal, same b second a first equal.symm]
      rfl
    · obtain ⟨negative, positive⟩ := less b second a first behind
      rw [Int.sign_eq_neg_one_of_neg negative, Int.sign_eq_one_of_pos positive]
  · intro a first b second
    rw [le first second, le second first]
    exact le_total _ _
  · intro a first b second before behind
    rw [le first second] at before
    rw [le second first] at behind
    exact same a first b second (le_antisymm before behind)
  · intro a first b second c third before after
    rw [le first second] at before
    rw [le second third] at after
    exact (le first third).mpr (before.trans after)

end HederaSdk.Library
