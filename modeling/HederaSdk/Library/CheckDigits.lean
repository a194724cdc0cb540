import Mathlib.Data.Int.ModEq
import Mathlib.Data.Nat.Digits.Lemmas

/-!
# Check digits

The sums of the digits at even and at odd positions tell a digit from one that is put in
its place, and from its neighbour: both change one sum without the other or in another
way. The digits of a number in a base tell all numbers below a power of the base apart.
-/

namespace HederaSdk.Library.CheckDigits

/-! ## Sums by position -/

/-- The sums of the digits at even and at odd positions. -/
def sums : List Nat → Nat × Nat
  | [] => (0, 0)
  | d :: rest => (d + (sums rest).2, (sums rest).1)

/-- Both sums are the same modulo a number. -/
def SameSums (m : Nat) (first second : List Nat) : Prop :=
  (sums first).1 ≡ (sums second).1 [MOD m] ∧ (sums first).2 ≡ (sums second).2 [MOD m]

variable {m a b : Nat} {first second : List Nat}

theorem sameSums_cons (d : Nat) : SameSums m (d :: first) (d :: second) ↔ SameSums m first second := by
  simp only [SameSums, sums, Nat.ModEq.add_iff_left rfl]
  exact and_comm

theorem sameSums_append (before : List Nat) :
    SameSums m (before ++ first) (before ++ second) ↔ SameSums m first second := by
  induction before with
  | nil => rfl
  | cons d before inductionHypothesis =>
      rw [List.cons_append, List.cons_append, sameSums_cons, inductionHypothesis]

/-- A digit that replaces another changes the sum of its position. -/
theorem sameSums_replaced (before after : List Nat) :
    SameSums m (before ++ a :: after) (before ++ b :: after) ↔ a ≡ b [MOD m] := by
  rw [sameSums_append]
  simp only [SameSums, sums, Nat.ModEq.add_iff_right rfl]
  exact and_iff_left rfl

/-- Neighbours that are exchanged change both sums. -/
theorem sameSums_exchanged (before after : List Nat) :
    SameSums m (before ++ a :: b :: after) (before ++ b :: a :: after) ↔ a ≡ b [MOD m] := by
  rw [sameSums_append]
  simp only [SameSums, sums, Nat.ModEq.add_iff_right rfl]
  exact ⟨And.left, fun same => ⟨same, same.symm⟩⟩

/-! ## Digits of a number -/

/-- The lowest digits of a number, the most significant first. -/
def digits (base count n : Nat) : List Nat := (List.range count).reverse.map fun i => n / base ^ i % base

theorem digits_succ (base count n : Nat) :
    digits base (count + 1) n = n / base ^ count % base :: digits base count n := by
  rw [digits, List.range_succ, List.reverse_append]
  rfl

/-- Numbers with the same lowest digits are the same modulo a power of the base. -/
theorem digits_inj {base count n n' : Nat} (positiveBase : 0 < base) :
    digits base count n = digits base count n' ↔ n ≡ n' [MOD base ^ count] := by
  induction count with
  | zero => simp [digits, Nat.modEq_one]
  | succ count inductionHypothesis =>
      rw [digits_succ, digits_succ, List.cons.injEq, inductionHypothesis, Nat.ModEq, Nat.ModEq,
        Nat.mod_pow_succ, Nat.mod_pow_succ]
      constructor
      · rintro ⟨high, low⟩
        rw [high, low]
      · intro same
        have positive : 0 < base ^ count := Nat.pow_pos positiveBase
        have low := congrArg (· % base ^ count) same
        have high := congrArg (· / base ^ count) same
        simp only [Nat.add_mul_mod_self_left, Nat.mod_mod] at low
        simp only [Nat.add_mul_div_left _ _ positive, Nat.div_eq_of_lt (Nat.mod_lt _ positive),
          Nat.zero_add] at high
        exact ⟨high, low⟩

end HederaSdk.Library.CheckDigits
