import Mathlib.Data.Nat.Digits.Lemmas

/-!
# Numbers in bytes of seven bits

The most significant bits come first, and every byte but the last has its high bit set.
-/

namespace HederaSdk.Library.Base128

def value (data : List UInt8) : Nat := data.foldl (fun n b => n * 128 + b.toNat % 128) 0

/-- The bytes with another one behind them. -/
def continued (n : Nat) : List UInt8 := ((Nat.digits 128 n).map fun d => UInt8.ofNat (128 + d)).reverse

def encode (n : Nat) : List UInt8 := continued (n / 128) ++ [UInt8.ofNat (n % 128)]

theorem value_concat (data : List UInt8) (b : UInt8) : value (data ++ [b]) = value data * 128 + b.toNat % 128 := by
  rw [value, List.foldl_append]
  rfl

theorem toNat_continued {d : Nat} (small : d < 128) : (UInt8.ofNat (128 + d)).toNat = 128 + d := by
  rw [UInt8.toNat_ofNat']
  omega

theorem toNat_last (n : Nat) : (UInt8.ofNat (n % 128)).toNat = n % 128 := by
  rw [UInt8.toNat_ofNat']
  omega

theorem value_continued (n : Nat) : value (continued n) = n := by
  have digits (ds : List Nat) (small : ∀ d ∈ ds, d < 128) :
      value (ds.map fun d => UInt8.ofNat (128 + d)).reverse = Nat.ofDigits 128 ds := by
    induction ds with
    | nil => rfl
    | cons d ds inductionHypothesis =>
        have digit := small d List.mem_cons_self
        have rest := inductionHypothesis fun d member => small d (List.mem_cons_of_mem _ member)
        rw [List.map_cons, List.reverse_cons, value_concat, rest, toNat_continued digit, Nat.ofDigits_cons]
        omega
  rw [continued, digits _ fun d member => Nat.digits_lt_base (by decide) member, Nat.ofDigits_digits]

theorem value_encode (n : Nat) : value (encode n) = n := by
  rw [encode, value_concat, value_continued, toNat_last]
  omega

theorem high_of_mem_continued {n : Nat} {b : UInt8} (member : b ∈ continued n) : 128 ≤ b.toNat := by
  obtain ⟨d, digit, rfl⟩ := List.mem_map.mp (List.mem_reverse.mp member)
  rw [toNat_continued (Nat.digits_lt_base (by decide) digit)]
  omega

theorem encode_of_lt {n : Nat} (small : n < 128) : encode n = [UInt8.ofNat n] := by
  have none : continued (n / 128) = [] := by
    rw [Nat.div_eq_of_lt small]
    rfl
  rw [encode, none, Nat.mod_eq_of_lt small]
  rfl

/-- A number of more than seven bits begins with a byte that has another one behind it. -/
theorem encode_of_le {n : Nat} (large : 128 ≤ n) :
    ∃ b rest, encode n = b :: rest ∧ 128 ≤ b.toNat := by
  have some : continued (n / 128) ≠ [] := by
    intro none
    have number := value_continued (n / 128)
    rw [none] at number
    have zero : n / 128 = 0 := number.symm
    omega
  obtain ⟨b, rest, shape⟩ := List.exists_cons_of_ne_nil some
  refine ⟨b, rest ++ [UInt8.ofNat (n % 128)], ?_, ?_⟩
  · rw [encode, shape, List.cons_append]
  · apply @high_of_mem_continued (n / 128)
    rw [shape]
    exact List.mem_cons_self

end HederaSdk.Library.Base128
