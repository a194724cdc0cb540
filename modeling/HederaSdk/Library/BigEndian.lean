import Mathlib.Data.Nat.Digits.Lemmas

/-!
# Big-endian numbers

`value` reads bytes as the digits of a number, the most significant first. `encode` writes
a number with a given number of bytes and `minimal` with as few as it needs. Bytes of one
length are one number's only when they are the same.
-/

namespace HederaSdk.Library.BigEndian

def value (data : List UInt8) : Nat := data.foldl (fun n b => 256 * n + b.toNat) 0

/-- The lowest bytes of a number. -/
def encode : Nat → Nat → List UInt8
  | 0, _ => []
  | length + 1, n => encode length (n / 256) ++ [.ofNat n]

def minimal (n : Nat) : List UInt8 := ((Nat.digits 256 n).map UInt8.ofNat).reverse

@[simp] theorem value_nil : value [] = 0 := rfl

theorem value_concat (data : List UInt8) (b : UInt8) : value (data ++ [b]) = 256 * value data + b.toNat := by
  rw [value, List.foldl_append]
  rfl

theorem value_append (first second : List UInt8) :
    value (first ++ second) = value first * 256 ^ second.length + value second := by
  induction second using List.reverseRecOn with
  | nil => simp
  | append_singleton second b inductionHypothesis =>
      rw [← List.append_assoc, value_concat, inductionHypothesis, value_concat, List.length_append,
        List.length_singleton, pow_succ]
      ring

@[simp] theorem value_replicate (length : Nat) : value (List.replicate length 0) = 0 := by
  induction length with
  | zero => rfl
  | succ length inductionHypothesis =>
      rw [List.replicate_succ', value_concat, inductionHypothesis]
      rfl

/-- Zeros in front do not count. -/
theorem value_replicate_append (length : Nat) (data : List UInt8) :
    value (List.replicate length 0 ++ data) = value data := by
  rw [value_append, value_replicate, zero_mul, zero_add]

theorem value_lt (data : List UInt8) : value data < 256 ^ data.length := by
  induction data using List.reverseRecOn with
  | nil => simp
  | append_singleton data b inductionHypothesis =>
      have digit := b.toNat_lt
      rw [value_concat, List.length_append, List.length_singleton, pow_succ]
      omega

theorem value_injective {first second : List UInt8} (lengths : first.length = second.length)
    (same : value first = value second) : first = second := by
  induction first using List.reverseRecOn generalizing second with
  | nil => exact (List.length_eq_zero_iff.mp lengths.symm).symm
  | append_singleton first b inductionHypothesis =>
      rcases second.eq_nil_or_concat with rfl | ⟨second, b', rfl⟩
      · simp at lengths
      · rw [List.concat_eq_append] at lengths same ⊢
        rw [value_concat, value_concat] at same
        have digit := b.toNat_lt
        have digit' := b'.toNat_lt
        have last : b = b' := UInt8.toNat_inj.mp (by omega)
        have shorter : first.length = second.length := by simpa using lengths
        rw [inductionHypothesis shorter (by omega), last]

@[simp] theorem length_encode (length n : Nat) : (encode length n).length = length := by
  induction length generalizing n with
  | zero => rfl
  | succ length inductionHypothesis => simp [encode, inductionHypothesis]

theorem value_encode (length n : Nat) : value (encode length n) = n % 256 ^ length := by
  induction length generalizing n with
  | zero => simp [encode, Nat.mod_one]
  | succ length inductionHypothesis =>
      rw [encode, value_concat, inductionHypothesis, pow_succ', Nat.mod_mul, UInt8.toNat_ofNat']
      omega

theorem value_encode_of_lt {length n : Nat} (small : n < 256 ^ length) : value (encode length n) = n := by
  rw [value_encode, Nat.mod_eq_of_lt small]

/-- The lower bytes are those of a shorter number. -/
theorem drop_encode {length k : Nat} (inside : k ≤ length) (n : Nat) :
    (encode length n).drop k = encode (length - k) n := by
  induction length generalizing n with
  | zero =>
      obtain rfl := Nat.le_zero.mp inside
      rfl
  | succ length inductionHypothesis =>
      rcases Nat.le_succ_iff.mp inside with shorter | rfl
      · have size : length + 1 - k = length - k + 1 := by omega
        rw [size, encode, encode, List.drop_append_of_le_length (by rwa [length_encode]), inductionHypothesis shorter]
      · rw [Nat.sub_self]
        apply List.drop_of_length_le
        rw [length_encode]

theorem encode_value (data : List UInt8) : encode data.length (value data) = data := by
  apply value_injective (length_encode _ _)
  exact value_encode_of_lt (value_lt data)

theorem value_minimal (n : Nat) : value (minimal n) = n := by
  have digits (ds : List Nat) (small : ∀ d ∈ ds, d < 256) :
      value (ds.map UInt8.ofNat).reverse = Nat.ofDigits 256 ds := by
    induction ds with
    | nil => rfl
    | cons d ds inductionHypothesis =>
        have digit : (UInt8.ofNat d).toNat = d := by
          rw [UInt8.toNat_ofNat']
          exact Nat.mod_eq_of_lt (small d List.mem_cons_self)
        rw [List.map_cons, List.reverse_cons, value_concat,
          inductionHypothesis fun d member => small d (List.mem_cons_of_mem _ member), digit,
          Nat.ofDigits_cons]
        exact add_comm _ _
  rw [minimal, digits _ fun d member => Nat.digits_lt_base (by decide) member, Nat.ofDigits_digits]

theorem length_minimal_le_iff {length n : Nat} : (minimal n).length ≤ length ↔ n < 256 ^ length := by
  rw [minimal, List.length_reverse, List.length_map]
  exact Nat.digits_length_le_iff (by decide) n

/-- The fixed number of bytes is reached by zeros in front. -/
theorem encode_eq_minimal {length n : Nat} (fits : n < 256 ^ length) :
    encode length n = List.replicate (length - (minimal n).length) 0 ++ minimal n := by
  have short := length_minimal_le_iff.mpr fits
  apply value_injective
  · rw [length_encode, List.length_append, List.length_replicate]
    omega
  · rw [value_encode_of_lt fits, value_replicate_append, value_minimal]

end HederaSdk.Library.BigEndian
