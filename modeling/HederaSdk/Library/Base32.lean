import HederaSdk.Library.BigEndian

/-!
# Texts of base 32

Every five bits of the data are a letter; zeros fill up the last one. The length of the
text tells the length of the data, so the text is read as the data.
-/

namespace HederaSdk.Library.Base32

/-- The lowest digits of a number, the most significant first. -/
def digits : Nat → Nat → List Nat
  | 0, _ => []
  | length + 1, n => digits length (n / 32) ++ [n % 32]

def number (ds : List Nat) : Nat := ds.foldl (fun n d => 32 * n + d) 0

@[simp] theorem length_digits (length n : Nat) : (digits length n).length = length := by
  induction length generalizing n with
  | zero => rfl
  | succ length inductionHypothesis => simp [digits, inductionHypothesis]

theorem lt_of_mem_digits {length n d : Nat} (member : d ∈ digits length n) : d < 32 := by
  induction length generalizing n with
  | zero => cases member
  | succ length inductionHypothesis =>
      rcases List.mem_append.mp member with front | last
      · exact inductionHypothesis front
      · rw [List.mem_singleton.mp last]
        exact Nat.mod_lt _ (by decide)

theorem number_digits (length n : Nat) : number (digits length n) = n % 32 ^ length := by
  induction length generalizing n with
  | zero => simp [digits, number, Nat.mod_one]
  | succ length inductionHypothesis =>
      have front : (digits length (n / 32)).foldl (fun n d => 32 * n + d) 0 = n / 32 % 32 ^ length :=
        inductionHypothesis (n / 32)
      rw [digits, number, List.foldl_append, front, pow_succ', Nat.mod_mul]
      exact Nat.add_comm _ _

def alphabet : List Char := "ABCDEFGHIJKLMNOPQRSTUVWXYZ234567".toList

def letter (d : Nat) : Char := alphabet.getD d 'A'

def letterValue (c : Char) : Nat := alphabet.idxOf c

theorem letterValue_letter {d : Nat} (small : d < 32) : letterValue (letter d) = d := by
  have all : ∀ d : Fin 32, letterValue (letter d) = d := by decide
  exact all ⟨d, small⟩

def encode (data : List UInt8) : List Char :=
  let length := (8 * data.length + 4) / 5
  (digits length (BigEndian.value data * 2 ^ (5 * length - 8 * data.length))).map letter

def decode (text : List Char) : List UInt8 :=
  let length := 5 * text.length / 8
  BigEndian.encode length (number (text.map letterValue) / 2 ^ (5 * text.length - 8 * length))

theorem length_encode (data : List UInt8) : (encode data).length = (8 * data.length + 4) / 5 := by
  simp [encode]

theorem decode_encode (data : List UInt8) : decode (encode data) = data := by
  have length : 5 * ((8 * data.length + 4) / 5) / 8 = data.length := by omega
  have bits : 8 * data.length ≤ 5 * ((8 * data.length + 4) / 5) := by omega
  have read : (encode data).map letterValue = digits ((8 * data.length + 4) / 5)
      (BigEndian.value data * 2 ^ (5 * ((8 * data.length + 4) / 5) - 8 * data.length)) := by
    rw [encode, List.map_map]
    apply Eq.trans _ (List.map_id _)
    exact List.map_congr_left fun d member => letterValue_letter (lt_of_mem_digits member)
  have fits : BigEndian.value data * 2 ^ (5 * ((8 * data.length + 4) / 5) - 8 * data.length) <
      32 ^ ((8 * data.length + 4) / 5) := by
    have small := BigEndian.value_lt data
    have powers : 256 ^ data.length * 2 ^ (5 * ((8 * data.length + 4) / 5) - 8 * data.length) =
        32 ^ ((8 * data.length + 4) / 5) := by
      rw [show 256 = 2 ^ 8 from rfl, show 32 = 2 ^ 5 from rfl, ← pow_mul, ← pow_mul, ← pow_add]
      congr 1
      omega
    rw [← powers]
    exact Nat.mul_lt_mul_of_pos_right small (Nat.pow_pos (by decide))
  rw [decode, length_encode, length, read, number_digits, Nat.mod_eq_of_lt fits,
    Nat.mul_div_cancel _ (Nat.pow_pos (by decide))]
  exact BigEndian.encode_value data

end HederaSdk.Library.Base32
