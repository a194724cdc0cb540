import HederaSdk.EntityId

/-!
# Reading hex text back

Two digits make a byte, so the text of bytes is read as the bytes.
-/

namespace HederaSdk

theorem hexValue_hexDigit {n : Nat} (small : n < 16) : hexValue (hexDigit n) = some n := by
  have all : ∀ n : Fin 16, hexValue (hexDigit n) = some n.val := by decide
  exact all ⟨n, small⟩

theorem hexDigit_ne_x {n : Nat} (small : n < 16) : hexDigit n ≠ 'x' := by
  have all : ∀ n : Fin 16, hexDigit n ≠ 'x' := by decide
  exact all ⟨n, small⟩

theorem decodePairs_digits (data : Bytes) :
    decodePairs (data.flatMap fun b => [hexDigit (b.toNat / 16), hexDigit (b.toNat % 16)]) = data := by
  induction data with
  | nil => rfl
  | cons b rest inductionHypothesis =>
      have digit := b.toNat_lt
      have same : UInt8.ofNat (16 * (b.toNat / 16) + b.toNat % 16) = b := by
        rw [Nat.div_add_mod, UInt8.ofNat_toNat]
      rw [List.flatMap_cons, List.cons_append, List.cons_append, List.nil_append, decodePairs,
        hexValue_hexDigit (by omega), hexValue_hexDigit (by omega)]
      simp only
      rw [same, inductionHypothesis]

@[simp] theorem hexDecode_hexEncode (data : Bytes) : hexDecode (hexEncode data) = data := by
  rw [hexDecode, hexEncode, String.toList_ofList]
  split
  · rename_i shape
    cases data with
    | nil => cases shape
    | cons b rest =>
        rw [List.flatMap_cons, List.cons_append, List.cons_append, List.cons.injEq,
          List.cons.injEq] at shape
        exact absurd shape.2.1 (hexDigit_ne_x (Nat.mod_lt _ (by decide)))
  · exact decodePairs_digits data

end HederaSdk
