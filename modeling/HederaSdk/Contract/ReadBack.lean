import HederaSdk.Contract.Encoding
import HederaSdk.Contract.FunctionResult
import Mathlib.Tactic.FinCases

/-!
# Reading what was built

The tuple of the arguments has a slot for each. A getter finds a static value in the slot of its
index and a text behind the offset in the slot, and gets the value that was added.
-/

namespace HederaSdk

open Library HeadTail

/-- A number with few bits is found by them. -/
theorem signed_emod {bits : Nat} {n : Int} (positive : 0 < bits) (least : -2 ^ (bits - 1) ≤ n)
    (most : n < 2 ^ (bits - 1)) : signed bits (n % 2 ^ bits).toNat = n := by
  obtain ⟨bits, rfl⟩ : ∃ few, bits = few + 1 := ⟨bits - 1, by omega⟩
  rw [Nat.add_sub_cancel] at least most
  have double : (2 : Int) ^ (bits + 1) = 2 * 2 ^ bits := pow_succ' 2 bits
  have half : ((2 ^ bits : Nat) : Int) = 2 ^ bits := Nat.cast_pow 2 bits
  rw [signed, Nat.add_sub_cancel, double]
  rcases Int.lt_or_le n 0 with negative | positive
  · have mod : n % (2 * 2 ^ bits) = n + 2 * 2 ^ bits := by
      rw [← Int.add_emod_right]
      exact Int.emod_eq_of_lt (by omega) (by omega)
    rw [mod, if_neg (by omega)]
    omega
  · rw [Int.emod_eq_of_lt positive (by omega), if_pos (by omega)]
    omega

theorem toNat_emod_mod (n : Int) {few many : Nat} (fewer : few ≤ many) :
    (n % 2 ^ many).toNat % 2 ^ few = (n % 2 ^ few).toNat := by
  have positive (bits : Nat) : 0 ≤ n % 2 ^ bits := Int.emod_nonneg n (pow_ne_zero bits (by decide))
  have divides : (2 : Int) ^ few ∣ 2 ^ many := pow_dvd_pow 2 fewer
  zify
  rw [Int.toNat_of_nonneg (positive many), Int.toNat_of_nonneg (positive few), Int.emod_emod_of_dvd n divides]

theorem width_of_small {width : Fin 32} (small : width.1 < 4) : width = 0 ∨ width = 1 ∨ width = 2 ∨ width = 3 := by
  decide +revert

namespace ContractFunctionResult

variable {platform : ResultPlatform} {result : ContractFunctionResult} {index : Nat}

theorem Holds.address_bytes {data : Bytes} (holds : result.Holds index (zeros 12 ++ data)) :
    (result.bytes.take (position (some index) 32)).drop (position (some index) 12) = data := by
  have slot := holds.slotBytes
  have window : position (some index) 12 = position (some index) 0 + 12 := rfl
  rw [ContractFunctionResult.slotBytes] at slot
  rw [window, ← List.drop_drop, slot]
  exact List.drop_left' (length_zeros 12)

section Numbers

variable {n : Nat}

theorem Holds.byte_number (holds : result.Holds index (BigEndian.encode 32 n)) :
    result.bytes[position (some index) 31]? = some (.ofNat n) := by
  rw [holds.byte (by decide), BigEndian.encode, List.getElem?_append_right (by rw [BigEndian.length_encode]),
    BigEndian.length_encode]
  rfl

theorem Holds.view_number (holds : result.Holds index (BigEndian.encode 32 n)) {size window : Nat}
    (whole : window + size = 32) :
    result.view size (position (some index) window : Nat) = .ok (n % 256 ^ size) := by
  have rest : 32 - window = size := by omega
  rw [holds.view whole, BigEndian.drop_encode (by omega), rest, BigEndian.value_encode]

theorem Holds.viewInt32 (holds : result.Holds index (BigEndian.encode 32 n)) :
    result.viewInt32 (position (some index) 28 : Nat) = .ok (signed 32 (n % 2 ^ 32)) := by
  rw [ContractFunctionResult.viewInt32, holds.view_number rfl]
  rfl

theorem Holds.readUint (holds : result.Holds index (BigEndian.encode 32 n)) {window : Nat} (inside : window < 32)
    (small : n < 256 ^ (32 - window)) :
    result.readUint (some index) window = .ok (.bigNumber (some (n : ℚ))) := by
  have slot : ((result.slotBytes (some index)).take 32).drop window = BigEndian.encode (32 - window) n := by
    rw [holds.slotBytes, List.take_of_length_le (Nat.le_of_eq holds.length), BigEndian.drop_encode (by omega)]
  have some : BigEndian.encode (32 - window) n ≠ [] := by
    apply List.ne_nil_of_length_pos
    rw [BigEndian.length_encode]
    omega
  rw [ContractFunctionResult.readUint, slot, hexNumber, if_neg some, BigEndian.value_encode_of_lt small]

theorem getUint_of_large {width : Fin 32} (large : 4 ≤ width.1) (holds : result.Holds index (BigEndian.encode 32 n)) :
    result.getUint (some index) width = result.readUint (some index) (31 - width.1) := by
  have whole : result.getUint256 (some index) = result.readUint (some index) 0 := by
    unfold getUint256 ContractFunctionResult.readUint
    rw [List.drop_zero, holds.slotBytes, List.take_of_length_le (Nat.le_of_eq holds.length)]
  fin_cases width <;> first | exact absurd large (by decide) | exact whole | rfl

/-- A number without a sign. -/
theorem Holds.getUint {width : Fin 32} (holds : result.Holds index (BigEndian.encode 32 n))
    (most : n < 2 ^ ArgumentType.bits width) :
    result.getUint (some index) width = .ok (if width.1 < 4 then .number n else .bigNumber (some (n : ℚ))) := by
  rcases Nat.lt_or_ge width.1 4 with small | large
  · have word : n < 2 ^ 32 := by
      apply most.trans_le
      apply Nat.pow_le_pow_right (by decide)
      rw [ArgumentType.bits]
      omega
    have four : result.viewUint32 (some index) = .ok (.number n) := by
      rw [viewUint32, holds.view_number rfl]
      change Except.ok (ResultValue.number ((n % 2 ^ 32 : Nat) : Int)) = _
      rw [Nat.mod_eq_of_lt word]
    rw [if_pos small]
    rcases width_of_small small with rfl | rfl | rfl | rfl
    · have byte : (UInt8.ofNat n).toNat = n := by
        rw [UInt8.toNat_ofNat']
        exact Nat.mod_eq_of_lt most
      change result.getUint8 (some index) = _
      rw [getUint8, holds.byte_number]
      simp only [byte]
    · exact four
    · exact four
    · exact four
  · have bytes : 256 ^ (width.1 + 1) = 2 ^ ArgumentType.bits width := by
      rw [ArgumentType.bits, pow_mul]
      rfl
    have window : 32 - (31 - width.1) = width.1 + 1 := by omega
    rw [if_neg (by omega), getUint_of_large large holds]
    apply holds.readUint (by omega)
    rw [window, bytes]
    exact most

end Numbers

section Signed

variable {n : Int}

theorem getInt_of_large {width : Fin 32} (large : 4 ≤ width.1) :
    result.getInt platform (some index) width = result.decodeInt platform (some index) width := by
  fin_cases width <;> first | exact absurd large (by decide) | rfl

/-- A number with a sign. -/
theorem Holds.getInt (decodes : platform.DecodesIntegers) {width : Fin 32}
    (holds : result.Holds index (BigEndian.encode 32 (n % 2 ^ 256).toNat))
    (least : -2 ^ (ArgumentType.bits width - 1) ≤ n) (most : n < 2 ^ (ArgumentType.bits width - 1)) :
    result.getInt platform (some index) width =
      .ok (if width.1 < 4 then .number n else .bigNumber (some (n : ℚ))) := by
  rcases Nat.lt_or_ge width.1 4 with small | large
  · have wider : (2 : Int) ^ (ArgumentType.bits width - 1) ≤ 2 ^ 31 := by
      apply pow_le_pow_right₀ (by decide)
      rw [ArgumentType.bits]
      omega
    have four : (result.viewInt32 (position (some index) 28 : Nat)).map ResultValue.number = .ok (.number n) := by
      rw [holds.viewInt32, toNat_emod_mod n (by decide), signed_emod (by decide) (by omega) (by omega)]
      rfl
    rw [if_pos small]
    rcases width_of_small small with rfl | rfl | rfl | rfl
    · change result.getInt8 (some index) = _
      rw [getInt8, holds.view_number rfl, pow_one, show 256 = 2 ^ 8 from rfl, toNat_emod_mod n (by decide)]
      exact congrArg (fun n => Except.ok (ResultValue.number n)) (signed_emod (by decide) least most)
    · exact four
    · exact four
    · exact four
  · rw [if_neg (by omega), getInt_of_large large, decodeInt, holds.slotBytes, decodes width n least most]
    rfl

end Signed

/-! ## Texts -/

/-- A text at an offset. -/
structure HoldsText (result : ContractFunctionResult) (index : Nat) (data : Bytes) : Prop where
  small : result.bytes.length < 2147483648
  offset : ∃ before after, result.bytes = before ++ ((BigEndian.encode 32 data.length ++ padRight data) ++ after) ∧
    result.Holds index (BigEndian.encode 32 before.length)

theorem HoldsText.getBytes {data : Bytes} (holds : result.HoldsText index data) :
    result.getBytes (some index) = .ok data := by
  obtain ⟨small, before, after, bytes, slot⟩ := holds
  have whole : result.bytes.length =
      before.length + 32 + data.length + (zeros ((32 - data.length % 32) % 32)).length + after.length := by
    rw [bytes, padRight]
    simp only [List.length_append, BigEndian.length_encode]
    omega
  have word {k : Nat} (inside : k < 2147483648) : signed 32 (k % 2 ^ 32) = k := by
    rw [Nat.mod_eq_of_lt (by omega)]
    exact if_pos inside
  have offset : result.viewInt32 (position (some index) 28 : Nat) = .ok (before.length : Int) := by
    rw [slot.viewInt32, word (by omega)]
  have split : result.bytes = (before ++ (BigEndian.encode 32 data.length).take 28) ++
      ((BigEndian.encode 32 data.length).drop 28 ++ (padRight data ++ after)) := by
    rw [bytes]
    simp only [List.append_assoc]
    rw [← List.append_assoc (List.take 28 _), List.take_append_drop]
  have start : (before ++ (BigEndian.encode 32 data.length).take 28).length = before.length + 28 := by
    rw [List.length_append, List.length_take, BigEndian.length_encode]
    rfl
  have len : result.viewInt32 ((before.length : Int) + 28) = .ok (data.length : Int) := by
    have read := view_at split
    rw [start, BigEndian.drop_encode (by decide), BigEndian.length_encode, BigEndian.value_encode] at read
    rw [ContractFunctionResult.viewInt32]
    push_cast at read
    rw [read]
    exact congrArg Except.ok (word (by omega))
  have data' : subarray result.bytes ((before.length : Int) + 32) ((before.length : Int) + 32 + data.length) = data := by
    have front : result.bytes = ((before ++ BigEndian.encode 32 data.length) ++ data) ++
        (zeros ((32 - data.length % 32) % 32) ++ after) := by
      rw [bytes, padRight]
      simp only [List.append_assoc]
    have first : subarrayPlace result.bytes.length ((before.length : Int) + 32) =
        (before ++ BigEndian.encode 32 data.length).length := by
      rw [subarrayPlace, if_neg (by omega), List.length_append, BigEndian.length_encode]
      omega
    have last : subarrayPlace result.bytes.length ((before.length : Int) + 32 + data.length) =
        ((before ++ BigEndian.encode 32 data.length) ++ data).length := by
      rw [subarrayPlace, if_neg (by omega), List.length_append, List.length_append, BigEndian.length_encode]
      omega
    rw [subarray, first, last, front, List.take_left, List.drop_left]
  rw [ContractFunctionResult.getBytes, offset]
  change (result.viewInt32 ((before.length : Int) + 28)).bind _ = _
  rw [len]
  exact congrArg Except.ok data'

end ContractFunctionResult

namespace SolidityScalar

/-- What the getter of its type gets of a value. -/
def result : SolidityScalar → Option ResultValue
  | uint width n _ => some (if width.1 < 4 then .number n else .bigNumber (some (n : ℚ)))
  | int width n _ _ => some (if width.1 < 4 then .number n else .bigNumber (some (n : ℚ)))
  | bool b => some (.boolean b)
  | address data _ => some (.string (hexEncode data))
  | func .. => none
  | bytes32 data _ => some (.bytes data)
  | bytes data => some (.bytes data)
  | string text => some (.string text)

end SolidityScalar

namespace ContractFunctionResult

variable {platform : ResultPlatform} {parts : List HeadTail.Part} {i : Nat} {part : HeadTail.Part}

theorem holds_head (fits : ∀ part ∈ parts, abiLayout.Fits part) (found : parts[i]? = some part) :
    Holds ⟨abiLayout.encode parts⟩ i (abiLayout.head (abiLayout.offsetOf parts i) part) := by
  obtain ⟨before, after, laid, place⟩ := Layout.encode_eq_head fits found
  refine ⟨Layout.length_head (fits part (List.mem_of_getElem? found)) _, before, after, ?_, place⟩
  rw [← List.append_assoc]
  exact laid

/-- A text stands behind all slots. -/
theorem holdsText_tail (fits : ∀ part ∈ parts, abiLayout.Fits part) (found : parts[i]? = some part)
    (small : (abiLayout.encode parts).length < 2147483648) {data : Bytes} (dynamic : part.dynamic = true)
    (bytes : part.bytes = BigEndian.encode 32 data.length ++ padRight data) :
    HoldsText ⟨abiLayout.encode parts⟩ i data := by
  obtain ⟨before, after, laid, place⟩ := Layout.encode_eq_tail fits found
  have tail : part.tail = part.bytes := if_pos dynamic
  have head : abiLayout.head (abiLayout.offsetOf parts i) part = BigEndian.encode 32 (abiLayout.offsetOf parts i) :=
    if_pos dynamic
  have slot := holds_head fits found
  rw [head, ← place] at slot
  refine ⟨small, before, after, ?_, slot⟩
  rw [← bytes, ← tail, ← List.append_assoc]
  exact laid

/-- Every value is found at its index. -/
theorem get_encode (decodes : platform.DecodesIntegers) {values : List SolidityValue}
    (small : (abiLayout.encode (values.map SolidityValue.writtenPart)).length < 2147483648)
    {scalar : SolidityScalar} (found : values[i]? = some (.scalar scalar)) :
    get platform ⟨abiLayout.encode (values.map SolidityValue.writtenPart)⟩ i scalar.type = scalar.result.map .ok := by
  have fits : ∀ part ∈ values.map SolidityValue.writtenPart, abiLayout.Fits part :=
    List.forall_mem_map.mpr fun value _ => ContractFunctionParameters.fits_writtenPart value
  have placed : (values.map SolidityValue.writtenPart)[i]? = some scalar.writtenPart := by
    rw [List.getElem?_map, found]
    rfl
  have slot := holds_head fits placed
  cases scalar with
  | uint width n most => exact congrArg some (slot.getUint most)
  | int width n least most => exact congrArg some (slot.getInt decodes least most)
  | bool b =>
      have byte := Holds.byte_number slot
      apply congrArg some
      change Except.ok (ResultValue.boolean _) = _
      rw [byte]
      cases b <;> rfl
  | address data length =>
      exact congrArg (fun data => some (Except.ok (ResultValue.string (hexEncode data)))) slot.address_bytes
  | func contract selector length length' => rfl
  | bytes32 data length => exact congrArg (fun slot => some (Except.ok (ResultValue.bytes slot))) slot.slotBytes
  | bytes data =>
      have text := holdsText_tail fits placed small rfl rfl
      exact congrArg (fun read => some (read.map ResultValue.bytes)) text.getBytes
  | string text =>
      have read := holdsText_tail fits placed small rfl rfl
      apply congrArg some
      change (getBytes _ _).map _ = _
      rw [read.getBytes]
      change Except.ok (ResultValue.string (utf8Decode text.toUTF8.toList)) = _
      rw [toUTF8_toList, utf8Decode_utf8Encode]

end ContractFunctionResult

namespace ContractFunctionParameters

section Samples

/-- A decoder that keeps the bits of the type. -/
def maskingDecoder : ResultPlatform where
  decodeInteger ty slot :=
    match ty with
    | .int width =>
        .ok (some ((signed (ArgumentType.bits width) (BigEndian.value slot % 2 ^ ArgumentType.bits width) : Int) : ℚ))
    | _ => .error (.error "no integer with a sign")

theorem maskingDecoder_decodes : maskingDecoder.DecodesIntegers := by
  intro width n least most
  have bits : ArgumentType.bits width ≤ 256 := by
    rw [ArgumentType.bits]
    omega
  have positive : 0 < ArgumentType.bits width := by
    rw [ArgumentType.bits]
    omega
  have whole : BigEndian.value (BigEndian.encode 32 (n % 2 ^ 256).toNat) = (n % 2 ^ 256).toNat := by
    apply BigEndian.value_encode_of_lt
    rw [Int.toNat_lt (Int.emod_nonneg n (by decide))]
    exact Int.emod_lt_of_pos n (by decide)
  have masked := signed_emod positive least most
  rw [← toNat_emod_mod n bits, ← whole] at masked
  exact congrArg (fun n : Int => Except.ok (some (n : ℚ))) masked

end Samples

end ContractFunctionParameters

end HederaSdk
