import HederaSdk.Contract.FunctionParameters
import HederaSdk.Library.HeadTail

/-!
# Where arguments are written

The bytes of a call are zeros in the beginning. Slots and the place behind them are filled
argument by argument, and an offset is written with its four low bytes only. As long as no
offset needs more, the bytes are the tuple of the arguments.
-/

namespace HederaSdk

open Library HeadTail

/-- Slots of 32 bytes with big-endian offsets. -/
def abiLayout : Layout where
  slot := 32
  word := BigEndian.encode 32
  length_word n := BigEndian.length_encode 32 n

@[simp] theorem length_zeros (n : Nat) : (zeros n).length = n := List.length_replicate

theorem zeros_add (m n : Nat) : zeros (m + n) = zeros m ++ zeros n := List.replicate_add m n 0

theorem setBytes_middle {before middle after data : Bytes} (length : data.length = middle.length) :
    setBytes (before ++ (middle ++ after)) data before.length = before ++ (data ++ after) := by
  rw [setBytes, List.take_left, length, ← List.append_assoc, ← List.length_append, List.drop_left,
    List.append_assoc]

theorem setAt_middle {before middle after data : Bytes} (length : data.length = middle.length) :
    setAt (before ++ (middle ++ after)) data before.length = .ok (before ++ (data ++ after)) := by
  rw [setAt, if_pos, setBytes_middle length]
  simp only [List.length_append]
  omega

/-- The low four bytes are all of a small number. -/
theorem encode_of_small {n : Nat} (small : n < 4294967296) :
    BigEndian.encode 32 n = zeros 28 ++ BigEndian.encode 4 n := by
  apply BigEndian.value_injective
  · simp
  · rw [BigEndian.value_encode_of_lt (small.trans (by decide)), zeros, BigEndian.value_replicate_append,
      BigEndian.value_encode_of_lt small]

theorem setUint32_slot {n : Nat} (small : n < 4294967296) (before after : Bytes) :
    setUint32 (before ++ (zeros 32 ++ after)) (before.length + 28) n =
      before ++ (BigEndian.encode 32 n ++ after) := by
  have number : ((n : Int) % 4294967296).toNat = n := by omega
  have slot : before ++ (zeros 32 ++ after) = (before ++ zeros 28) ++ (zeros 4 ++ after) := by
    rw [show (32 : Nat) = 28 + 4 from rfl, zeros_add]
    simp only [List.append_assoc]
  have place : before.length + 28 = (before ++ zeros 28).length := by
    rw [List.length_append, length_zeros]
  rw [setUint32, number, slot, place, setBytes_middle (by simp), encode_of_small small]
  simp only [List.append_assoc]

namespace FunctionArgument

def part (argument : FunctionArgument) : HeadTail.Part := ⟨argument.dynamic, argument.value⟩

end FunctionArgument

/-- Bytes filled up with zeros to whole slots. -/
def padRight (bytes : Bytes) : Bytes := bytes ++ zeros ((32 - bytes.length % 32) % 32)

theorem padBytes_eq {par : Bytes} (small : par.length < 4294967296) :
    padBytes par = BigEndian.encode 32 par.length ++ padRight par := by
  have size : (if par.length % 32 ≠ 0 then (par.length / 32 + 1) * 32 + 32 else par.length / 32 * 32 + 32) =
      32 + (par.length + (32 - par.length % 32) % 32) := by
    split <;> omega
  have text := @setBytes_middle (zeros 32) (zeros par.length) (zeros ((32 - par.length % 32) % 32)) par (by simp)
  have header := @setUint32_slot par.length small [] (par ++ zeros ((32 - par.length % 32) % 32))
  rw [length_zeros] at text
  rw [List.nil_append, List.length_nil, Nat.zero_add, List.nil_append] at header
  rw [padBytes, size, zeros_add, zeros_add, text, header, padRight]

namespace ContractFunctionParameters

/-- The arguments from some index on, written into what is still zero. -/
theorem setArguments_eq (id : Bytes) {rest : List FunctionArgument} {slots placed : Bytes} {i offset : Nat}
    (index : slots.length = i * 32) (next : offset = i * 32 + 32 * rest.length + placed.length)
    (fits : ∀ argument ∈ rest, abiLayout.Fits argument.part)
    (small : offset + (tails (rest.map FunctionArgument.part)).length < 4294967296) :
    setArguments id.length rest i offset (id ++ (slots ++ (zeros (32 * rest.length) ++
        (placed ++ zeros (tails (rest.map FunctionArgument.part)).length)))) =
      .ok (id ++ (slots ++ (abiLayout.heads offset (rest.map FunctionArgument.part) ++
        (placed ++ tails (rest.map FunctionArgument.part))))) := by
  induction rest generalizing slots placed i offset with
  | nil => simp [setArguments, Layout.heads, zeros]
  | cons argument rest inductionHypothesis =>
      have others := fun other member => fits other (List.mem_cons_of_mem _ member)
      have reserved : zeros (32 * (argument :: rest).length) = zeros 32 ++ zeros (32 * rest.length) := by
        rw [← zeros_add, List.length_cons, Nat.mul_add_one, Nat.add_comm]
      rw [List.length_cons] at next
      rw [List.map_cons, tails_cons, List.length_append] at small
      rw [reserved, List.map_cons, Layout.heads, tails_cons, List.length_append, zeros_add, setArguments]
      cases dynamic : argument.dynamic with
      | true =>
          have tail : argument.part.tail = argument.value := if_pos dynamic
          have head : abiLayout.head offset argument.part = BigEndian.encode 32 offset := if_pos dynamic
          rw [tail] at small
          rw [if_pos rfl, tail, head]
          have written := @setUint32_slot offset (by omega) (id ++ slots) (zeros (32 * rest.length) ++
            (placed ++ (zeros argument.value.length ++ zeros (tails (rest.map FunctionArgument.part)).length)))
          have placedAt := @setAt_middle (id ++ (slots ++ (BigEndian.encode 32 offset ++
            (zeros (32 * rest.length) ++ placed)))) (zeros argument.value.length)
            (zeros (tails (rest.map FunctionArgument.part)).length) argument.value (by simp)
          have recursive := @inductionHypothesis (slots ++ BigEndian.encode 32 offset) (placed ++ argument.value) (i + 1)
            (offset + argument.value.length) (by simp [index]; ring)
            (by rw [List.length_append]; omega) others (by omega)
          have slot : id.length + i * 32 + 28 = (id ++ slots).length + 28 := by rw [List.length_append, index]
          have place : offset % 4294967296 + id.length = (id ++ (slots ++ (BigEndian.encode 32 offset ++
              (zeros (32 * rest.length) ++ placed)))).length := by
            rw [Nat.mod_eq_of_lt (by omega)]
            simp only [List.length_append, BigEndian.length_encode, length_zeros, index]
            omega
          simp only [List.append_assoc] at written placedAt recursive ⊢
          rw [slot, written, place, placedAt, Except.bind, recursive]
      | false =>
          have tail : argument.part.tail = [] := if_neg (by simp [FunctionArgument.part, dynamic])
          have head : abiLayout.head offset argument.part = argument.value :=
            if_neg (by simp [FunctionArgument.part, dynamic])
          have full : argument.value.length = 32 := fits argument List.mem_cons_self dynamic
          rw [tail] at small
          rw [if_neg Bool.false_ne_true, tail, head]
          have written := @setAt_middle (id ++ slots) (zeros 32) (zeros (32 * rest.length) ++
            (placed ++ zeros (tails (rest.map FunctionArgument.part)).length)) argument.value (by simp [full])
          have recursive := @inductionHypothesis (slots ++ argument.value) placed (i + 1) offset
            (by simp [index, full]; ring) (by omega) others (by simpa using small)
          have slot : id.length + i * 32 = (id ++ slots).length := by rw [List.length_append, index]
          simp only [List.append_assoc, List.length_nil, zeros, List.replicate_zero, List.nil_append,
            Nat.add_zero] at written recursive ⊢
          rw [slot, written, Except.bind, recursive]

/-- All the arguments behind what stands in front of them. -/
theorem setArguments_all (id : Bytes) {arguments : List FunctionArgument}
    (fits : ∀ argument ∈ arguments, abiLayout.Fits argument.part)
    (small : (abiLayout.encode (arguments.map FunctionArgument.part)).length < 4294967296) :
    setArguments id.length arguments 0 (32 * arguments.length)
        (id ++ zeros (abiLayout.encode (arguments.map FunctionArgument.part)).length) =
      .ok (id ++ abiLayout.encode (arguments.map FunctionArgument.part)) := by
  have parts : ∀ part ∈ arguments.map FunctionArgument.part, abiLayout.Fits part := by
    simpa using fits
  have length : (abiLayout.encode (arguments.map FunctionArgument.part)).length =
      32 * arguments.length + (tails (arguments.map FunctionArgument.part)).length := by
    rw [Layout.length_encode parts, List.length_map]
    rfl
  have written := @setArguments_eq id arguments [] [] 0 (32 * arguments.length) rfl (by simp) fits (by omega)
  rw [length, zeros_add, Layout.encode, List.length_map]
  exact written

end ContractFunctionParameters

/-! ## Arrays -/

theorem setStatic_eq (values : List Bytes) (i offset : Nat) (value : Bytes) :
    setStatic values i value =
      ContractFunctionParameters.setArguments 32 (values.map (⟨false, ·⟩)) i offset value := by
  induction values generalizing i value with
  | nil => rfl
  | cons e rest inductionHypothesis =>
      rw [List.map_cons, setStatic, ContractFunctionParameters.setArguments, if_neg Bool.false_ne_true, Nat.add_comm]
      exact congrArg _ (funext fun value => inductionHypothesis (i + 1) value)

theorem setDynamic_eq (values : List Bytes) (i offset : Nat) (value : Bytes) :
    setDynamic values i offset value =
      ContractFunctionParameters.setArguments 32 (values.map (⟨true, ·⟩)) i offset value := by
  induction values generalizing i offset value with
  | nil => rfl
  | cons e rest inductionHypothesis =>
      have place : (i + 1) * 32 + 28 = 32 + i * 32 + 28 := by ring
      rw [List.map_cons, setDynamic, ContractFunctionParameters.setArguments, if_pos rfl, place]
      exact congrArg _ (funext fun value => inductionHypothesis (i + 1) _ value)

section Array

variable {ty : ArgumentType} {values : List Bytes}

theorem fits_values (fits : isText ty = false → ∀ value ∈ values, value.length = 32) :
    ∀ part ∈ values.map (HeadTail.Part.mk (isText ty)), abiLayout.Fits part := by
  intro part member static
  obtain ⟨value, inValues, rfl⟩ := List.mem_map.mp member
  exact fits static value inValues

/-- The bytes that are reserved for the values. -/
theorem length_encode_values (fits : isText ty = false → ∀ value ∈ values, value.length = 32) :
    (abiLayout.encode (values.map (HeadTail.Part.mk (isText ty)))).length =
      if isText ty then values.length * 32 + (values.map List.length).sum else (values.map List.length).sum := by
  rw [Layout.length_encode (fits_values fits), List.length_map, tails, List.flatMap_map]
  change 32 * values.length + _ = _
  cases text : isText ty with
  | true =>
      have tail : (fun value => (HeadTail.Part.mk true value).tail) = fun value => value := funext fun value => if_pos rfl
      rw [tail, List.length_flatMap, if_pos rfl, Nat.mul_comm]
  | false =>
      have tail : (fun value => (HeadTail.Part.mk false value).tail) = fun _ => [] :=
        funext fun value => if_neg Bool.false_ne_true
      have sum : (values.map List.length).sum = values.length * 32 := by
        rw [List.map_congr_left (fits text), List.map_const', List.sum_replicate_nat]
      rw [tail, List.length_flatMap, if_neg Bool.false_ne_true, sum]
      simp [Nat.mul_comm]

/-- An array is the number of its values, and the tuple of them. -/
theorem arrayBytes_eq (fits : isText ty = false → ∀ value ∈ values, value.length = 32)
    (small : (abiLayout.encode (values.map (HeadTail.Part.mk (isText ty)))).length < 4294967296) :
    arrayBytes ty values =
      .ok (BigEndian.encode 32 values.length ++ abiLayout.encode (values.map (HeadTail.Part.mk (isText ty)))) := by
  have parts : (values.map (FunctionArgument.mk (isText ty))).map FunctionArgument.part =
      values.map (HeadTail.Part.mk (isText ty)) := List.map_map
  have full : ∀ argument ∈ values.map (FunctionArgument.mk (isText ty)), abiLayout.Fits argument.part := by
    intro argument member static
    obtain ⟨value, inValues, rfl⟩ := List.mem_map.mp member
    exact fits static value inValues
  have written := ContractFunctionParameters.setArguments_all (BigEndian.encode 32 values.length) full
    (by rw [parts]; exact small)
  rw [parts, BigEndian.length_encode, List.length_map] at written
  have few : values.length < 4294967296 := by
    rw [Layout.length_encode (fits_values fits), List.length_map] at small
    change 32 * values.length + _ < _ at small
    omega
  have header := @setUint32_slot values.length few []
    (zeros (abiLayout.encode (values.map (HeadTail.Part.mk (isText ty)))).length)
  rw [List.nil_append, List.length_nil, Nat.zero_add, List.nil_append, ← zeros_add] at header
  have reserved := length_encode_values fits
  rw [arrayBytes]
  cases text : isText ty with
  | true =>
      rw [text, if_pos rfl] at reserved
      rw [text] at header written
      rw [if_pos rfl, ← reserved, Nat.add_comm _ 32, header, setDynamic_eq]
      exact written
  | false =>
      rw [text, if_neg Bool.false_ne_true] at reserved
      rw [text] at header written
      rw [if_neg Bool.false_ne_true, ← reserved, Nat.add_comm _ 32, header, setStatic_eq _ _ (32 * values.length)]
      exact written

end Array

end HederaSdk
