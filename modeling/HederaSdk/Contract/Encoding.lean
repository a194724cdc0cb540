import HederaSdk.Contract.FailedCalls
import HederaSdk.Contract.SolidityValues

/-!
# The bytes of a call

A call with an argument that stands for a value adds the type of the value and its bytes. The
bytes are those of the interface but for a function, which is written at the end of its slot.
-/

namespace HederaSdk

open Library HeadTail

/-- A single integer is encoded as the interface says. -/
structure ContractPlatform.EncodesIntegers (platform : ContractPlatform) : Prop where
  uint : ∀ width (n : Nat), n < 2 ^ ArgumentType.bits width →
    platform.encodeInteger (.uint width) (.bigNumber (some (n : ℚ))) = .ok (BigEndian.encode 32 n)
  int : ∀ width (n : Int), -2 ^ (ArgumentType.bits width - 1) ≤ n → n < 2 ^ (ArgumentType.bits width - 1) →
    platform.encodeInteger (.int width) (.bigNumber (some (n : ℚ))) = .ok (BigEndian.encode 32 (n % 2 ^ 256).toNat)

/-- What `keccak256` returns is 32 bytes of hex text. -/
def ContractPlatform.Digests (platform : ContractPlatform) : Prop :=
  ∀ data, (hexDecode (platform.keccak256 ("0x" ++ hexEncode data))).length = 32

variable {platform : ContractPlatform}

namespace SolidityScalar

/-- What is passed to `argumentToBytes`. -/
def argument : SolidityScalar → Argument
  | uint _ n _ => .bigNumber (some (n : ℚ))
  | int _ n _ _ => .bigNumber (some (n : ℚ))
  | bool b => .boolean b
  | address data _ => .bytes data
  | func contract selector _ _ => .bytes (contract ++ selector)
  | bytes32 data _ => .bytes data
  | bytes data => .bytes data
  | string text => .string text

/-- The bytes that `argumentToBytes` returns. -/
def written : SolidityScalar → Bytes
  | func contract selector _ _ => zeros 8 ++ (contract ++ selector)
  | value => value.encode

def writtenPart (value : SolidityScalar) : HeadTail.Part := ⟨isText value.type, value.written⟩

theorem written_of_type_ne {value : SolidityScalar} (ordinary : value.type ≠ .func) : value.written = value.encode := by
  cases value with
  | func contract selector length length' => exact absurd rfl ordinary
  | _ => rfl

theorem length_written {value : SolidityScalar} : value.written.length = value.encode.length := by
  cases value with
  | func contract selector length length' =>
      rw [length_encode (by rfl), written, List.length_append, List.length_append, length_zeros, length, length']
  | _ => rfl

/-- A single value is written whole. -/
theorem scalarToBytes_argument (encodes : platform.EncodesIntegers) (value : SolidityScalar)
    (small : isText value.type = true → value.encode.length < 4294967296) :
    scalarToBytes platform value.argument value.type = .ok value.written := by
  cases value with
  | uint width n most => exact encodes.uint width n most
  | int width n least most => exact encodes.int width n least most
  | bool b =>
      have slot : ∀ b : Bool, setBytes (zeros 32) [if b then 1 else 0] 31 = BigEndian.encode 32 (if b then 1 else 0) := by
        decide
      exact congrArg Except.ok (slot b)
  | address data length =>
      have set := @setAt_middle (zeros 12) (zeros 20) [] data (by rw [length, length_zeros])
      rw [List.append_nil, List.append_nil, ← zeros_add, length_zeros] at set
      exact set
  | func contract selector length length' =>
      have set := @setAt_middle (zeros 8) (zeros 24) [] (contract ++ selector)
        (by rw [List.length_append, length, length', length_zeros])
      rw [List.append_nil, List.append_nil, ← zeros_add, length_zeros] at set
      exact set
  | bytes32 data length =>
      have set := @setAt_middle [] (zeros 32) [] data (by rw [length, length_zeros])
      rw [List.append_nil, List.append_nil, List.nil_append, List.nil_append] at set
      exact set
  | bytes data =>
      have short : data.length < 4294967296 := by
        have whole := small rfl
        have padded := length_padRight data
        rw [encode, List.length_append] at whole
        omega
      exact congrArg Except.ok (padBytes_eq short)
  | string text =>
      have short : text.toUTF8.toList.length < 4294967296 := by
        have whole := small rfl
        have padded := length_padRight text.toUTF8.toList
        rw [encode, List.length_append] at whole
        omega
      exact congrArg Except.ok (padBytes_eq short)

theorem fits_writtenPart (value : SolidityScalar) : abiLayout.Fits value.writtenPart := by
  intro static
  change value.written.length = 32
  rw [length_written, length_encode static]

end SolidityScalar

namespace SolidityValue

def argument : SolidityValue → Argument
  | scalar value => value.argument
  | array _ items => .array (items.map fun item => item.1.argument)

/-- The bytes that `argumentToBytes` returns. -/
def written : SolidityValue → Bytes
  | scalar value => value.written
  | array _ items => BigEndian.encode 32 items.length ++ abiLayout.encode (items.map fun item => item.1.writtenPart)

def writtenPart (value : SolidityValue) : HeadTail.Part := ⟨value.part.dynamic, value.written⟩

section Items

variable {ty : ArgumentType} (items : List { scalar : SolidityScalar // scalar.type = ty })

theorem writtenParts_eq : (items.map fun item => item.1.writtenPart) =
    (items.map fun item => item.1.written).map (HeadTail.Part.mk (isText ty)) := by
  rw [List.map_map]
  apply List.map_congr_left
  rintro ⟨value, rfl⟩ -
  rfl

/-- The items have no more bytes than the tuple of them. -/
theorem length_item_le {item : { scalar : SolidityScalar // scalar.type = ty }} (member : item ∈ items)
    (text : isText item.1.type = true) :
    item.1.encode.length ≤ (abiLayout.encode (items.map fun item => item.1.part)).length := by
  have tail : item.1.part.tail = item.1.encode := if_pos text
  have inside : item.1.part.tail.length ≤ (tails (items.map fun item => item.1.part)).length :=
    length_tail_le (List.mem_map.mpr ⟨item, member, rfl⟩)
  rw [Layout.encode, List.length_append, ← tail]
  omega

end Items

theorem argumentToBytes_argument (encodes : platform.EncodesIntegers) (value : SolidityValue)
    (small : value.part.tail.length < 4294967296) :
    argumentToBytes platform value.argument value.type = .ok value.written := by
  cases value with
  | scalar value =>
      apply SolidityScalar.scalarToBytes_argument encodes
      intro text
      have tail : value.part.tail = value.encode := if_pos text
      rw [← tail]
      exact small
  | array ty items =>
      have tail : (array ty items).part.tail = BigEndian.encode 32 items.length ++
          abiLayout.encode (items.map fun item => item.1.part) := if_pos rfl
      rw [tail, List.length_append, BigEndian.length_encode] at small
      have read : (items.map fun item => item.1.argument).mapM (fun item => scalarToBytes platform item ty) =
          .ok (items.map fun item => item.1.written) := by
        rw [List.mapM_map]
        apply except_mapM_ok
        rintro ⟨value, rfl⟩ member
        apply SolidityScalar.scalarToBytes_argument encodes
        intro text
        exact (length_item_le items member text).trans_lt (by omega)
      have fits : isText ty = false → ∀ value ∈ items.map (fun item => item.1.written), value.length = 32 := by
        intro static value member
        obtain ⟨⟨value, rfl⟩, -, rfl⟩ := List.mem_map.mp member
        rw [SolidityScalar.length_written, SolidityScalar.length_encode static]
      have length : (abiLayout.encode (items.map fun item => item.1.writtenPart)).length =
          (abiLayout.encode (items.map fun item => item.1.part)).length := by
        apply Layout.length_encode_map
        · exact fun item _ => item.1.fits_writtenPart
        · exact fun item _ => item.1.fits_part
        · exact fun item _ => ⟨rfl, SolidityScalar.length_written⟩
      have array := @arrayBytes_eq ty (items.map fun item => item.1.written) fits
        (by rw [← writtenParts_eq, length]; omega)
      rw [← writtenParts_eq, List.length_map] at array
      change ((items.map fun item => item.1.argument).mapM fun item => scalarToBytes platform item ty).bind
        (arrayBytes ty) = _
      rw [read]
      exact array

end SolidityValue

/-! ## Calls -/

/-- What is passed for a single value. -/
def Stands (platform : ContractPlatform) (argument : Argument) : SolidityScalar → Prop
  | .uint _ n _ => convertToBigNumber platform argument = .ok (.bigNumber (some (n : ℚ)))
  | .int _ n _ _ => convertToBigNumber platform argument = .ok (.bigNumber (some (n : ℚ)))
  | .bool b => argument = .boolean b
  | .address data _ => ContractFunctionParameters.addressBytes platform argument = .ok (.bytes data)
  | .func .. => False
  | .bytes32 data _ => argument = .bytes data
  | .bytes data => argument = .bytes data
  | .string text => argument = .string text

/-- What is passed for the items of an array. -/
def StandAll (platform : ContractPlatform) {ty : ArgumentType} (arguments : List Argument)
    (items : List { scalar : SolidityScalar // scalar.type = ty }) : Prop :=
  List.Forall₂ (fun argument item => Stands platform argument item.1) arguments items

namespace ContractFunctionParameters

/-- The call adds the value. -/
inductive Call.Adds (platform : ContractPlatform) : Call → SolidityValue → Prop
  | string {argument text} (stands : Stands platform argument (.string text)) :
      Adds platform (.addString argument) (.scalar (.string text))
  | stringArray {arguments} {items : List { scalar : SolidityScalar // scalar.type = .string }}
      (stand : StandAll platform arguments items) :
      Adds platform (.addStringArray (.array arguments)) (.array .string items)
  | bytes {argument data} (stands : Stands platform argument (.bytes data)) :
      Adds platform (.addBytes argument) (.scalar (.bytes data))
  | bytes32 {argument data length} (stands : Stands platform argument (.bytes32 data length)) :
      Adds platform (.addBytes32 argument) (.scalar (.bytes32 data length))
  | bytesArray {arguments} {items : List { scalar : SolidityScalar // scalar.type = .bytes }}
      (stand : StandAll platform arguments items) :
      Adds platform (.addBytesArray (.array arguments)) (.array .bytes items)
  | bytes32Array {arguments} {items : List { scalar : SolidityScalar // scalar.type = .bytes32 }}
      (stand : StandAll platform arguments items) :
      Adds platform (.addBytes32Array (.array arguments)) (.array .bytes32 items)
  | bool {argument b} (stands : Stands platform argument (.bool b)) :
      Adds platform (.addBool argument) (.scalar (.bool b))
  | int {width argument n least most} (stands : Stands platform argument (.int width n least most)) :
      Adds platform (.addInt width argument) (.scalar (.int width n least most))
  | uint {width argument n most} (stands : Stands platform argument (.uint width n most)) :
      Adds platform (.addUint width argument) (.scalar (.uint width n most))
  | intArray {width arguments} {items : List { scalar : SolidityScalar // scalar.type = .int width }}
      (stand : StandAll platform arguments items) :
      Adds platform (.addIntArray width (.array arguments)) (.array (.int width) items)
  | uintArray {width arguments} {items : List { scalar : SolidityScalar // scalar.type = .uint width }}
      (stand : StandAll platform arguments items) :
      Adds platform (.addUintArray width (.array arguments)) (.array (.uint width) items)
  | address {argument data length} (stands : Stands platform argument (.address data length)) :
      Adds platform (.addAddress argument) (.scalar (.address data length))
  | addressArray {arguments} {items : List { scalar : SolidityScalar // scalar.type = .address }}
      (stand : StandAll platform arguments items) :
      Adds platform (.addAddressArray (.array arguments)) (.array .address items)
  | func {text function contract selector length length'} (address : hexDecode text = contract)
      (built : ((ContractFunctionSelector.build platform.keccak256 none).run function).1 = .ok selector) :
      Adds platform (.addFunction (.string text) function) (.scalar (.func contract selector length length'))

theorem mapM_of_standAll {ty : ArgumentType} {arguments : List Argument}
    {items : List { scalar : SolidityScalar // scalar.type = ty }} {convert : Argument → Except JsError Argument}
    (stand : StandAll platform arguments items)
    (one : ∀ argument (item : { scalar : SolidityScalar // scalar.type = ty }), Stands platform argument item.1 →
      convert argument = .ok item.1.argument) :
    arguments.mapM convert = .ok (items.map fun item => item.1.argument) := by
  induction stand with
  | nil => rfl
  | @cons argument item arguments items stands _ inductionHypothesis =>
      rw [List.mapM_cons, one argument item stands, inductionHypothesis]
      rfl

/-- The arguments are the values themselves where nothing is converted. -/
theorem arguments_of_standAll {ty : ArgumentType} {arguments : List Argument}
    {items : List { scalar : SolidityScalar // scalar.type = ty }} (stand : StandAll platform arguments items)
    (one : ∀ argument (item : { scalar : SolidityScalar // scalar.type = ty }), Stands platform argument item.1 →
      argument = item.1.argument) :
    arguments = items.map fun item => item.1.argument := by
  induction stand with
  | nil => rfl
  | @cons argument item arguments items stands _ inductionHypothesis =>
      rw [List.map_cons, ← inductionHypothesis, ← one argument item stands]

theorem requireLength32_bytes {data : Bytes} (length : data.length = 32) : requireLength32 (.bytes data) = .ok () := by
  rw [requireLength32, Argument.length, length]
  rfl

/-- The address in front of the selector. -/
theorem functionBytes_eq {text : String} {function : ContractFunctionSelector} {contract selector : Bytes}
    (length : contract.length = 20) (length' : selector.length = 4) (address : hexDecode text = contract)
    (built : ((ContractFunctionSelector.build platform.keccak256 none).run function).1 = .ok selector) :
    functionBytes platform (.string text) function = .ok (.bytes (contract ++ selector)) := by
  have whole : setBytes (setBytes (zeros 24) contract 0) selector 20 = contract ++ selector := by
    have first := @setBytes_middle [] (zeros 20) (zeros 4) contract (by rw [length, length_zeros])
    have second := @setBytes_middle contract (zeros 4) [] selector (by rw [length', length_zeros])
    rw [List.nil_append, List.nil_append, ← zeros_add, List.length_nil] at first
    rw [List.append_nil, List.append_nil, length] at second
    rw [first, second]
  have exact20 : ¬ (hexDecode text).length ≠ 20 := by rw [address, length]; exact not_not_intro rfl
  rw [functionBytes, built, Except.bind, if_neg exact20, address, whole]

namespace Call

/-- A call that adds a value leads to its argument. -/
structure Leads (platform : ContractPlatform) (call : Call) (value : SolidityValue) : Prop where
  type : (call.addition platform).type = value.type
  dynamic : (call.addition platform).dynamic = value.part.dynamic
  argument : ∃ prepared, (call.addition platform).prepared = .ok prepared ∧
    (call.addition platform).convert prepared = .ok value.argument

theorem Adds.leads {call : Call} {value : SolidityValue} (adds : call.Adds platform value) :
    call.Leads platform value := by
  cases adds with
  | string stands => exact ⟨rfl, rfl, _, rfl, congrArg Except.ok stands⟩
  | stringArray stand =>
      refine ⟨rfl, rfl, _, rfl, congrArg (Except.ok ∘ Argument.array) (arguments_of_standAll stand ?_)⟩
      rintro argument ⟨value, isString⟩ stands
      cases value with
      | string text => exact stands
      | _ => cases isString
  | bytes stands => exact ⟨rfl, rfl, _, rfl, congrArg Except.ok stands⟩
  | @bytes32 argument data length stands =>
      obtain rfl : argument = .bytes data := stands
      exact ⟨rfl, rfl, .bytes data, congrArg (Except.map fun _ => Argument.bytes data) (requireLength32_bytes length), rfl⟩
  | bytesArray stand =>
      refine ⟨rfl, rfl, _, rfl, congrArg (Except.ok ∘ Argument.array) (arguments_of_standAll stand ?_)⟩
      rintro argument ⟨value, isBytes⟩ stands
      cases value with
      | bytes data => exact stands
      | _ => cases isBytes
  | @bytes32Array arguments items stand =>
      have same : arguments = items.map fun item => item.1.argument := by
        apply arguments_of_standAll stand
        rintro argument ⟨value, isBytes32⟩ stands
        cases value with
        | bytes32 data length => exact stands
        | _ => cases isBytes32
      have checked : arguments.forM requireLength32 = .ok () := by
        rw [same, except_forM_eq_ok]
        intro argument member
        obtain ⟨⟨value, isBytes32⟩, -, rfl⟩ := List.mem_map.mp member
        cases value with
        | bytes32 data length => exact requireLength32_bytes length
        | _ => cases isBytes32
      refine ⟨rfl, rfl, .array arguments, ?_, congrArg (Except.ok ∘ Argument.array) same⟩
      exact congrArg (Except.map fun _ => Argument.array arguments) checked
  | bool stands => exact ⟨rfl, rfl, _, rfl, congrArg Except.ok stands⟩
  | int stands => exact ⟨rfl, rfl, _, rfl, stands⟩
  | uint stands => exact ⟨rfl, rfl, _, rfl, stands⟩
  | intArray stand =>
      refine ⟨rfl, rfl, _, rfl, congrArg (Except.map Argument.array) (mapM_of_standAll stand ?_)⟩
      rintro argument ⟨value, isInteger⟩ stands
      cases value with
      | int width n least most => exact stands
      | _ => cases isInteger
  | uintArray stand =>
      refine ⟨rfl, rfl, _, rfl, congrArg (Except.map Argument.array) (mapM_of_standAll stand ?_)⟩
      rintro argument ⟨value, isInteger⟩ stands
      cases value with
      | uint width n most => exact stands
      | _ => cases isInteger
  | address stands => exact ⟨rfl, rfl, _, stands, rfl⟩
  | addressArray stand =>
      refine ⟨rfl, rfl, _, congrArg (Except.map Argument.array) (mapM_of_standAll stand ?_), rfl⟩
      rintro argument ⟨value, isAddress⟩ stands
      cases value with
      | address data length => exact stands
      | _ => cases isAddress
  | @func text function contract selector length length' address built =>
      exact ⟨rfl, rfl, _, functionBytes_eq length length' address built, rfl⟩

end Call

/-! ## Runs -/

/-- What is kept of a value. -/
def entry (value : SolidityValue) : FunctionArgument := ⟨value.part.dynamic, value.written⟩

theorem step_of_adds (encodes : platform.EncodesIntegers) {call : Call} {value : SolidityValue}
    (adds : call.Adds platform value) (small : value.part.tail.length < 4294967296)
    (parameters : ContractFunctionParameters) :
    parameters.step platform call = (parameters.select value.type).push (entry value) := by
  obtain ⟨type, dynamic, prepared, given, converted⟩ := adds.leads
  have ran := run_method_of_prepared parameters given
  have bytes : call.convert platform prepared = .ok value.written := by
    rw [Call.convert, converted, Except.bind, type]
    exact value.argumentToBytes_argument encodes small
  rw [step, ran, bytes, type, dynamic]
  rfl

theorem runAll_of_adds (encodes : platform.EncodesIntegers) {calls : List Call} {values : List SolidityValue}
    (adds : List.Forall₂ (Call.Adds platform) calls values)
    (small : ∀ value ∈ values, value.part.tail.length < 4294967296) (parameters : ContractFunctionParameters) :
    runAll (step platform) parameters calls =
      { selector := (values.map SolidityValue.type).foldl ContractFunctionSelector.addParam parameters.selector
        arguments := parameters.arguments ++ values.map entry } := by
  induction adds generalizing parameters with
  | nil => simp
  | @cons call value calls values adds _ inductionHypothesis =>
      rw [runAll_cons, step_of_adds encodes adds (small value List.mem_cons_self),
        inductionHypothesis fun other member => small other (List.mem_cons_of_mem _ member)]
      simp [select, push]

theorem params_addParams (types : List SolidityType) :
    (types.foldl ContractFunctionSelector.addParam {}).params = ",".intercalate (types.map SolidityType.toString) ∧
      (types.foldl ContractFunctionSelector.addParam {}).paramTypes = types := by
  induction types using List.reverseRecOn with
  | nil => exact ⟨String.intercalate_nil.symm, rfl⟩
  | append_singleton types ty inductionHypothesis =>
      obtain ⟨params, paramTypes⟩ := inductionHypothesis
      rw [List.foldl_append, List.foldl_cons, List.foldl_nil, ContractFunctionSelector.addParam, params, paramTypes]
      refine ⟨?_, rfl⟩
      cases types with
      | nil => simp
      | cons first rest =>
          rw [if_pos (by simp), List.map_append, String.intercalate_append_of_ne_nil (by simp) (by simp)]
          simp

/-! ## Building -/

/-- The first four bytes of the digest of the signature; without a name there are none. -/
def functionId (platform : ContractPlatform) (types : List SolidityType) : Option String → Bytes
  | none => []
  | some name => (hexDecode (platform.keccak256 ("0x" ++ hexEncode (signature name types).toUTF8.toList))).take 4

theorem length_encode_arguments {arguments : List FunctionArgument}
    (fits : ∀ argument ∈ arguments, abiLayout.Fits argument.part) :
    (abiLayout.encode (arguments.map FunctionArgument.part)).length =
      arguments.length * 32 + dynamicLength arguments := by
  have tail : (fun argument : FunctionArgument => argument.part.tail.length) =
      fun argument => if argument.dynamic then argument.value.length else 0 := by
    funext argument
    rw [HeadTail.Part.tail]
    change (if argument.dynamic then argument.value else []).length = _
    split <;> rfl
  rw [Layout.length_encode (List.forall_mem_map.mpr fits), List.length_map, tails, List.length_flatMap, List.map_map,
    dynamicLength, Nat.mul_comm]
  exact congrArg (fun f => arguments.length * 32 + (arguments.map f).sum) tail

/-- What is built is the tuple of the arguments behind the id. -/
theorem build_eq {parameters : ContractFunctionParameters} {types : List SolidityType} {name : Option String}
    (digests : name ≠ none → platform.Digests)
    (params : parameters.selector.params = ",".intercalate (types.map SolidityType.toString))
    (fits : ∀ argument ∈ parameters.arguments, abiLayout.Fits argument.part)
    (small : (abiLayout.encode (parameters.arguments.map FunctionArgument.part)).length < 4294967296) :
    ((build platform name).run parameters).1 =
      .ok (functionId platform types name ++ abiLayout.encode (parameters.arguments.map FunctionArgument.part)) := by
  have length := length_encode_arguments fits
  have laid (id : Bytes) : (setAt (zeros (parameters.arguments.length * 32 + dynamicLength parameters.arguments + id.length))
      id 0).bind (setArguments id.length parameters.arguments 0 (32 * parameters.arguments.length)) =
        .ok (id ++ abiLayout.encode (parameters.arguments.map FunctionArgument.part)) := by
    have set := @setAt_middle [] (zeros id.length)
      (zeros (abiLayout.encode (parameters.arguments.map FunctionArgument.part)).length) id (length_zeros _).symm
    rw [List.nil_append, List.nil_append, List.length_nil, ← zeros_add, Nat.add_comm] at set
    rw [← length, set]
    exact setArguments_all id fits small
  have finished (id : Bytes) (parameters' : ContractFunctionParameters) :
      ((do
        let func ← Method.ofExcept (setAt (zeros (parameters.arguments.length * 32 +
          dynamicLength parameters.arguments + id.length)) id 0)
        Method.ofExcept (setArguments id.length parameters.arguments 0 (32 * parameters.arguments.length) func) :
        ParametersMethod Bytes).run parameters').1 =
          .ok (id ++ abiLayout.encode (parameters.arguments.map FunctionArgument.part)) := by
    obtain ⟨func, set, rest⟩ := except_bind_eq_ok.mp (laid id)
    rw [set, Method.run_bind_ok (Method.run_ofExcept_ok func parameters'), rest]
    rfl
  cases name with
  | none => exact finished [] parameters
  | some name =>
      have idLength : (functionId platform types (some name)).length = 4 := by
        rw [functionId, List.length_take, digests (Option.some_ne_none name)]
        rfl
      have named : ({ parameters.selector with name := some name } : ContractFunctionSelector).toString =
          signature name types := by
        rw [ContractFunctionSelector.toString, signature, ← params]
        simp [String.append_assoc]
      have built : (buildSelector platform name).run parameters = (.ok (functionId platform types (some name)),
          { parameters with selector := { parameters.selector with name := some name } }) := by
        rw [buildSelector, Method.run_zoom, functionId, ← named]
        rfl
      have last := finished (functionId platform types (some name))
        { parameters with selector := { parameters.selector with name := some name } }
      rw [idLength] at last
      rw [build, Method.run_this_bind]
      change ((buildSelector platform name >>= _).run parameters).1 = _
      rw [Method.run_bind_ok built]
      exact last

/-! ## Against the interface -/

theorem shift_eq_iff {bytes : Bytes} (length : bytes.length = 24) :
    zeros 8 ++ bytes = bytes ++ zeros 8 ↔ bytes = zeros 24 := by
  obtain ⟨a, b, c, rfl, first, second⟩ : ∃ a b c, bytes = a ++ (b ++ c) ∧ a.length = 8 ∧ b.length = 8 := by
    refine ⟨bytes.take 8, (bytes.drop 8).take 8, (bytes.drop 8).drop 8, ?_, ?_, ?_⟩
    · rw [List.take_append_drop, List.take_append_drop]
    · rw [List.length_take, length]
      rfl
    · rw [List.length_take, List.length_drop, length]
      rfl
  have third : c.length = 8 := by
    rw [List.length_append, List.length_append, first, second] at length
    omega
  constructor
  · intro same
    rw [List.append_assoc, List.append_assoc] at same
    obtain ⟨head, same⟩ := List.append_inj same (by rw [length_zeros, first])
    obtain ⟨middle, same⟩ := List.append_inj same (by rw [first, second])
    obtain ⟨last, -⟩ := List.append_inj same (by rw [second, third])
    rw [← last, ← middle, ← head]
    rfl
  · intro zero
    rw [zero, ← zeros_add, ← zeros_add]

theorem written_func_iff {contract selector : Bytes} (length : contract.length = 20) (length' : selector.length = 4) :
    (SolidityScalar.func contract selector length length').written =
        (SolidityScalar.func contract selector length length').encode ↔ contract ++ selector = zeros 24 := by
  have whole : (contract ++ selector).length = 24 := by rw [List.length_append, length, length']
  rw [SolidityScalar.written, SolidityScalar.encode, @padRight_of_length _ 8 (by rw [whole]) (by decide),
    shift_eq_iff whole]

/-- Nothing but a function is written in another way. -/
theorem written_eq_iff {call : Call} {value : SolidityValue} (adds : call.Adds platform value) :
    value.written = value.part.bytes ↔ ∀ contract selector length length',
      value = .scalar (.func contract selector length length') → contract ++ selector = zeros 24 := by
  cases value with
  | scalar value =>
      by_cases function : value.type = .func
      · cases value with
        | func contract selector length length' =>
            refine (written_func_iff length length').trans ⟨?_, fun zero => zero _ _ _ _ rfl⟩
            rintro zero _ _ _ _ same
            cases same
            exact zero
        | _ => cases function
      · refine iff_of_true (SolidityScalar.written_of_type_ne function) ?_
        rintro contract selector length length' same
        cases same
        exact absurd rfl function
  | array ty items =>
      have ordinary : ty ≠ .func := by
        cases adds <;> exact nofun
      have parts : (items.map fun item => item.1.writtenPart) = items.map fun item => item.1.part := by
        apply List.map_congr_left
        rintro ⟨value, rfl⟩ -
        exact congrArg (HeadTail.Part.mk _) (SolidityScalar.written_of_type_ne ordinary)
      refine iff_of_true ?_ fun _ _ _ _ same => nomatch same
      rw [SolidityValue.written, parts]
      rfl

section Build

variable {calls : List Call} {values : List SolidityValue}

theorem length_part_lt (small : (SolidityValue.encodeTuple values).length < 4294967296) {value : SolidityValue}
    (member : value ∈ values) : value.part.tail.length < 4294967296 := by
  have inside : value.part.tail.length ≤ (tails (values.map SolidityValue.part)).length :=
    length_tail_le (List.mem_map.mpr ⟨value, member, rfl⟩)
  rw [SolidityValue.encodeTuple, Layout.encode, List.length_append] at small
  omega

theorem SolidityValue.length_written {value : SolidityValue} : value.written.length = value.part.bytes.length := by
  cases value with
  | scalar value => exact SolidityScalar.length_written
  | array ty items =>
      rw [SolidityValue.written, List.length_append, SolidityValue.part, List.length_append]
      congr 1
      apply Layout.length_encode_map
      · exact fun item _ => item.1.fits_writtenPart
      · exact fun item _ => item.1.fits_part
      · exact fun item _ => ⟨rfl, SolidityScalar.length_written⟩

theorem fits_writtenPart (value : SolidityValue) : abiLayout.Fits value.writtenPart := by
  intro static
  change value.written.length = 32
  rw [SolidityValue.length_written]
  exact value.fits_part static

/-- No value takes more space than the interface has for it. -/
theorem length_encode_written (values : List SolidityValue) :
    (abiLayout.encode (values.map SolidityValue.writtenPart)).length = (SolidityValue.encodeTuple values).length := by
  apply Layout.length_encode_map
  · exact fun value _ => fits_writtenPart value
  · exact fun value _ => value.fits_part
  · exact fun value _ => ⟨rfl, SolidityValue.length_written⟩

/-- What is built of calls that add values. -/
theorem build_runAll (encodes : platform.EncodesIntegers) {name : Option String}
    (digests : name ≠ none → platform.Digests)
    (adds : List.Forall₂ (Call.Adds platform) calls values)
    (small : (SolidityValue.encodeTuple values).length < 4294967296) :
    ((build platform name).run (runAll (step platform) {} calls)).1 =
      .ok (functionId platform (values.map SolidityValue.type) name ++
        abiLayout.encode (values.map SolidityValue.writtenPart)) := by
  have ran := runAll_of_adds encodes adds (fun value member => length_part_lt small member) {}
  have parts : (values.map entry).map FunctionArgument.part = values.map SolidityValue.writtenPart := List.map_map
  rw [ran, ← parts]
  refine build_eq digests (params_addParams _).1 ?_ ?_
  · intro argument member
    obtain ⟨value, -, rfl⟩ := List.mem_map.mp member
    exact fits_writtenPart value
  · rw [List.nil_append, parts, length_encode_written]
    exact small

theorem forall_written_eq_iff (adds : List.Forall₂ (Call.Adds platform) calls values) :
    ∀ value ∈ values, (value.written = value.part.bytes ↔ ∀ contract selector length length',
      value = .scalar (.func contract selector length length') → contract ++ selector = zeros 24) := by
  induction adds with
  | nil => simp
  | cons added _ inductionHypothesis => exact List.forall_mem_cons.mpr ⟨written_eq_iff added, inductionHypothesis⟩

/-- The bytes of a call are those of the interface exactly when every function that was added
is all zeros. -/
theorem build_encodes_iff (encodes : platform.EncodesIntegers) (digests : platform.Digests)
    (adds : List.Forall₂ (Call.Adds platform) calls values)
    (small : (SolidityValue.encodeTuple values).length < 4294967296) (name : Option String) :
    ((build platform name).run (runAll (step platform) {} calls)).1 =
        .ok (functionId platform (values.map SolidityValue.type) name ++ SolidityValue.encodeTuple values) ↔
      ∀ contract selector length length',
        SolidityValue.scalar (.func contract selector length length') ∈ values → contract ++ selector = zeros 24 := by
  have each := forall_written_eq_iff adds
  rw [build_runAll encodes (fun _ => digests) adds small, Except.ok.injEq, List.append_right_inj]
  constructor
  · intro same contract selector length length' member
    have shape : List.Forall₂ (fun part other : HeadTail.Part => part.dynamic = other.dynamic)
        (values.map SolidityValue.writtenPart) (values.map SolidityValue.part) :=
      List.forall₂_map_left_iff.mpr (List.forall₂_map_right_iff.mpr (List.forall₂_same.mpr fun _ _ => rfl))
    have static := Layout.static_of_encode_eq (List.forall_mem_map.mpr fun value _ => fits_writtenPart value)
      (SolidityValue.fits_parts values) shape same
    have equal := List.forall₂_same.mp (List.forall₂_map_right_iff.mp (List.forall₂_map_left_iff.mp static)) _ member
    exact (each _ member).mp (equal rfl) _ _ length length' rfl
  · intro zero
    rw [SolidityValue.encodeTuple]
    congr 1
    apply List.map_congr_left
    intro value member
    have equal := (each value member).mpr fun contract selector length length' same =>
      zero contract selector length length' (same ▸ member)
    rw [SolidityValue.writtenPart, equal]

end Build

section Samples

/-- A platform that knows one digest. -/
def transferPlatform : ContractPlatform :=
  { checkedPlatform with
    keccak256 := fun _ => "0xa9059cbb2ab09eb219583f4a59a5d0623ade346d962bcd4e46b11da047c9049b" }

theorem transferPlatform_encodes : transferPlatform.EncodesIntegers where
  uint width n most := by
    have whole : ((n : ℚ).den = 1 ∧ 0 ≤ (n : ℚ).num ∧ (n : ℚ).num < 2 ^ ArgumentType.bits width) := by
      rw [Rat.den_natCast, Rat.num_natCast]
      exact ⟨rfl, by omega, by exact_mod_cast most⟩
    change (if _ then Except.ok (BigEndian.encode 32 (n : ℚ).num.toNat) else _) = _
    rw [if_pos whole, Rat.num_natCast, Int.toNat_natCast]
  int width n least most := by
    have whole : ((n : ℚ).den = 1 ∧ -2 ^ (ArgumentType.bits width - 1) ≤ (n : ℚ).num ∧
        (n : ℚ).num < 2 ^ (ArgumentType.bits width - 1)) := by
      rw [Rat.den_intCast, Rat.num_intCast]
      exact ⟨rfl, least, most⟩
    change (if _ then Except.ok (BigEndian.encode 32 ((n : ℚ).num % 2 ^ 256).toNat) else _) = _
    rw [if_pos whole, Rat.num_intCast]

theorem transferPlatform_digests : transferPlatform.Digests := by
  intro data
  change (hexDecode "0xa9059cbb2ab09eb219583f4a59a5d0623ade346d962bcd4e46b11da047c9049b").length = 32
  decide +kernel

/-- A call with a number and a text. -/
theorem number_and_text_encoded :
    ((build transferPlatform (some "transfer")).run (runAll (step transferPlatform) {}
        [.addUint 31 (.bigNumber (some 10)), .addString (.string "memo")])).1 =
      .ok (functionId transferPlatform [⟨.uint 31, false⟩, ⟨.string, false⟩] (some "transfer") ++
        SolidityValue.encodeTuple [.scalar (.uint 31 10 (by decide)), .scalar (.string "memo")]) := by
  have adds : List.Forall₂ (Call.Adds transferPlatform)
      [.addUint 31 (.bigNumber (some 10)), .addString (.string "memo")]
      [.scalar (.uint 31 10 (by decide)), .scalar (.string "memo")] :=
    .cons (.uint rfl) (.cons (.string rfl) .nil)
  apply (build_encodes_iff transferPlatform_encodes transferPlatform_digests adds (by decide +kernel) _).mpr
  simp

/-- A function stands at the end of its slot. -/
theorem function_at_the_end :
    Call.Adds transferPlatform
        (.addFunction (.string (hexEncode (List.replicate 20 0x61))) { name := some "transfer" })
        (.scalar (.func (List.replicate 20 0x61) [0xa9, 0x05, 0x9c, 0xbb] rfl rfl)) ∧
      ((build transferPlatform (some "call")).run (runAll (step transferPlatform) {}
          [.addFunction (.string (hexEncode (List.replicate 20 0x61))) { name := some "transfer" }])).1 ≠
        .ok (functionId transferPlatform [⟨.func, false⟩] (some "call") ++ SolidityValue.encodeTuple
          [.scalar (.func (List.replicate 20 0x61) [0xa9, 0x05, 0x9c, 0xbb] rfl rfl)]) := by
  refine ⟨.func (hexDecode_hexEncode _) (by decide +kernel), ?_⟩
  decide +kernel

end Samples

end ContractFunctionParameters

end HederaSdk
