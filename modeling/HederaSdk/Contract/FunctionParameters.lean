import HederaSdk.Contract.FunctionSelector
import HederaSdk.EntityId.Solidity
import HederaSdk.Hbar

/-!
# Function parameters

A call that adds a parameter adds its type to the selector first, converts the value into
bytes and then adds the argument. Some calls check their value in front of all this.
-/

namespace HederaSdk

open Library

/-- What a caller passes. -/
inductive Argument where
  | undefined
  | null
  | boolean (b : Bool)
  | number (text : String)
  | string (s : String)
  | bytes (data : Bytes)
  | bigNumber (n : BigNumber)
  | long (n : Int)
  | array (items : List Argument)
  /-- Any other object, by its text. -/
  | object (text : String)

/-- What stands outside of the SDK. -/
structure ContractPlatform where
  reader : NumberReader
  /-- `Buffer.from(value, "utf8")` of something that is no text -/
  bufferFrom : Argument → Except JsError Bytes
  /-- `value.toString()` of something that is no text -/
  text : Argument → String
  /-- What `Uint8Array.set` reads of something that is no `Uint8Array`. -/
  elements : Argument → Bytes
  /-- The number in hex, and what `defaultAbiCoder.encode` makes of it. -/
  encodeInteger : ArgumentType → Argument → Except JsError Bytes
  keccak256 : String → String

structure FunctionArgument where
  dynamic : Bool
  value : Bytes
  deriving DecidableEq

/-- `target.set(data, offset)` -/
def setAt (target data : Bytes) (offset : Nat) : Except JsError Bytes :=
  if offset + data.length ≤ target.length then .ok (setBytes target data offset)
  else .error (.error "offset is out of bounds")

def zeros (length : Nat) : Bytes := List.replicate length 0

namespace Argument

/-- Whether a value counts as true. -/
def truthy (reader : NumberReader) : Argument → Bool
  | undefined => false
  | null => false
  | boolean b => b
  | number text => (reader.read text).any (· ≠ 0)
  | string s => s ≠ ""
  | _ => true

/-- `value.length` -/
def length : Argument → Except JsError (Option Nat)
  | undefined => .error (.typeError "Cannot read properties of undefined (reading 'length')")
  | null => .error (.typeError "Cannot read properties of null (reading 'length')")
  | string s => .ok (some (utf16Length s))
  | bytes data => .ok (some data.length)
  | array items => .ok (some items.length)
  | _ => .ok none

/-- `value.entries()` -/
def entries : Argument → Except JsError (List Argument)
  | undefined => .error (.typeError "Cannot read properties of undefined (reading 'entries')")
  | null => .error (.typeError "Cannot read properties of null (reading 'entries')")
  | array items => .ok items
  | bytes data => .ok (data.map fun b => .number s!"{b.toNat}")
  | _ => .error (.typeError "value.entries is not a function")

end Argument

section Conversions

variable (platform : ContractPlatform)

def convertToBigNumber : Argument → Except JsError Argument
  | .undefined => .error (.error "This value cannot be null | undefined.")
  | .null => .error (.error "This value cannot be null | undefined.")
  | .bigNumber n => .ok (.bigNumber n)
  | .string text => .ok (.bigNumber (platform.reader.read text))
  | .number text => .ok (.bigNumber (platform.reader.read text))
  | .long n => .ok (.bigNumber (platform.reader.read (toString n)))
  | _ => .error (.error "This value must be a String, Number, or BigNumber to be converted.")

def convertToBigNumberArray : Argument → Except JsError Argument
  | .array items => (items.mapM (convertToBigNumber platform)).map .array
  | _ => .error (.error "The provided variable must be an Array.")

/-- What `Uint8Array.set` reads. -/
def elementsOf : Argument → Bytes
  | .bytes data => data
  | param => platform.elements param

/-- The bytes of a text, or of a `Uint8Array` as they are. -/
def textBytes : Argument → Except JsError Bytes
  | .bytes data => .ok data
  | .string s => .ok s.toUTF8.toList
  | param => platform.bufferFrom param

/-- A length, and the bytes filled up with zeros. -/
def padBytes (par : Bytes) : Bytes :=
  let size := if par.length % 32 ≠ 0 then (par.length / 32 + 1) * 32 + 32 else par.length / 32 * 32 + 32
  setUint32 (setBytes (zeros size) par 32) 28 par.length

/-- `argumentToBytes` of a type that is no array. -/
def scalarToBytes (param : Argument) : ArgumentType → Except JsError Bytes
  | .uint width => platform.encodeInteger (.uint width) param
  | .int width => platform.encodeInteger (.int width) param
  | .address => setAt (zeros 32) (elementsOf platform param) (32 - 20)
  | .bool => .ok (setBytes (zeros 32) [if param.truthy platform.reader then 1 else 0] 31)
  | .func => setAt (zeros 32) (elementsOf platform param) (32 - 24)
  | .bytes32 => setAt (zeros 32) (elementsOf platform param) 0
  | .bytes => (textBytes platform param).map padBytes
  | .string => (textBytes platform param).map padBytes

/-- One value behind the other, each in its 32 bytes. -/
def setStatic : List Bytes → Nat → Bytes → Except JsError Bytes
  | [], _, value => .ok value
  | e :: rest, i, value => (setAt value e (i * 32 + 32)).bind (setStatic rest (i + 1))

/-- An offset for each value, and the values behind the offsets. -/
def setDynamic : List Bytes → Nat → Nat → Bytes → Except JsError Bytes
  | [], _, _, value => .ok value
  | e :: rest, i, offset, value =>
      (setAt (setUint32 value ((i + 1) * 32 + 28) offset) e (offset % 4294967296 + 32)).bind
        (setDynamic rest (i + 1) (offset + e.length))

def isText (ty : ArgumentType) : Bool := ty = .bytes ∨ ty = .string

def arrayBytes (ty : ArgumentType) (values : List Bytes) : Except JsError Bytes :=
  let total := (values.map List.length).sum
  if isText ty then
    setDynamic values 0 (32 * values.length)
      (setUint32 (zeros (values.length * 32 + total + 32)) 28 values.length)
  else setStatic values 0 (setUint32 (zeros (total + 32)) 28 values.length)

def argumentToBytes (param : Argument) (ty : SolidityType) : Except JsError Bytes :=
  if ty.array then
    match param with
    | .array items =>
        (items.mapM fun item => scalarToBytes platform item ty.ty).bind (arrayBytes ty.ty)
    | _ => .error
        (.typeError "SolidityType indicates type is array, but parameter is not an array")
  else scalarToBytes platform param ty.ty

end Conversions

structure ContractFunctionParameters where
  selector : ContractFunctionSelector := {}
  arguments : List FunctionArgument := []
  deriving DecidableEq

namespace ContractFunctionParameters

variable (platform : ContractPlatform)

abbrev ParametersMethod := Method JsError ContractFunctionParameters

def select (ty : SolidityType) (parameters : ContractFunctionParameters) : ContractFunctionParameters :=
  { parameters with selector := parameters.selector.addParam ty }

def push (argument : FunctionArgument) (parameters : ContractFunctionParameters) :
    ContractFunctionParameters :=
  { parameters with arguments := parameters.arguments ++ [argument] }

/-- `_addParam`, by the type that was added last -/
def addParam (param : Argument) (dynamic : Bool) : ParametersMethod Unit := do
  let parameters ← Method.this
  match parameters.selector.paramTypes.getLast? with
  | none => Method.throwing (.typeError "Cannot read properties of undefined (reading 'array')")
  | some ty => do
      let value ← Method.ofExcept (argumentToBytes platform param ty)
      Method.update (push ⟨dynamic, value⟩)

/-- What an adding call does: how it gets its value in front of the selector, what type it
adds, and how it converts the value then. -/
structure Addition where
  type : SolidityType
  dynamic : Bool
  prepared : Except JsError Argument
  convert : Argument → Except JsError Argument

def Addition.method (addition : Addition) : ParametersMethod Unit := do
  let value ← Method.ofExcept addition.prepared
  Method.update (select addition.type)
  let param ← Method.ofExcept (addition.convert value)
  addParam platform param addition.dynamic

/-! ## The calls -/

def addString (value : Argument) : Addition := ⟨⟨.string, false⟩, true, .ok value, .ok⟩

def addStringArray (value : Argument) : Addition := ⟨⟨.string, true⟩, true, .ok value, .ok⟩

def addBytes (value : Argument) : Addition := ⟨⟨.bytes, false⟩, true, .ok value, .ok⟩

/-- A value of 32 bytes. -/
def requireLength32 (value : Argument) : Except JsError Unit :=
  value.length.bind fun length =>
    if length = some 32 then .ok ()
    else
      let received := match length with
        | some n => s!"{n}"
        | none => "undefined"
      .error (.error s!"addBytes32 expected array to be of length 32, but received {received}")

def addBytes32 (value : Argument) : Addition :=
  ⟨⟨.bytes32, false⟩, false, (requireLength32 value).map fun _ => value, .ok⟩

def addBytesArray (value : Argument) : Addition := ⟨⟨.bytes, true⟩, true, .ok value, .ok⟩

def addBytes32Array (value : Argument) : Addition :=
  ⟨⟨.bytes32, true⟩, true,
    value.entries.bind fun entries => (entries.forM requireLength32).map fun _ => value, .ok⟩

def addBool (value : Argument) : Addition := ⟨⟨.bool, false⟩, false, .ok value, .ok⟩

/-- `addInt8` to `addInt256` -/
def addInt (width : Fin 32) (value : Argument) : Addition :=
  ⟨⟨.int width, false⟩, false, .ok value, convertToBigNumber platform⟩

/-- `addUint8` to `addUint256` -/
def addUint (width : Fin 32) (value : Argument) : Addition :=
  ⟨⟨.uint width, false⟩, false, .ok value, convertToBigNumber platform⟩

/-- `addInt8Array` to `addInt256Array` -/
def addIntArray (width : Fin 32) (value : Argument) : Addition :=
  ⟨⟨.int width, true⟩, true, .ok value, convertToBigNumberArray platform⟩

/-- `addUint8Array` to `addUint256Array` -/
def addUintArray (width : Fin 32) (value : Argument) : Addition :=
  ⟨⟨.uint width, true⟩, true, .ok value, convertToBigNumberArray platform⟩

/-- The text of an address, or of an object that stands for one. -/
def addressText : Argument → Except JsError String
  | .string value =>
      if utf16Length value ≠ 40 ∧ utf16Length value ≠ 42 then
        .error (.error "`address` type requires parameter to be 40 or 42 characters")
      else .ok value
  | .undefined => .error (.typeError "Cannot read properties of undefined (reading 'toString')")
  | .null => .error (.typeError "Cannot read properties of null (reading 'toString')")
  | value => .ok (platform.text value)

def addressBytes (value : Argument) : Except JsError Argument :=
  (addressText platform value).map fun address =>
    .bytes (if utf16Length address = 40 then hexDecode address
      else hexDecode (.ofList (address.toList.drop 2)))

def addAddress (value : Argument) : Addition :=
  ⟨⟨.address, false⟩, false, addressBytes platform value, .ok⟩

def addAddressArray (value : Argument) : Addition :=
  ⟨⟨.address, true⟩, true,
    value.entries.bind fun entries => (entries.mapM (addressBytes platform)).map .array, .ok⟩

/-- The address and the selector of a function, one behind the other. -/
def functionBytes (address : Argument) (selector : ContractFunctionSelector) : Except JsError Argument :=
  match address with
  | .string address =>
      ((ContractFunctionSelector.build platform.keccak256 none).run selector).1.bind fun functionSelector =>
        if (hexDecode address).length ≠ 20 then
          .error (.error "`function` type requires parameter `address` to be exactly 20 bytes")
        else
          .ok (.bytes (setBytes (setBytes (zeros 24) (hexDecode address) 0) functionSelector 20))
  | .undefined => .error (.typeError "Cannot read properties of undefined (reading 'startsWith')")
  | .null => .error (.typeError "Cannot read properties of null (reading 'startsWith')")
  | _ => .error (.typeError "text.startsWith is not a function")

def addFunction (address : Argument) (selector : ContractFunctionSelector) : Addition :=
  ⟨⟨.func, false⟩, false, functionBytes platform address selector, .ok⟩

inductive Call where
  | addString (value : Argument)
  | addStringArray (value : Argument)
  | addBytes (value : Argument)
  | addBytes32 (value : Argument)
  | addBytesArray (value : Argument)
  | addBytes32Array (value : Argument)
  | addBool (value : Argument)
  | addInt (width : Fin 32) (value : Argument)
  | addUint (width : Fin 32) (value : Argument)
  | addIntArray (width : Fin 32) (value : Argument)
  | addUintArray (width : Fin 32) (value : Argument)
  | addAddress (value : Argument)
  | addAddressArray (value : Argument)
  | addFunction (address : Argument) (selector : ContractFunctionSelector)

def Call.addition : Call → Addition
  | addString value => ContractFunctionParameters.addString value
  | addStringArray value => ContractFunctionParameters.addStringArray value
  | addBytes value => ContractFunctionParameters.addBytes value
  | addBytes32 value => ContractFunctionParameters.addBytes32 value
  | addBytesArray value => ContractFunctionParameters.addBytesArray value
  | addBytes32Array value => ContractFunctionParameters.addBytes32Array value
  | addBool value => ContractFunctionParameters.addBool value
  | addInt width value => ContractFunctionParameters.addInt platform width value
  | addUint width value => ContractFunctionParameters.addUint platform width value
  | addIntArray width value => ContractFunctionParameters.addIntArray platform width value
  | addUintArray width value => ContractFunctionParameters.addUintArray platform width value
  | addAddress value => ContractFunctionParameters.addAddress platform value
  | addAddressArray value => ContractFunctionParameters.addAddressArray platform value
  | addFunction address selector => ContractFunctionParameters.addFunction platform address selector

/-! ## Building -/

/-- The arguments, static ones in their 32 bytes and the others behind all these. -/
def setArguments (nameOffset : Nat) : List FunctionArgument → Nat → Nat → Bytes → Except JsError Bytes
  | [], _, _, func => .ok func
  | argument :: rest, i, offset, func =>
      if argument.dynamic then
        (setAt (setUint32 func (nameOffset + i * 32 + 28) offset) argument.value
            (offset % 4294967296 + nameOffset)).bind
          (setArguments nameOffset rest (i + 1) (offset + argument.value.length))
      else
        (setAt func argument.value (nameOffset + i * 32)).bind
          (setArguments nameOffset rest (i + 1) offset)

/-- The bytes of the dynamic arguments together. -/
def dynamicLength (arguments : List FunctionArgument) : Nat :=
  (arguments.map fun argument => if argument.dynamic then argument.value.length else 0).sum

def buildSelector (name : String) : ParametersMethod Bytes :=
  Method.zoom selector (fun selector parameters => { parameters with selector })
    (ContractFunctionSelector.build platform.keccak256 (some name))

/-- `_build(name)` -/
def build (name : Option String) : ParametersMethod Bytes := do
  let parameters ← Method.this
  let nameOffset := if name.isSome then 4 else 0
  let length := parameters.arguments.length * 32 + dynamicLength parameters.arguments + nameOffset
  let id ← match name with
    | some name => buildSelector platform name
    | none => pure []
  let func ← Method.ofExcept (setAt (zeros length) id 0)
  Method.ofExcept
    (setArguments nameOffset parameters.arguments 0 (32 * parameters.arguments.length) func)

end ContractFunctionParameters

end HederaSdk
