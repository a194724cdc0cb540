import HederaSdk.EntityId
import HederaSdk.Library.Method

/-!
# Function selectors

A selector keeps the types of a function's parameters and, beside them, their text. Every
call that adds a type appends to both.
-/

namespace HederaSdk

open Library

/-- An integer has `8 * (width + 1)` bits. -/
inductive ArgumentType where
  | uint (width : Fin 32)
  | int (width : Fin 32)
  | string
  | bool
  | bytes
  | bytes32
  | address
  | func
  deriving DecidableEq

structure SolidityType where
  ty : ArgumentType
  array : Bool
  deriving DecidableEq

namespace ArgumentType

def bits (width : Fin 32) : Nat := 8 * (width.1 + 1)

def toString : ArgumentType → String
  | uint width => s!"uint{bits width}"
  | int width => s!"int{bits width}"
  | string => "string"
  | bool => "bool"
  | bytes => "bytes"
  | bytes32 => "bytes32"
  | address => "address"
  | func => "function"

end ArgumentType

/-- `solidityTypeToString` -/
def SolidityType.toString (ty : SolidityType) : String :=
  ty.ty.toString ++ (if ty.array then "[]" else "")

structure ContractFunctionSelector where
  /-- `_name` -/
  name : Option String := none
  params : String := ""
  paramTypes : List SolidityType := []
  deriving DecidableEq

namespace ContractFunctionSelector

/-- `_addParam` -/
def addParam (selector : ContractFunctionSelector) (ty : SolidityType) : ContractFunctionSelector :=
  { selector with
    params := (if 0 < selector.paramTypes.length then selector.params ++ "," else selector.params) ++
      ty.toString
    paramTypes := selector.paramTypes ++ [ty] }

def toString (selector : ContractFunctionSelector) : String :=
  let name := selector.name.getD ""
  s!"{name}({selector.params})"

/-- `_build(name)`, which keeps the name; `keccak256` takes and gives hex texts. -/
def build (keccak256 : String → String) (name : Option String) :
    Method JsError ContractFunctionSelector Bytes := do
  let selector ← Method.this
  match name, selector.name with
  | none, none => Method.throwing (.error "`name` required for ContractFunctionSelector")
  | some name, _ => Method.update fun selector => { selector with name }
  | none, some _ => pure ⟨⟩
  let selector ← Method.this
  pure ((hexDecode (keccak256 ("0x" ++ hexEncode selector.toString.toUTF8.toList))).take 4)

@[simp] theorem paramTypes_addParam (selector : ContractFunctionSelector) (ty : SolidityType) :
    (selector.addParam ty).paramTypes = selector.paramTypes ++ [ty] := rfl

end ContractFunctionSelector

end HederaSdk
