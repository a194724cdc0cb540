import HederaSdk.Contract.Layout

/-!
# Solidity values

What a call means: the values it is made with, and how the application binary interface of
Solidity lays them out. Everything is in slots of 32 bytes. Numbers are at the end of their
slot and negative ones are complements; bytes, also those of a function, are at its beginning.
-/

namespace HederaSdk

open Library HeadTail

inductive SolidityScalar where
  | uint (width : Fin 32) (n : Nat) (most : n < 2 ^ ArgumentType.bits width)
  | int (width : Fin 32) (n : Int) (least : -2 ^ (ArgumentType.bits width - 1) ≤ n)
      (most : n < 2 ^ (ArgumentType.bits width - 1))
  | bool (b : Bool)
  | address (data : Bytes) (length : data.length = 20)
  /-- A function of a contract. -/
  | func (contract selector : Bytes) (length : contract.length = 20) (length' : selector.length = 4)
  | bytes32 (data : Bytes) (length : data.length = 32)
  | bytes (data : Bytes)
  | string (text : String)

namespace SolidityScalar

def type : SolidityScalar → ArgumentType
  | uint width .. => .uint width
  | int width .. => .int width
  | bool _ => .bool
  | address .. => .address
  | func .. => .func
  | bytes32 .. => .bytes32
  | bytes _ => .bytes
  | string _ => .string

def encode : SolidityScalar → Bytes
  | uint _ n _ => BigEndian.encode 32 n
  | int _ n _ _ => BigEndian.encode 32 (n % 2 ^ 256).toNat
  | bool b => BigEndian.encode 32 (if b then 1 else 0)
  | address data _ => zeros 12 ++ data
  | func contract selector _ _ => padRight (contract ++ selector)
  | bytes32 data _ => data
  | bytes data => BigEndian.encode 32 data.length ++ padRight data
  | string text => BigEndian.encode 32 text.toUTF8.toList.length ++ padRight text.toUTF8.toList

def part (scalar : SolidityScalar) : HeadTail.Part := ⟨isText scalar.type, scalar.encode⟩

end SolidityScalar

inductive SolidityValue where
  | scalar (value : SolidityScalar)
  | array (ty : ArgumentType) (items : List { scalar : SolidityScalar // scalar.type = ty })

namespace SolidityValue

def type : SolidityValue → SolidityType
  | scalar value => ⟨value.type, false⟩
  | array ty _ => ⟨ty, true⟩

def part : SolidityValue → HeadTail.Part
  | scalar value => value.part
  | array _ items => ⟨true, BigEndian.encode 32 items.length ++ abiLayout.encode (items.map fun item => item.1.part)⟩

/-- The tuple of the arguments of a call. -/
def encodeTuple (values : List SolidityValue) : Bytes := abiLayout.encode (values.map part)

end SolidityValue

/-- The name of a function with the types of its parameters. -/
def signature (name : String) (types : List SolidityType) : String :=
  name ++ "(" ++ ",".intercalate (types.map SolidityType.toString) ++ ")"

/-! ## Sizes -/

theorem length_padRight (bytes : Bytes) : bytes.length ≤ (padRight bytes).length := by
  rw [padRight, List.length_append]
  exact Nat.le_add_right _ _

theorem padRight_of_length {bytes : Bytes} {n : Nat} (length : bytes.length % 32 + n = 32) (short : n < 32) :
    padRight bytes = bytes ++ zeros n := by
  rw [padRight]
  congr 2
  omega

namespace SolidityScalar

/-- A value that is no text fills a slot. -/
theorem length_encode {scalar : SolidityScalar} (static : isText scalar.type = false) :
    scalar.encode.length = 32 := by
  cases scalar with
  | uint width n most => rw [encode, BigEndian.length_encode]
  | int width n least most => rw [encode, BigEndian.length_encode]
  | bool b => rw [encode, BigEndian.length_encode]
  | address data length => rw [encode, List.length_append, length_zeros, length]
  | func contract selector length length' =>
      have whole : (contract ++ selector).length = 24 := by rw [List.length_append, length, length']
      rw [encode, @padRight_of_length _ 8 (by rw [whole]) (by decide), List.length_append, whole, length_zeros]
  | bytes32 data length => rw [encode, length]
  | bytes data => exact absurd static (by simp [type, isText])
  | string text => exact absurd static (by simp [type, isText])

theorem fits_part (scalar : SolidityScalar) : abiLayout.Fits scalar.part := length_encode

end SolidityScalar

namespace SolidityValue

theorem fits_part (value : SolidityValue) : abiLayout.Fits value.part := by
  cases value with
  | scalar value => exact value.fits_part
  | array ty items => exact fun dynamic => absurd dynamic.symm Bool.false_ne_true

theorem fits_parts (values : List SolidityValue) : ∀ p ∈ values.map part, abiLayout.Fits p := by
  intro p member
  obtain ⟨value, -, rfl⟩ := List.mem_map.mp member
  exact value.fits_part

end SolidityValue

end HederaSdk
