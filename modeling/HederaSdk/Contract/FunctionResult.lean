import HederaSdk.Contract.Encoding
import HederaSdk.Js.Json

/-!
# Results of functions

Each getter reads the slot of its index through a window of its own, or what stands at the offset in
it. Of the numbers up to 32 bits all but the smallest are read from the last four bytes of the slot.
-/

namespace HederaSdk

open Library HeadTail

structure ContractFunctionResult where
  bytes : Bytes

/-- What a getter returns. -/
inductive ResultValue where
  | undefined
  | boolean (b : Bool)
  | number (n : Int)
  | string (text : String)
  | bytes (data : Bytes)
  | bigNumber (n : BigNumber)

/-- What `defaultAbiCoder.decode` makes of an integer in a slot, as a number. -/
structure ResultPlatform where
  decodeInteger : ArgumentType → Bytes → Except JsError BigNumber

/-- The decoder reads the integers that are in their range. -/
def ResultPlatform.DecodesIntegers (platform : ResultPlatform) : Prop :=
  ∀ width (n : Int), -2 ^ (ArgumentType.bits width - 1) ≤ n → n < 2 ^ (ArgumentType.bits width - 1) →
    platform.decodeInteger (.int width) (BigEndian.encode 32 (n % 2 ^ 256).toNat) = .ok (some (n : ℚ))

/-- A place of `data.subarray`, counted from the end when it is negative. -/
def subarrayPlace (length : Nat) (place : Int) : Nat :=
  if place < 0 then (length + place).toNat else place.toNat

def subarray (data : Bytes) (start stop : Int) : Bytes :=
  (data.take (subarrayPlace data.length stop)).drop (subarrayPlace data.length start)

/-- The number with a sign that has these low bits. -/
def signed (bits n : Nat) : Int := if n < 2 ^ (bits - 1) then n else (n : Int) - 2 ^ bits

/-- `new BigNumber(hex.encode(data), 16)` -/
def hexNumber (data : Bytes) : BigNumber := if data = [] then none else some (BigEndian.value data : ℚ)

namespace ContractFunctionResult

/-- So many bytes of a view. -/
def view (result : ContractFunctionResult) (size : Nat) (position : Int) : Except JsError Nat :=
  if 0 ≤ position ∧ position + size ≤ result.bytes.length then
    .ok (BigEndian.value ((result.bytes.drop position.toNat).take size))
  else .error (.error "Offset is outside the bounds of the DataView")

section

variable (platform : ResultPlatform) (result : ContractFunctionResult) (index : Option Nat)

/-- `(index != null ? index : 0) * 32 + window` -/
def position (window : Nat) : Nat := index.getD 0 * 32 + window

/-- `safeView(this.bytes).getInt32` -/
def viewInt32 (position : Int) : Except JsError Int := (result.view 4 position).map (signed 32)

/-- `_getBytes32` -/
def slotBytes : Bytes := (result.bytes.take (position index 32)).drop (position index 0)

def getInt32 : Except JsError ResultValue := (result.viewInt32 (position index 28)).map .number

def getBytes : Except JsError Bytes := do
  let offset ← result.viewInt32 (position index 28)
  let len ← result.viewInt32 (offset + 28)
  .ok (subarray result.bytes (offset + 32) (offset + 32 + len))

def getString : Except JsError ResultValue := (result.getBytes index).map fun data => .string (utf8Decode data)

def getBytes32 : Except JsError ResultValue := .ok (.bytes (result.slotBytes index))

def getBool : Except JsError ResultValue := .ok (.boolean (decide (result.bytes[position index 31]? ≠ some 0)))

def getAddress : Except JsError ResultValue :=
  .ok (.string (hexEncode ((result.bytes.take (position index 32)).drop (position index 12))))

def getInt8 : Except JsError ResultValue := (result.view 1 (position index 31)).map fun n => .number (signed 8 n)

def getUint8 : Except JsError ResultValue :=
  .ok (match result.bytes[position index 31]? with
    | some byte => .number byte.toNat
    | none => .undefined)

def getInt16 : Except JsError ResultValue := (result.viewInt32 (position index 28)).map .number

def getInt24 : Except JsError ResultValue := (result.viewInt32 (position index 28)).map .number

/-- `safeView(this.bytes).getUint32` -/
def viewUint32 : Except JsError ResultValue := (result.view 4 (position index 28)).map fun n => .number n

def getUint16 : Except JsError ResultValue := result.viewUint32 index

def getUint24 : Except JsError ResultValue := result.viewUint32 index

def getUint32 : Except JsError ResultValue := result.viewUint32 index

/-- The decoder reads the slot. -/
def decodeInt (width : Fin 32) : Except JsError ResultValue :=
  (platform.decodeInteger (.int width) (result.slotBytes index)).map .bigNumber

/-- The bytes of the slot from the window on. -/
def readUint (window : Nat) : Except JsError ResultValue :=
  .ok (.bigNumber (hexNumber (((result.slotBytes index).take 32).drop window)))

def getInt40 : Except JsError ResultValue := result.decodeInt platform index 4

def getInt48 : Except JsError ResultValue := result.decodeInt platform index 5

def getInt56 : Except JsError ResultValue := result.decodeInt platform index 6

def getInt64 : Except JsError ResultValue := result.decodeInt platform index 7

def getInt72 : Except JsError ResultValue := result.decodeInt platform index 8

def getInt80 : Except JsError ResultValue := result.decodeInt platform index 9

def getInt88 : Except JsError ResultValue := result.decodeInt platform index 10

def getInt96 : Except JsError ResultValue := result.decodeInt platform index 11

def getInt104 : Except JsError ResultValue := result.decodeInt platform index 12

def getInt112 : Except JsError ResultValue := result.decodeInt platform index 13

def getInt120 : Except JsError ResultValue := result.decodeInt platform index 14

def getInt128 : Except JsError ResultValue := result.decodeInt platform index 15

def getInt136 : Except JsError ResultValue := result.decodeInt platform index 16

def getInt144 : Except JsError ResultValue := result.decodeInt platform index 17

def getInt152 : Except JsError ResultValue := result.decodeInt platform index 18

def getInt160 : Except JsError ResultValue := result.decodeInt platform index 19

def getInt168 : Except JsError ResultValue := result.decodeInt platform index 20

def getInt176 : Except JsError ResultValue := result.decodeInt platform index 21

def getInt184 : Except JsError ResultValue := result.decodeInt platform index 22

def getInt192 : Except JsError ResultValue := result.decodeInt platform index 23

def getInt200 : Except JsError ResultValue := result.decodeInt platform index 24

def getInt208 : Except JsError ResultValue := result.decodeInt platform index 25

def getInt216 : Except JsError ResultValue := result.decodeInt platform index 26

def getInt224 : Except JsError ResultValue := result.decodeInt platform index 27

def getInt232 : Except JsError ResultValue := result.decodeInt platform index 28

def getInt240 : Except JsError ResultValue := result.decodeInt platform index 29

def getInt248 : Except JsError ResultValue := result.decodeInt platform index 30

def getInt256 : Except JsError ResultValue := result.decodeInt platform index 31

def getUint40 : Except JsError ResultValue := result.readUint index 27

def getUint48 : Except JsError ResultValue := result.readUint index 26

def getUint56 : Except JsError ResultValue := result.readUint index 25

def getUint64 : Except JsError ResultValue := result.readUint index 24

def getUint72 : Except JsError ResultValue := result.readUint index 23

def getUint80 : Except JsError ResultValue := result.readUint index 22

def getUint88 : Except JsError ResultValue := result.readUint index 21

def getUint96 : Except JsError ResultValue := result.readUint index 20

def getUint104 : Except JsError ResultValue := result.readUint index 19

def getUint112 : Except JsError ResultValue := result.readUint index 18

def getUint120 : Except JsError ResultValue := result.readUint index 17

def getUint128 : Except JsError ResultValue := result.readUint index 16

def getUint136 : Except JsError ResultValue := result.readUint index 15

def getUint144 : Except JsError ResultValue := result.readUint index 14

def getUint152 : Except JsError ResultValue := result.readUint index 13

def getUint160 : Except JsError ResultValue := result.readUint index 12

def getUint168 : Except JsError ResultValue := result.readUint index 11

def getUint176 : Except JsError ResultValue := result.readUint index 10

def getUint184 : Except JsError ResultValue := result.readUint index 9

def getUint192 : Except JsError ResultValue := result.readUint index 8

def getUint200 : Except JsError ResultValue := result.readUint index 7

def getUint208 : Except JsError ResultValue := result.readUint index 6

def getUint216 : Except JsError ResultValue := result.readUint index 5

def getUint224 : Except JsError ResultValue := result.readUint index 4

def getUint232 : Except JsError ResultValue := result.readUint index 3

def getUint240 : Except JsError ResultValue := result.readUint index 2

def getUint248 : Except JsError ResultValue := result.readUint index 1

def getUint256 : Except JsError ResultValue := .ok (.bigNumber (hexNumber (result.slotBytes index)))

/-- The getter of a signed width. -/
def getInt (width : Fin 32) : Except JsError ResultValue :=
  match width.1 with
  | 0 => result.getInt8 index
  | 1 => result.getInt16 index
  | 2 => result.getInt24 index
  | 3 => result.getInt32 index
  | 4 => result.getInt40 platform index
  | 5 => result.getInt48 platform index
  | 6 => result.getInt56 platform index
  | 7 => result.getInt64 platform index
  | 8 => result.getInt72 platform index
  | 9 => result.getInt80 platform index
  | 10 => result.getInt88 platform index
  | 11 => result.getInt96 platform index
  | 12 => result.getInt104 platform index
  | 13 => result.getInt112 platform index
  | 14 => result.getInt120 platform index
  | 15 => result.getInt128 platform index
  | 16 => result.getInt136 platform index
  | 17 => result.getInt144 platform index
  | 18 => result.getInt152 platform index
  | 19 => result.getInt160 platform index
  | 20 => result.getInt168 platform index
  | 21 => result.getInt176 platform index
  | 22 => result.getInt184 platform index
  | 23 => result.getInt192 platform index
  | 24 => result.getInt200 platform index
  | 25 => result.getInt208 platform index
  | 26 => result.getInt216 platform index
  | 27 => result.getInt224 platform index
  | 28 => result.getInt232 platform index
  | 29 => result.getInt240 platform index
  | 30 => result.getInt248 platform index
  | _ => result.getInt256 platform index

/-- The getter of an unsigned width. -/
def getUint (width : Fin 32) : Except JsError ResultValue :=
  match width.1 with
  | 0 => result.getUint8 index
  | 1 => result.getUint16 index
  | 2 => result.getUint24 index
  | 3 => result.getUint32 index
  | 4 => result.getUint40 index
  | 5 => result.getUint48 index
  | 6 => result.getUint56 index
  | 7 => result.getUint64 index
  | 8 => result.getUint72 index
  | 9 => result.getUint80 index
  | 10 => result.getUint88 index
  | 11 => result.getUint96 index
  | 12 => result.getUint104 index
  | 13 => result.getUint112 index
  | 14 => result.getUint120 index
  | 15 => result.getUint128 index
  | 16 => result.getUint136 index
  | 17 => result.getUint144 index
  | 18 => result.getUint152 index
  | 19 => result.getUint160 index
  | 20 => result.getUint168 index
  | 21 => result.getUint176 index
  | 22 => result.getUint184 index
  | 23 => result.getUint192 index
  | 24 => result.getUint200 index
  | 25 => result.getUint208 index
  | 26 => result.getUint216 index
  | 27 => result.getUint224 index
  | 28 => result.getUint232 index
  | 29 => result.getUint240 index
  | 30 => result.getUint248 index
  | _ => result.getUint256 index

/-- The getter of a type; a function has none. -/
def get (platform : ResultPlatform) (result : ContractFunctionResult) (index : Nat) :
    ArgumentType → Option (Except JsError ResultValue)
  | .uint width => some (result.getUint (some index) width)
  | .int width => some (result.getInt platform (some index) width)
  | .string => some (result.getString (some index))
  | .bool => some (result.getBool (some index))
  | .bytes => some ((result.getBytes (some index)).map .bytes)
  | .bytes32 => some (result.getBytes32 (some index))
  | .address => some (result.getAddress (some index))
  | .func => none

end

/-! ## Windows -/

section

variable {platform : ResultPlatform} {result : ContractFunctionResult} {index : Nat} {slot : Bytes}

/-- The slot of an index. -/
structure Holds (result : ContractFunctionResult) (index : Nat) (slot : Bytes) : Prop where
  length : slot.length = 32
  at_index : ∃ before after, result.bytes = before ++ (slot ++ after) ∧ before.length = 32 * index

theorem view_at {before data after : Bytes} (bytes : result.bytes = before ++ (data ++ after)) :
    result.view data.length (before.length : Nat) = .ok (BigEndian.value data) := by
  have inside : (0 : Int) ≤ (before.length : Nat) ∧ ((before.length : Nat) : Int) + data.length ≤ result.bytes.length := by
    rw [bytes, List.length_append, List.length_append]
    omega
  rw [view, if_pos inside, bytes, Int.toNat_natCast, List.drop_left, List.take_left]

theorem Holds.slotBytes (holds : result.Holds index slot) : result.slotBytes (some index) = slot := by
  obtain ⟨length, before, after, bytes, place⟩ := holds
  have stop : position (some index) 32 = before.length + slot.length := by
    change index * 32 + 32 = _
    omega
  have start : position (some index) 0 = before.length := by
    change index * 32 + 0 = _
    omega
  rw [ContractFunctionResult.slotBytes, bytes, stop, start, ← List.append_assoc, ← List.length_append,
    List.take_left, List.drop_left]

/-- The bytes of a slot up to its end. -/
theorem Holds.view (holds : result.Holds index slot) {size window : Nat} (end_ : window + size = 32) :
    result.view size (position (some index) window : Nat) = .ok (BigEndian.value (slot.drop window)) := by
  obtain ⟨length, before, after, bytes, place⟩ := holds
  have split : result.bytes = (before ++ slot.take window) ++ (slot.drop window ++ after) := by
    rw [bytes, List.append_assoc, ← List.append_assoc (slot.take window), List.take_append_drop]
  have read := view_at split
  have rest : (slot.drop window).length = size := by
    rw [List.length_drop, length]
    omega
  have start : (before ++ slot.take window).length = position (some index) window := by
    change _ = index * 32 + window
    rw [List.length_append, List.length_take, place, length]
    omega
  rwa [rest, start] at read

theorem Holds.byte (holds : result.Holds index slot) {window : Nat} (inside : window < 32) :
    result.bytes[position (some index) window]? = slot[window]? := by
  obtain ⟨length, before, after, bytes, place⟩ := holds
  have start : position (some index) window = before.length + window := by
    change index * 32 + window = _
    omega
  rw [bytes, start, List.getElem?_append_right (Nat.le_add_right _ _), Nat.add_sub_cancel_left,
    List.getElem?_append_left (by omega)]

end

end ContractFunctionResult

end HederaSdk
