import HederaSdk.EntityId
import HederaSdk.Network.ManagedNode

/-!
# `parseInt`

The number that a text starts with, behind white space and a sign. Without digits it is `NaN`.
-/

namespace HederaSdk

def digitValue (radix : Nat) (c : Char) : Option Nat := (hexValue c).filter (· < radix)

/-- The radix of a numeral and its text: `0x` starts one of radix 16. -/
def hexPrefix (radix : Nat) : List Char → Nat × List Char
  | '0' :: 'x' :: text => (16, text)
  | '0' :: 'X' :: text => (16, text)
  | text => (radix, text)

/-- The number that digits start with; `none` is `NaN`. -/
def leadingNumber (radix : Nat) (text : List Char) : Option Nat :=
  match text.takeWhile fun c => (digitValue radix c).isSome with
  | [] => none
  | digits => some ((digits.filterMap (digitValue radix)).foldl (fun n digit => radix * n + digit) 0)

def unsignedNumber (radix : Option Nat) (text : List Char) : Option Nat :=
  if radix = none ∨ radix = some 16 then
    leadingNumber (hexPrefix (radix.getD 10) text).1 (hexPrefix (radix.getD 10) text).2
  else leadingNumber (radix.getD 10) text

/-- `parseInt(text, radix)` for a radix up to 16, `none` when it is not given. -/
def parseInt (radix : Option Nat) (text : List Char) : Option Int :=
  match text.dropWhile isJsWhitespace with
  | '-' :: rest => (unsignedNumber radix rest).map fun n : Nat => -(n : Int)
  | '+' :: rest => (unsignedNumber radix rest).map fun n : Nat => (n : Int)
  | rest => (unsignedNumber radix rest).map fun n : Nat => (n : Int)

end HederaSdk
