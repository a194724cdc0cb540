import HederaSdk.EntityId.Long
import HederaSdk.Library.Pattern

/-!
# Parsing an address

`parseAddress` tells a syntax error from an address with and without a checksum. Its pattern
has a quotation mark in front of the anchor and doubled backslashes, as if it stood in a
string, so it captures nothing and every text is a syntax error.
-/

namespace HederaSdk.EntityIdHelper

open Library
open Library.Pattern

/-- `0|(?:[1-9]\\d*)`, where the backslash and the `d` stand for themselves. -/
def numberPattern : Pattern :=
  .either (literal '0') (all [between '1' '9', literal '\\', .many (literal 'd')])

/-- `regex` -/
def addressPattern : Pattern :=
  all [literal '"', .start, .group 1 numberPattern, literal '\\', any, .group 2 numberPattern,
    literal '\\', any, .group 3 numberPattern,
    optional (all [literal '-', .group 4 (times 5 (between 'a' 'z'))]), .stop]

structure ParseAddressResult where
  status : Nat
  num1 : Option Int := none
  num2 : Option Int := none
  num3 : Option Int := none
  givenChecksum : Option String := none
  correctChecksum : Option String := none
  noChecksumFormat : Option String := none
  withChecksumFormat : Option String := none
  deriving DecidableEq

/-- The result for the numbers and the checksum of an address. -/
def parsed (ledgerId : Bytes) (num1 num2 num3 : Int) (given : Option String) : ParseAddressResult :=
  let ad := s!"{num1}.{num2}.{num3}"
  let c := checksum ledgerId ad
  { status := match given with
      | none => 2
      | some given => if c = given then 3 else 1
    num1
    num2
    num3
    givenChecksum := given
    correctChecksum := c
    noChecksumFormat := ad
    withChecksumFormat := s!"{ad}-{c}" }

/-- `_parseAddress` -/
def parseAddress (ledgerId : Bytes) (addr : String) : Except JsError ParseAddressResult :=
  match addressPattern.exec addr.toList with
  | none => .ok { status := 0 }
  | some found => do
      let group (index : Nat) : String := .ofList ((found.captured index).getD [])
      let num1 ← Long.fromString.fromString (group 1)
      let num2 ← Long.fromString.fromString (group 2)
      let num3 ← Long.fromString.fromString (group 3)
      return parsed ledgerId num1 num2 num3 ((found.captured 4).map String.ofList)

/-! ## Addresses -/

/-- Three numbers without leading zeros, and perhaps five letters. -/
inductive Address where
  | plain (a b c : Nat)
  | withChecksum (a b c : Nat) (letters : List Char) (five : IsChecksum letters)

namespace Address

def text : Address → String
  | plain a b c => s!"{a}.{b}.{c}"
  | withChecksum a b c letters _ => s!"{a}.{b}.{c}-{String.ofList letters}"

/-- What the parser is to find. -/
def result (ledgerId : Bytes) : Address → ParseAddressResult
  | plain a b c => parsed ledgerId a b c none
  | withChecksum a b c letters _ => parsed ledgerId a b c (String.ofList letters)

end Address

/-- Status 0 for texts that are no address, and otherwise what the address says. -/
structure ParsesRight (ledgerId : Bytes) (addr : String) : Prop where
  rejects : (∃ result, parseAddress ledgerId addr = .ok result ∧ result.status = 0) ↔
    ∀ address : Address, address.text ≠ addr
  accepts : ∀ address : Address, address.text = addr →
    parseAddress ledgerId addr = .ok (address.result ledgerId)

theorem parseAddress_eq (ledgerId : Bytes) (addr : String) :
    parseAddress ledgerId addr = .ok { status := 0 } := by
  have none : addressPattern.exec addr.toList = Option.none := exec_eq_none (run_char_start _ _) _
  rw [parseAddress, none]

/-- The parser is right about the texts that are no address, and wrong about every address. -/
theorem parsesRight_iff (ledgerId : Bytes) (addr : String) :
    ParsesRight ledgerId addr ↔ ∀ address : Address, address.text ≠ addr := by
  have failed : ∃ result, parseAddress ledgerId addr = .ok result ∧ result.status = 0 :=
    ⟨_, parseAddress_eq ledgerId addr, rfl⟩
  constructor
  · exact fun right => right.rejects.mp failed
  · exact fun noAddress => ⟨iff_of_true failed noAddress, fun address same => absurd same (noAddress address)⟩

/-- `0.0.123` is a syntax error. -/
theorem plain_address_is_rejected : ¬ ∀ ledgerId addr, ParsesRight ledgerId addr := by
  intro all
  have rejected := (all [0] "0.0.123").rejects.mp ⟨_, parseAddress_eq [0] "0.0.123", rfl⟩
  exact rejected (.plain 0 0 123) rfl

end HederaSdk.EntityIdHelper
