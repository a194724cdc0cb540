import HederaSdk.Errors
import Mathlib.Algebra.Group.Nat.Defs

/-!
# Checksums of account ids

Five letters derived from the text of an id and the id of the ledger. An id with
a checksum is refused by a client of another ledger.
-/

namespace HederaSdk

def base26 (digits : Nat) : Nat := 26 ^ digits

/-- The digits of an address, with 10 for the dot. -/
def checksumDigits (addr : String) : List Nat :=
  addr.toList.map fun c => if c = '.' then 10 else c.toNat - 48

def weightedSum (modulus : Nat) (digits : List Nat) : Nat :=
  digits.foldl (fun s d => (31 * s + d) % modulus) 0

/-- The sums, modulo 11, of the digits at even and at odd positions. -/
def alternatingSums : List Nat → Nat × Nat
  | [] => (0, 0)
  | d :: rest => ((d + (alternatingSums rest).2) % 11, (alternatingSums rest).1)

/-- `_checksum` -/
def checksum (ledgerId : Bytes) (addr : String) : String :=
  let p3 := base26 3
  let p5 := base26 5
  let digits := checksumDigits addr
  let (s0, s1) := alternatingSums digits
  let s := weightedSum p3 digits
  let sh := weightedSum p5 (ledgerId.map UInt8.toNat ++ List.replicate 6 0)
  let c := ((((addr.length % 5) * 11 + s0) * 11 + s1) * p3 + s + sh) % p5
  let c := c * 1000003 % p5
  String.ofList ((List.range 5).reverse.map fun i => Char.ofNat (97 + c / base26 i % 26))

example : checksum [0] "0.0.123" = "vfmkw" ∧ checksum [1] "0.0.123" = "esxsf" := by decide +kernel

/-- The ledger id is the one set on the client's network. -/
def AccountId.validateChecksum (id : AccountId) (ledgerId : Option Bytes) : Except JsError Unit :=
  if id.aliasKey.isSome then
    .error (.error "cannot calculate checksum with an account ID that has a aliasKey")
  else
    match ledgerId, id.checksum with
    | some ledgerId, some present =>
        let text := s!"{id.shard}.{id.realm}.{id.num}"
        if present = HederaSdk.checksum ledgerId text then .ok ()
        else .error (.badEntityId text present (HederaSdk.checksum ledgerId text))
    | _, _ => .ok ()

end HederaSdk
