import HederaSdk.Errors
import Mathlib.Algebra.Order.Field.Rat
import Mathlib.Tactic.Linarith

/-!
# Nodes

A node is healthy once its readmit time has passed. A failed call doubles its
backoff and moves the readmit time; a call that was answered halves the backoff
again. Times are milliseconds; halving makes them fractions.
-/

namespace HederaSdk

/-- `\s` of a regular expression. -/
def isJsWhitespace (c : Char) : Bool :=
  c ∈ ['\t', '\n', '\x0b', '\x0c', '\r', ' ', '\u00a0', '\u1680', '\u2028', '\u2029', '\u202f',
    '\u205f', '\u3000', '\ufeff'] || (0x2000 ≤ c.toNat && c.toNat ≤ 0x200a)

structure ManagedNodeAddress where
  address : String
  port : Nat
  deriving DecidableEq, Repr

namespace ManagedNodeAddress

/-- `/^(\S+):(\d+)$/`: the digits behind the last colon are the port. -/
def fromString (address : String) : Except JsError ManagedNodeAddress :=
  let reversed := address.toList.reverse
  let digits := (reversed.takeWhile Char.isDigit).reverse
  match reversed.dropWhile Char.isDigit with
  | ':' :: host =>
      if digits ≠ [] ∧ host ≠ [] ∧ host.all (fun c => !isJsWhitespace c) then
        .ok {
          address := String.ofList host.reverse
          port := digits.foldl (fun n d => 10 * n + (d.toNat - 48)) 0 }
      else .error (.error s!"failed to parse address: {address}")
  | _ => .error (.error s!"failed to parse address: {address}")

def toInsecure (a : ManagedNodeAddress) : ManagedNodeAddress :=
  { a with port := if a.port = 50212 then 50211 else a.port }

def toSecure (a : ManagedNodeAddress) : ManagedNodeAddress :=
  { a with port := if a.port = 50211 then 50212 else a.port }

def toString (a : ManagedNodeAddress) : String := s!"{a.address}:{a.port}"

end ManagedNodeAddress

structure Node where
  address : ManagedNodeAddress
  accountId : AccountId
  /-- The address the open channel was created for. -/
  channel : Option String := none
  readmitTime : ℚ
  useCount : Nat := 0
  badGrpcStatusCount : Nat := 0
  minBackoff : ℚ := 8000
  maxBackoff : ℚ := 1000 * 60 * 60
  currentBackoff : ℚ := 8000
  deriving DecidableEq

namespace Node

/-- `new Node({ newNode: { address, accountId } })` -/
def create (address : ManagedNodeAddress) (accountId : AccountId) (now : ℚ) : Node :=
  { address, accountId, readmitTime := now }

/-- `new Node({ cloneNode: { node, address } })`; the copy's maximal backoff is
the minimal one of the original. -/
def clone (node : Node) (address : ManagedNodeAddress) : Node :=
  { node with address, maxBackoff := node.minBackoff }

def getKey (node : Node) : String := node.accountId.toString

def toInsecure (node : Node) : Node := node.clone node.address.toInsecure

def toSecure (node : Node) : Node := node.clone node.address.toSecure

def setMinBackoff (node : Node) (minBackoff : ℚ) : Node :=
  { node with
    currentBackoff := if node.currentBackoff ≤ minBackoff then minBackoff else node.currentBackoff
    minBackoff }

def setMaxBackoff (node : Node) (maxBackoff : ℚ) : Node :=
  { node with
    currentBackoff := if node.currentBackoff ≤ maxBackoff then maxBackoff else node.currentBackoff
    maxBackoff }

def getChannel (node : Node) : Node :=
  { node with
    useCount := node.useCount + 1
    channel := node.channel.or (some node.address.toString) }

def isHealthy (node : Node) (now : ℚ) : Bool := decide (node.readmitTime ≤ now)

def increaseBackoff (node : Node) (now : ℚ) : Node :=
  let currentBackoff := min (node.currentBackoff * 2) node.maxBackoff
  { node with currentBackoff, readmitTime := now + currentBackoff }

def decreaseBackoff (node : Node) : Node :=
  { node with currentBackoff := max (node.currentBackoff / 2) node.minBackoff }

def close (node : Node) : Node := { node with channel := none }

instance : Inhabited Node := ⟨create ⟨"", 0⟩ (.ofNum 0) 0⟩

section

variable (node : Node)

/-! No method of a node touches its account id. -/

@[simp] theorem getKey_create (address : ManagedNodeAddress) (accountId : AccountId) (now : ℚ) :
    (create address accountId now).getKey = accountId.toString := rfl

@[simp] theorem getKey_toInsecure : node.toInsecure.getKey = node.getKey := rfl

@[simp] theorem getKey_toSecure : node.toSecure.getKey = node.getKey := rfl

@[simp] theorem getKey_setMinBackoff (t : ℚ) : (node.setMinBackoff t).getKey = node.getKey := rfl

@[simp] theorem getKey_setMaxBackoff (t : ℚ) : (node.setMaxBackoff t).getKey = node.getKey := rfl

@[simp] theorem getKey_getChannel : node.getChannel.getKey = node.getKey := rfl

@[simp] theorem getKey_increaseBackoff (now : ℚ) :
    (node.increaseBackoff now).getKey = node.getKey := rfl

@[simp] theorem getKey_decreaseBackoff : node.decreaseBackoff.getKey = node.getKey := rfl

@[simp] theorem getKey_close : node.close.getKey = node.getKey := rfl

/-! Only a failed call moves the readmit time. -/

@[simp] theorem isHealthy_create (address : ManagedNodeAddress) (accountId : AccountId) (now : ℚ) :
    (create address accountId now).isHealthy now = true := by simp [isHealthy, create]

@[simp] theorem isHealthy_setMinBackoff (t now : ℚ) :
    (node.setMinBackoff t).isHealthy now = node.isHealthy now := rfl

@[simp] theorem isHealthy_getChannel (now : ℚ) :
    node.getChannel.isHealthy now = node.isHealthy now := rfl

@[simp] theorem isHealthy_decreaseBackoff (now : ℚ) :
    node.decreaseBackoff.isHealthy now = node.isHealthy now := rfl

@[simp] theorem isHealthy_close (now : ℚ) : node.close.isHealthy now = node.isHealthy now := rfl

end

/-- A healthy node stays healthy until a call fails. -/
theorem isHealthy_mono {node : Node} {earlier later : ℚ} (order : earlier ≤ later)
    (healthy : node.isHealthy earlier = true) : node.isHealthy later = true := by
  simp only [isHealthy, decide_eq_true_eq] at healthy ⊢
  linarith

end Node

end HederaSdk
