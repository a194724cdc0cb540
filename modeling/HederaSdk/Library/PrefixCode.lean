import Mathlib.Algebra.Group.Nat.Defs
import Mathlib.Data.List.Basic

/-!
# Prefix codes

A writer turns a value into bytes and a reader takes a value off the front of a
list of bytes. `Reads` says that the reader finds what was written, whatever
follows it, so codes compose by writing one after the other.
-/

namespace HederaSdk.Library.PrefixCode

universe u v

variable {α : Type u} {β : Type v}

abbrev Writer (α : Type u) := α → List UInt8

abbrev Reader (α : Type u) := List UInt8 → Option (α × List UInt8)

def Reads (write : Writer α) (read : Reader α) : Prop :=
  ∀ a rest, read (write a ++ rest) = some (a, rest)

/-- Read a whole list of bytes. -/
def readAll (read : Reader α) (input : List UInt8) : Option α :=
  match read input with
  | some (a, []) => some a
  | _ => none

theorem Reads.readAll {write : Writer α} {read : Reader α} (reads : Reads write read) (a : α) :
    readAll read (write a) = some a := by
  have found := reads a []
  rw [List.append_nil] at found
  simp [PrefixCode.readAll, found]

/-! ## Numbers -/

def writeByte (b : UInt8) : List UInt8 := [b]

def readByte : Reader UInt8
  | [] => none
  | b :: rest => some (b, rest)

theorem reads_byte : Reads writeByte readByte := fun _ _ => rfl

/-- Seven bits in a byte, low bits first; a byte from 128 on has another behind it.
The first number bounds how many. -/
def writeDigits : Nat → Nat → List UInt8
  | 0, n => [UInt8.ofNat n]
  | more + 1, n =>
      if n < 128 then [UInt8.ofNat n]
      else UInt8.ofNat (128 + n % 128) :: writeDigits more (n / 128)

def writeNat (n : Nat) : List UInt8 := writeDigits n.log2 n

theorem writeNat_ne_nil (n : Nat) : writeNat n ≠ [] := by
  unfold writeNat
  cases n.log2 with
  | zero => simp [writeDigits]
  | succ more =>
      unfold writeDigits
      split <;> simp

def readNat : Reader Nat
  | [] => none
  | b :: rest =>
      if b.toNat < 128 then some (b.toNat, rest)
      else (readNat rest).map fun r => (b.toNat - 128 + 128 * r.1, r.2)

theorem reads_digits (more n : Nat) (rest : List UInt8) (bound : n < 128 ^ (more + 1)) :
    readNat (writeDigits more n ++ rest) = some (n, rest) := by
  have small : ∀ n, n < 128 → readNat (UInt8.ofNat n :: rest) = some (n, rest) := by
    intro n small
    have value : (UInt8.ofNat n).toNat = n := by rw [UInt8.toNat_ofNat']; omega
    rw [readNat, value, if_pos small]
  induction more generalizing n with
  | zero => exact small n (by simpa using bound)
  | succ more inductionHypothesis =>
      unfold writeDigits
      split
      · exact small n ‹_›
      · have value : (UInt8.ofNat (128 + n % 128)).toNat = 128 + n % 128 := by
          rw [UInt8.toNat_ofNat']
          omega
        have higher : n / 128 < 128 ^ (more + 1) := Nat.div_lt_of_lt_mul (by rwa [← Nat.pow_succ'])
        rw [List.cons_append, readNat, value, if_neg (by omega), inductionHypothesis _ higher,
          Option.map_some, Nat.add_sub_cancel_left, Nat.mod_add_div]

theorem reads_nat : Reads writeNat readNat := by
  intro n rest
  exact reads_digits _ n rest
    (Nat.lt_of_lt_of_le Nat.lt_log2_self (Nat.pow_le_pow_left (by omega) _))

def writeInt (n : Int) : List UInt8 := (if n < 0 then 1 else 0) :: writeNat n.natAbs

def readInt : Reader Int
  | [] => none
  | sign :: rest => (readNat rest).map fun r => (if sign = 1 then -r.1 else r.1, r.2)

theorem reads_int : Reads writeInt readInt := by
  intro n rest
  by_cases negative : n < 0
  · have sign : -(n.natAbs : Int) = n := by omega
    rw [writeInt, if_pos negative, List.cons_append, readInt, reads_nat n.natAbs rest]
    simp only [Option.map_some, if_true, sign]
  · have sign : (n.natAbs : Int) = n := by omega
    rw [writeInt, if_neg negative, List.cons_append, readInt, reads_nat n.natAbs rest]
    simp only [Option.map_some, show ((0 : UInt8) = 1) = False by decide, if_false, sign]

/-! ## Sequences -/

def readMany (read : Reader α) : Nat → Reader (List α)
  | 0, input => some ([], input)
  | n + 1, input =>
      match read input with
      | none => none
      | some (a, rest) => (readMany read n rest).map fun r => (a :: r.1, r.2)

def writeList (write : Writer α) (list : List α) : List UInt8 :=
  writeNat list.length ++ list.flatMap write

def readList (read : Reader α) : Reader (List α) := fun input =>
  match readNat input with
  | none => none
  | some (n, rest) => readMany read n rest

theorem Reads.many {write : Writer α} {read : Reader α} (reads : Reads write read) (list : List α)
    (rest : List UInt8) :
    readMany read list.length (list.flatMap write ++ rest) = some (list, rest) := by
  induction list with
  | nil => rfl
  | cons a list inductionHypothesis =>
      simp [readMany, reads a, inductionHypothesis]

theorem Reads.list {write : Writer α} {read : Reader α} (reads : Reads write read) :
    Reads (writeList write) (readList read) := by
  intro list rest
  simp only [writeList, readList, List.append_assoc, reads_nat list.length]
  exact reads.many list rest

def writeString (s : String) : List UInt8 := writeList (fun c => writeNat c.toNat) s.toList

def readString : Reader String := fun input =>
  (readList (fun input => (readNat input).map fun r => (Char.ofNat r.1, r.2)) input).map
    fun r => (String.ofList r.1, r.2)

theorem reads_string : Reads writeString readString := by
  intro s rest
  have chars : Reads (fun c : Char => writeNat c.toNat)
      (fun input => (readNat input).map fun r => (Char.ofNat r.1, r.2)) := by
    intro c rest
    simp [reads_nat c.toNat rest]
  simp [writeString, readString, chars.list s.toList rest]

def writePair (write : Writer α) (write' : Writer β) (p : α × β) : List UInt8 :=
  write p.1 ++ write' p.2

def readPair (read : Reader α) (read' : Reader β) : Reader (α × β) := fun input =>
  match read input with
  | none => none
  | some (a, rest) => (read' rest).map fun r => ((a, r.1), r.2)

theorem Reads.pair {write : Writer α} {read : Reader α} {write' : Writer β} {read' : Reader β}
    (reads : Reads write read) (reads' : Reads write' read') :
    Reads (writePair write write') (readPair read read') := by
  rintro ⟨a, b⟩ rest
  simp [writePair, readPair, reads a, reads' b rest]

def writeOption (write : Writer α) : Option α → List UInt8
  | none => [0]
  | some a => 1 :: write a

def readOption (read : Reader α) : Reader (Option α)
  | [] => none
  | tag :: rest => if tag = 0 then some (none, rest) else (read rest).map fun r => (some r.1, r.2)

theorem Reads.option {write : Writer α} {read : Reader α} (reads : Reads write read) :
    Reads (writeOption write) (readOption read) := by
  rintro (_ | a) rest
  · rfl
  · simp [writeOption, readOption, reads a rest]

/-- Read another type through a value that determines it. -/
theorem Reads.map {write : Writer α} {read : Reader α} (reads : Reads write read) {f : β → α}
    {g : α → β} (inverse : ∀ b, g (f b) = b) :
    Reads (fun b => write (f b)) (fun input => (read input).map fun r => (g r.1, r.2)) := by
  intro b rest
  simp [reads (f b) rest, inverse]

end HederaSdk.Library.PrefixCode
