import HederaSdk.EntityId.Long
import HederaSdk.Library.Decimal

/-!
# Hbars

An amount of hbars is kept in tinybars, as a number of any size. The constructor takes
amounts of many kinds and only refuses those that are no integer of tinybars; a body gets
the amount as a `Long`, which is read from its decimal text.

Numbers of bignumber.js are exact. One that is not finite is `none`; the sign of a zero is
left out, since no text that is read or sent shows it.
-/

namespace HederaSdk

open Library

abbrev BigNumber := Option ℚ

/-- `new BigNumber(text)` -/
structure NumberReader where
  read : String → BigNumber

/-- Plain decimals are read exactly, and the text of an object as `NaN`. -/
structure NumberReader.Faithful (reader : NumberReader) : Prop where
  plain : ∀ plain : Plain, reader.read (.ofList plain.text) = some plain.value
  object : reader.read "[object Object]" = none

theorem NumberReader.Faithful.integer {reader : NumberReader} (faithful : reader.Faithful) (n : Int) :
    reader.read (toString n) = some n := by
  have read := faithful.plain (.ofInt n)
  rwa [Plain.text_ofInt, Plain.value_ofInt, Long.ofList_decimal] at read

/-- A reader of nothing but plain decimals. -/
def plainReader : NumberReader where
  read text := Plain.read text.toList

theorem plainReader_faithful : plainReader.Faithful where
  plain := by
    intro plain
    change Plain.read (String.ofList plain.text).toList = _
    rw [String.toList_ofList]
    exact Plain.read_text plain
  object := by decide +kernel

inductive HbarUnit where
  | tinybar
  | microbar
  | millibar
  | hbar
  | kilobar
  | megabar
  | gigabar
  deriving DecidableEq

namespace HbarUnit

/-- A unit is a power of ten in tinybars. -/
def exponent : HbarUnit → Nat
  | tinybar => 0
  | microbar => 2
  | millibar => 5
  | hbar => 8
  | kilobar => 11
  | megabar => 14
  | gigabar => 17

/-- `_tinybar` -/
def tinybars (unit : HbarUnit) : ℚ := 10 ^ unit.exponent

/-- `_symbol` -/
def symbol : HbarUnit → String
  | tinybar => "tℏ"
  | microbar => "μℏ"
  | millibar => "mℏ"
  | hbar => "ℏ"
  | kilobar => "kℏ"
  | megabar => "Mℏ"
  | gigabar => "Gℏ"

def fromString (unit : String) : Except JsError HbarUnit :=
  if unit = symbol hbar then .ok hbar
  else if unit = symbol tinybar then .ok tinybar
  else if unit = symbol microbar then .ok microbar
  else if unit = symbol millibar then .ok millibar
  else if unit = symbol kilobar then .ok kilobar
  else if unit = symbol megabar then .ok megabar
  else if unit = symbol gigabar then .ok gigabar
  else .error (.error "Unknown unit.")

theorem fromString_symbol (unit : HbarUnit) : fromString unit.symbol = .ok unit := by
  cases unit <;> decide

end HbarUnit

/-- An object with the fields of a `Long` that is none. -/
structure LongObject where
  low : Int
  high : Int
  unsigned : Bool
  deriving DecidableEq

/-- What the 64 bits stand for. -/
def LongObject.value (object : LongObject) : Int :=
  let bits := object.high % 4294967296 * 4294967296 + object.low % 4294967296
  if object.unsigned then bits else Long.wrap bits

/-- A number is given by its text. -/
inductive Amount where
  | number (text : String)
  | string (text : String)
  | long (n : Int)
  | longObject (object : LongObject)
  | bigNumber (n : BigNumber)

structure Hbar where
  valueInTinybar : Int
  deriving DecidableEq

namespace Hbar

section Construct

variable (reader : NumberReader)

def valueToLong : Amount → BigNumber
  | .number text => reader.read text
  | .string text => reader.read text
  | .long n => reader.read (toString n)
  | .longObject _ => reader.read "[object Object]"
  | .bigNumber n => n

/-- What is multiplied by the unit; an object that is no `Long` counts as 0. -/
def bigAmount : Amount → BigNumber
  | .number text => reader.read text
  | .string text => reader.read text
  | .long n => reader.read (toString n)
  | .longObject _ => some 0
  | .bigNumber n => n

def requireInteger : BigNumber → Except JsError Hbar
  | some q => if q.den = 1 then .ok ⟨q.num⟩ else .error (.error "Hbar in tinybars contains decimals")
  | none => .error (.error "Hbar in tinybars contains decimals")

/-- `new Hbar(amount, unit)` -/
def construct (amount : Amount) (unit : HbarUnit) : Except JsError Hbar :=
  if unit = .tinybar then requireInteger (valueToLong reader amount)
  else requireInteger ((bigAmount reader amount).map (· * unit.tinybars))

end Construct

/-- `_valueInTinybar.toFixed()` -/
def toFixed (hbar : Hbar) : String := toString hbar.valueInTinybar

def toTinybars (hbar : Hbar) : Except JsError Int := Long.fromString.fromString hbar.toFixed

def negated (hbar : Hbar) : Hbar := ⟨-hbar.valueInTinybar⟩

theorem toTinybars_eq (hbar : Hbar) : hbar.toTinybars = .ok (Long.wrap hbar.valueInTinybar) :=
  Long.fromString_decimal _

theorem requireInteger_eq_ok {n : BigNumber} {hbar : Hbar} :
    requireInteger n = .ok hbar ↔ n = some (hbar.valueInTinybar : ℚ) := by
  cases n with
  | none => simp [requireInteger]
  | some q =>
      rw [requireInteger]
      constructor
      · intro made
        split at made
        · rename_i integral
          cases made
          rw [(Rat.den_eq_one_iff q).mp integral]
        · cases made
      · intro same
        rw [Option.some.inj same, if_pos (Rat.den_intCast _), Rat.num_intCast]

end Hbar

end HederaSdk
