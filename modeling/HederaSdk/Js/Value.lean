import Mathlib.Data.Int.Init

/-!
# Script values and `util.compare`

A decoded protobuf message is an object whose own properties are listed in the
order of the wire. To `Object.keys` a 64-bit `Long`, a byte array and a list are
objects too: a `Long` has the properties `low`, `high` and `unsigned`, an array
has its indices.

`compare` walks two such trees and skips the properties it is told to ignore.
`without` blanks those properties instead; `compare` answers `true` only for
trees that are equal once blanked.
-/

namespace HederaSdk.Js

mutual

inductive Value where
  | undefined
  | null
  | number (n : Int)
  | string (s : String)
  | boolean (b : Bool)
  | object (properties : Properties)
  deriving DecidableEq, Repr

/-- Own enumerable properties, in order. -/
inductive Properties where
  | nil
  | cons (key : String) (value : Value) (rest : Properties)
  deriving DecidableEq, Repr

end

namespace Properties

def ofList : List (String × Value) → Properties
  | [] => .nil
  | (key, value) :: rest => .cons key value (ofList rest)

def length : Properties → Nat
  | .nil => 0
  | .cons _ _ rest => rest.length + 1

/-- Reading a property that is not there gives `undefined`. -/
def get : Properties → String → Value
  | .nil, _ => .undefined
  | .cons key value rest, k => if key = k then value else rest.get k

end Properties

@[simp] theorem Properties.get_nil (k : String) : Properties.nil.get k = .undefined := rfl

@[simp] theorem Properties.get_cons (key : String) (value : Value) (rest : Properties) (k : String) :
    (Properties.cons key value rest).get k = if key = k then value else rest.get k := rfl

namespace Value

def get : Value → String → Value
  | .object properties, k => properties.get k
  | _, _ => .undefined

@[simp] theorem get_object (properties : Properties) (k : String) :
    (object properties).get k = properties.get k := rfl

/-- `v == null`: `undefined` counts as well. -/
def isNullish : Value → Bool
  | .undefined | .null => true
  | _ => false

/-- The object a 64-bit integer is kept in. -/
def long (v : Int) (unsigned : Bool) : Value :=
  .object (.cons "low" (.number (Int.bmod v 4294967296))
    (.cons "high" (.number (v / 4294967296)) (.cons "unsigned" (.boolean unsigned) .nil)))

def toNumber? : Value → Option Int
  | .number n => some n
  | _ => none

/-- The integer in a `Long`, or the number itself. -/
def toLong? (v : Value) : Option Int :=
  match v with
  | .number n => some n
  | .object _ =>
      match v.get "low", v.get "high" with
      | .number low, .number high => some (high * 4294967296 + low % 4294967296)
      | _, _ => none
  | _ => none

def bytesFrom (start : Nat) : List UInt8 → Properties
  | [] => .nil
  | b :: rest => .cons (toString start) (.number b.toNat) (bytesFrom (start + 1) rest)

def bytes (data : List UInt8) : Value := .object (bytesFrom 0 data)

def Properties.toBytes? : Properties → Option (List UInt8)
  | .nil => some []
  | .cons _ (.number n) rest => (Properties.toBytes? rest).map (UInt8.ofNat n.toNat :: ·)
  | .cons _ _ _ => none

def toBytes? : Value → Option (List UInt8)
  | .object properties => Properties.toBytes? properties
  | _ => none

def toBool? : Value → Option Bool
  | .boolean b => some b
  | _ => none

def toString? : Value → Option String
  | .string s => some s
  | _ => none

@[simp] theorem toLong?_undefined : undefined.toLong? = none := rfl

@[simp] theorem toLong?_number (n : Int) : (number n).toLong? = some n := rfl

@[simp] theorem toBytes?_undefined : undefined.toBytes? = none := rfl

@[simp] theorem toBool?_boolean (b : Bool) : (boolean b).toBool? = some b := rfl

@[simp] theorem toString?_string (s : String) : (string s).toString? = some s := rfl

@[simp] theorem toLong?_long (v : Int) (unsigned : Bool) : (long v unsigned).toLong? = some v := by
  have halves : v / 4294967296 * 4294967296 + (Int.bmod v 4294967296) % 4294967296 = v := by
    have low := Int.bmod_emod (x := v) (m := 4294967296)
    omega
  simp [toLong?, long, halves]

@[simp] theorem toBytes?_bytes (data : List UInt8) : (bytes data).toBytes? = some data := by
  have general : ∀ start, Properties.toBytes? (bytesFrom start data) = some data := by
    induction data with
    | nil => intro start; rfl
    | cons b rest inductionHypothesis =>
        intro start
        simp [bytesFrom, Properties.toBytes?, inductionHypothesis]
  exact general 0

end Value

/-! ## `compare` -/

/-- What `compare` throws: `Object.keys(null)`. -/
structure NullKeys where
  deriving DecidableEq, Repr

mutual

def compare (ignore : List String) : Value → Value → Except NullKeys Bool
  | .object a, .object b => if a.length ≠ b.length then .ok false else compareProperties ignore a b
  -- `typeof null` is "object" as well, but it has no keys to list
  | .null, .null => .error {}
  | .null, .object _ => .error {}
  | .object _, .null => .error {}
  | .number a, .number b => .ok (a == b)
  | .string a, .string b => .ok (a == b)
  | .boolean a, .boolean b => .ok (a == b)
  | _, _ => .ok false

def compareProperties (ignore : List String) : Properties → Properties → Except NullKeys Bool
  | .cons aKey a aRest, .cons bKey b bRest =>
      if aKey ≠ bKey then .ok false
      else if aKey ∈ ignore then compareProperties ignore aRest bRest
      else
        match compare ignore a b with
        | .ok true => compareProperties ignore aRest bRest
        | other => other
  -- `compare` has checked that there are as many keys on both sides
  | _, _ => .ok true

end

mutual

/-- The tree with every property of an ignored name blanked, at any depth. -/
def Value.without (ignore : List String) : Value → Value
  | .object properties => .object (properties.without ignore)
  | other => other

def Properties.without (ignore : List String) : Properties → Properties
  | .nil => .nil
  | .cons key value rest =>
      .cons key (if key ∈ ignore then .undefined else value.without ignore) (rest.without ignore)

end

mutual

/-- No `null` and no `undefined` anywhere: what a protobuf decoder leaves. -/
def Value.Plain : Value → Prop
  | .undefined | .null => False
  | .object properties => properties.Plain
  | _ => True

def Properties.Plain : Properties → Prop
  | .nil => True
  | .cons _ value rest => value.Plain ∧ rest.Plain

end

mutual

theorem without_eq_of_compare (ignore : List String) :
    ∀ a b : Value, compare ignore a b = .ok true → a.without ignore = b.without ignore
  | .object a, .object b => by
      intro same
      rw [compare] at same
      split at same
      · simp at same
      next lengths =>
        simp only [Value.without, Value.object.injEq]
        exact withoutProperties_eq_of_compare ignore a b (Decidable.not_not.mp lengths) same
  | .number a, .number b => by simp +contextual [compare]
  | .string a, .string b => by simp +contextual [compare]
  | .boolean a, .boolean b => by simp +contextual [compare]
  | .undefined, b => by cases b <;> simp [compare]
  | .null, b => by cases b <;> simp [compare]
  | .number _, .undefined | .number _, .null | .number _, .string _ | .number _, .boolean _
  | .number _, .object _ | .string _, .undefined | .string _, .null | .string _, .number _
  | .string _, .boolean _ | .string _, .object _ | .boolean _, .undefined | .boolean _, .null
  | .boolean _, .number _ | .boolean _, .string _ | .boolean _, .object _
  | .object _, .undefined | .object _, .null | .object _, .number _ | .object _, .string _
  | .object _, .boolean _ => by simp [compare]

theorem withoutProperties_eq_of_compare (ignore : List String) :
    ∀ a b : Properties, a.length = b.length → compareProperties ignore a b = .ok true →
      a.without ignore = b.without ignore
  | .nil, .nil => by simp
  | .nil, .cons _ _ _ => by simp [Properties.length]
  | .cons _ _ _, .nil => by simp [Properties.length]
  | .cons aKey a aRest, .cons bKey b bRest => by
      intro lengths same
      have rests : aRest.length = bRest.length := by simpa [Properties.length] using lengths
      rw [compareProperties] at same
      split at same
      · simp at same
      next keys =>
        have keys := Decidable.not_not.mp keys
        subst keys
        split at same
        next ignored =>
          simp only [Properties.without, if_pos ignored]
          rw [withoutProperties_eq_of_compare ignore aRest bRest rests same]
        next kept =>
          split at same
          next values =>
            simp only [Properties.without, if_neg kept]
            rw [without_eq_of_compare ignore a b values,
              withoutProperties_eq_of_compare ignore aRest bRest rests same]
          next other => exact absurd same (other)

end

theorem length_eq_of_without_eq (ignore : List String) :
    ∀ a b : Properties, a.without ignore = b.without ignore → a.length = b.length
  | .nil, .nil => fun _ => rfl
  | .nil, .cons _ _ _ => by simp [Properties.without]
  | .cons _ _ _, .nil => by simp [Properties.without]
  | .cons _ _ aRest, .cons _ _ bRest => by
      intro same
      simp only [Properties.without, Properties.cons.injEq] at same
      simp only [Properties.length, length_eq_of_without_eq ignore aRest bRest same.2.2]

mutual

/-- On trees without `null` and `undefined`, `compare` accepts every pair that
is equal once blanked. -/
theorem compare_of_without_eq (ignore : List String) :
    ∀ a b : Value, a.Plain → b.Plain → a.without ignore = b.without ignore →
      compare ignore a b = .ok true
  | .object a, .object b => by
      intro plainA plainB same
      simp only [Value.without, Value.object.injEq] at same
      rw [compare, if_neg (not_not_intro (length_eq_of_without_eq ignore a b same))]
      exact compareProperties_of_without_eq ignore a b plainA plainB same
  | .undefined, _ => fun plain => plain.elim
  | .null, _ => fun plain => plain.elim
  | .number a, b => by cases b <;> simp +contextual [compare, Value.without]
  | .string a, b => by cases b <;> simp +contextual [compare, Value.without]
  | .boolean a, b => by cases b <;> simp +contextual [compare, Value.without]
  | .object _, .undefined | .object _, .null | .object _, .number _ | .object _, .string _
  | .object _, .boolean _ => by simp [Value.without]

theorem compareProperties_of_without_eq (ignore : List String) :
    ∀ a b : Properties, a.Plain → b.Plain → a.without ignore = b.without ignore →
      compareProperties ignore a b = .ok true
  | .nil, _ => by simp [compareProperties]
  | .cons _ _ _, .nil => by simp [compareProperties]
  | .cons aKey a aRest, .cons bKey b bRest => by
      intro plainA plainB same
      simp only [Properties.without, Properties.cons.injEq] at same
      obtain ⟨rfl, values, rests⟩ := same
      rw [compareProperties, if_neg (not_not_intro rfl)]
      split
      next ignored => exact compareProperties_of_without_eq ignore aRest bRest plainA.2 plainB.2 rests
      next kept =>
        rw [if_neg kept, if_neg kept] at values
        rw [compare_of_without_eq ignore a b plainA.1 plainB.1 values]
        exact compareProperties_of_without_eq ignore aRest bRest plainA.2 plainB.2 rests

end

/-- `compare` is equality up to the ignored properties. -/
theorem compare_iff {ignore : List String} {a b : Value} (plainA : a.Plain) (plainB : b.Plain) :
    compare ignore a b = .ok true ↔ a.without ignore = b.without ignore :=
  ⟨without_eq_of_compare ignore a b, compare_of_without_eq ignore a b plainA plainB⟩

end HederaSdk.Js
