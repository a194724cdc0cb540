import HederaSdk.Cryptography.PrivateKey
import HederaSdk.Library.Base128
import HederaSdk.Library.Rose

/-!
# Reading DER

`decode` of a byte string ends after at most two steps for each byte. A declared length that is
larger than what is left is cut to it without an error, so that the tree of a truncated input has
elements which are not all there.
-/

namespace HederaSdk

open Library

namespace Der

inductive DerError where
  | rangeError
  | error (message : String)
  deriving DecidableEq

/-- What an element without other elements is read as. -/
inductive AsnPrimitive where
  | int (n : Nat)
  | bytes (data : Bytes)
  | null
  | ident (id : String)
  deriving DecidableEq

/-- Sequences of sequences and primitives. -/
abbrev AsnType := Rose AsnPrimitive Unit

/-- `view.getUint32(0, false)` -/
def getUint32 (view : Bytes) : Except DerError Nat :=
  if view.length < 4 then .error .rangeError else .ok (BigEndian.value (view.take 4))

def decodeInt (intBytes : Bytes) : Except DerError Nat :=
  if intBytes.length = 1 ∨ intBytes.length = 2 then .ok (BigEndian.value intBytes)
  else if 4 < intBytes.length then
    .error (.error s!"unsupported DER integer length of {intBytes.length} bytes")
  else getUint32 (if intBytes.length = 3 then 0 :: intBytes else intBytes)

/-- The length that is declared, and what is behind it. -/
def decodeLength : Bytes → Except DerError (Nat × Bytes)
  | [] => (decodeInt []).map fun len => (len, [])
  | first :: rest =>
      if first < 128 then .ok (first.toNat, rest)
      else
        let numBytes := first.toNat - 128
        (decodeInt (rest.take numBytes)).map fun len => (len, rest.drop numBytes)

section

-- The text of the number that floating-point arithmetic makes of the bytes of an arc that is not
-- below `2 ^ 53`.
variable (inexact : Bytes → String)

def arcText (arc : Bytes) : String :=
  if Base128.value arc < 9007199254740992 then toString (Base128.value arc) else inexact arc

/-- The arcs of the bytes behind those that another one of the same arc follows. -/
def decodeArcs : Bytes → Bytes → List String
  | _, [] => []
  | before, byte :: rest =>
      if byte < 128 then arcText inexact (before ++ [byte]) :: decodeArcs [] rest
      else decodeArcs (before ++ [byte]) rest

def decodeObjectIdent : Bytes → String
  | [] => "NaN.NaN"
  | first :: rest =>
      ".".intercalate (toString (first.toNat / 40) :: toString (first.toNat % 40) :: decodeArcs inexact [] rest)

/-- The cases of the tag other than that of a sequence. -/
def decodePrimitive (tag : UInt8) (data : Bytes) : Except DerError AsnPrimitive :=
  if tag = 2 then (decodeInt data).map .int
  else if tag = 4 then .ok (.bytes data)
  else if tag = 5 then .ok .null
  else if tag = 6 then .ok (.ident (decodeObjectIdent inexact data))
  else .error (.error s!"unsupported DER type tag: {tag.toNat}")

mutual

/-- `none` when it takes more steps than these. -/
def decodeIncremental : Nat → Bytes → Option (Except DerError (AsnType × Bytes))
  | 0, _ => none
  | steps + 1, bytes =>
      match decodeLength bytes.tail with
      | .error error => some (.error error)
      | .ok (len, rem) =>
          let data := rem.take len
          let tail := rem.drop len
          match bytes with
          | [] => some (.error (.error "unsupported DER type tag: undefined"))
          | tag :: _ =>
              if tag = 48 then
                (decodeSeq steps data).map fun read => read.map fun seq => (.node () seq, tail)
              else some ((decodePrimitive inexact tag data).map fun element => (.leaf element, tail))

def decodeSeq : Nat → Bytes → Option (Except DerError (List AsnType))
  | _, [] => some (.ok [])
  | 0, _ => none
  | steps + 1, data =>
      match decodeIncremental steps data with
      | none => none
      | some (.error error) => some (.error error)
      | some (.ok (decoded, remaining)) =>
          (decodeSeq steps remaining).map fun read => read.map fun seq => decoded :: seq

end

def decode (data : Bytes) : Option (Except DerError AsnType) :=
  (decodeIncremental inexact (2 * data.length + 1) data).map fun read => read.map Prod.fst

end

/-! ## Elements -/

/-- The bytes that declare a length: one below 128, or a number of bytes and these bytes. -/
inductive Declares : Bytes → Nat → Prop where
  | short {b : UInt8} (small : b < 128) : Declares [b] b.toNat
  | long {first : UInt8} {size : Bytes} (large : ¬ first < 128) (all : size.length = first.toNat - 128) :
      Declares (first :: size) (BigEndian.value size)

mutual

/-- The bytes are the tag of the element, its length and as many bytes of contents. -/
inductive Fills (inexact : Bytes → String) : AsnType → Bytes → Prop where
  | primitive {tag : UInt8} {length contents : Bytes} {element : AsnPrimitive}
      (declared : Declares length contents.length)
      (read : decodePrimitive inexact tag contents = .ok element) :
      Fills inexact (.leaf element) (tag :: (length ++ contents))
  | sequence {length contents : Bytes} {seq : List AsnType} (declared : Declares length contents.length)
      (all : FillAll inexact seq contents) : Fills inexact (.node () seq) (48 :: (length ++ contents))

/-- One element behind the other. -/
inductive FillAll (inexact : Bytes → String) : List AsnType → Bytes → Prop where
  | nil : FillAll inexact [] []
  | cons {first : AsnType} {rest : List AsnType} {data behind : Bytes} (one : Fills inexact first data)
      (others : FillAll inexact rest behind) : FillAll inexact (first :: rest) (data ++ behind)

end

/-- The decoder comes to an end, and what it returns lay inside the input with every element. -/
structure Bounded (inexact : Bytes → String) (data : Bytes) : Prop where
  terminates : ∃ result, ∀ steps, 2 * data.length + 1 ≤ steps → decodeIncremental inexact steps data = some result
  inside : ∀ tree, decode inexact data = some (.ok tree) →
    ∃ element behind, data = element ++ behind ∧ Fills inexact tree element

/-! ## Inputs that are all there -/

/-- The bytes of the length are there, and as many bytes behind them as they say. -/
def fits : Bytes → Bool
  | _ :: first :: rest =>
      if first < 128 then first.toNat ≤ rest.length
      else
        first.toNat - 128 ≤ rest.length &&
          BigEndian.value (rest.take (first.toNat - 128)) ≤ (rest.drop (first.toNat - 128)).length
  | _ => false

def contentsOf (bytes : Bytes) : Bytes :=
  match decodeLength bytes.tail with
  | .ok (len, rem) => rem.take len
  | .error _ => []

def behindOf (bytes : Bytes) : Bytes :=
  match decodeLength bytes.tail with
  | .ok (len, rem) => rem.drop len
  | .error _ => []

mutual

/-- The element at the front fits, and so do those in it, as far as so many steps go. -/
def complete : Nat → Bytes → Bool
  | 0, _ => true
  | steps + 1, bytes =>
      fits bytes && (if bytes.head? = some 48 then completeAll steps (contentsOf bytes) else true)

def completeAll : Nat → Bytes → Bool
  | _, [] => true
  | 0, _ => true
  | steps + 1, data => complete steps data && completeAll steps (behindOf data)

end

/-- Where the input is read, every element in it is all there. -/
def Untruncated (inexact : Bytes → String) (data : Bytes) : Prop :=
  ∀ tree, decode inexact data = some (.ok tree) → complete (2 * data.length + 1) data = true

/-! ## The end of a run -/

theorem decodeLength_short {first : UInt8} (small : first < 128) (rest : Bytes) :
    decodeLength (first :: rest) = .ok (first.toNat, rest) := if_pos small

theorem decodeLength_long {first : UInt8} (large : ¬ first < 128) (rest : Bytes) :
    decodeLength (first :: rest) = (decodeInt (rest.take (first.toNat - 128))).map fun len =>
      (len, rest.drop (first.toNat - 128)) := if_neg large

theorem decodeLength_shorter {data rem : Bytes} {len : Nat} (read : decodeLength data = .ok (len, rem)) :
    rem.length < data.length := by
  cases data with
  | nil => cases read
  | cons first rest =>
      by_cases small : first < 128
      · rw [decodeLength_short small] at read
        cases read
        exact Nat.lt_succ_self _
      · rw [decodeLength_long small] at read
        cases size : decodeInt (rest.take (first.toNat - 128)) with
        | error error =>
            rw [size] at read
            cases read
        | ok len' =>
            rw [size] at read
            cases read
            rw [List.length_drop, List.length_cons]
            omega

section

variable {inexact : Bytes → String}

theorem decodeIncremental_of_error (steps : Nat) {bytes : Bytes} {error : DerError}
    (read : decodeLength bytes.tail = .error error) :
    decodeIncremental inexact (steps + 1) bytes = some (.error error) := by
  unfold decodeIncremental
  rw [read]

theorem decodeIncremental_sequence (steps : Nat) {bytes rem : Bytes} {len : Nat}
    (read : decodeLength bytes = .ok (len, rem)) :
    decodeIncremental inexact (steps + 1) (48 :: bytes) =
      (decodeSeq inexact steps (rem.take len)).map fun read =>
        read.map fun seq => (.node () seq, rem.drop len) := by
  unfold decodeIncremental
  rw [List.tail_cons, read]
  rfl

theorem decodeIncremental_primitive (steps : Nat) {tag : UInt8} (other : tag ≠ 48) {bytes rem : Bytes} {len : Nat}
    (read : decodeLength bytes = .ok (len, rem)) :
    decodeIncremental inexact (steps + 1) (tag :: bytes) =
      some ((decodePrimitive inexact tag (rem.take len)).map fun element => (.leaf element, rem.drop len)) := by
  unfold decodeIncremental
  rw [List.tail_cons, read]
  exact if_neg other

theorem decodeSeq_cons (steps : Nat) (b : UInt8) (data : Bytes) :
    decodeSeq inexact (steps + 1) (b :: data) =
      match decodeIncremental inexact steps (b :: data) with
      | none => none
      | some (.error error) => some (.error error)
      | some (.ok (decoded, remaining)) =>
          (decodeSeq inexact steps remaining).map fun read => read.map fun seq => decoded :: seq := by
  conv_lhs => unfold decodeSeq

/-- What is left of the input behind an element. -/
theorem decodeIncremental_shorter {steps : Nat} {bytes remaining : Bytes} {decoded : AsnType}
    (read : decodeIncremental inexact steps bytes = some (.ok (decoded, remaining))) :
    remaining = behindOf bytes ∧ remaining.length < bytes.length := by
  obtain ⟨steps, rfl⟩ : ∃ before, steps = before + 1 := by
    cases steps with
    | zero => cases read
    | succ steps => exact ⟨steps, rfl⟩
  cases size : decodeLength bytes.tail with
  | error error =>
      rw [decodeIncremental_of_error steps size] at read
      cases read
  | ok found =>
      obtain ⟨len, rem⟩ := found
      have shorter := decodeLength_shorter size
      cases bytes with
      | nil => exact absurd shorter (Nat.not_lt_zero _)
      | cons tag bytes =>
          rw [List.tail_cons] at size shorter
          have behind : behindOf (tag :: bytes) = rem.drop len := by
            unfold behindOf
            rw [List.tail_cons, size]
          have fewer : (rem.drop len).length < (tag :: bytes).length := by
            rw [List.length_drop, List.length_cons]
            omega
          have left : remaining = rem.drop len := by
            by_cases sequence : tag = 48
            · subst sequence
              rw [decodeIncremental_sequence steps size, Option.map_eq_some_iff] at read
              obtain ⟨inner, -, same⟩ := read
              cases inner with
              | error error => cases same
              | ok seq =>
                  cases same
                  rfl
            · rw [decodeIncremental_primitive steps sequence size] at read
              cases element : decodePrimitive inexact tag (rem.take len) with
              | error error =>
                  rw [element] at read
                  cases read
              | ok element' =>
                  rw [element] at read
                  cases read
                  rfl
          rw [left, behind]
          exact ⟨rfl, fewer⟩

/-- Two steps for each byte, and one or two more, are enough for an element and for a sequence. -/
theorem terminates (inexact : Bytes → String) (n : Nat) :
    (∀ bytes : Bytes, bytes.length = n → ∃ result, ∀ steps, 2 * n + 1 ≤ steps →
      decodeIncremental inexact steps bytes = some result) ∧
    ∀ data : Bytes, data.length = n → ∃ result, ∀ steps, 2 * n + 2 ≤ steps →
      decodeSeq inexact steps data = some result := by
  induction n using Nat.strongRecOn with
  | _ n inductionHypothesis =>
    have element : ∀ bytes : Bytes, bytes.length = n → ∃ result, ∀ steps, 2 * n + 1 ≤ steps →
        decodeIncremental inexact steps bytes = some result := by
      intro bytes length
      cases size : decodeLength bytes.tail with
      | error error =>
          refine ⟨.error error, fun steps enough => ?_⟩
          obtain ⟨steps, rfl⟩ : ∃ before, steps = before + 1 := ⟨steps - 1, by omega⟩
          exact decodeIncremental_of_error steps size
      | ok found =>
          obtain ⟨len, rem⟩ := found
          have shorter := decodeLength_shorter size
          cases bytes with
          | nil => exact absurd shorter (Nat.not_lt_zero _)
          | cons tag bytes =>
              rw [List.tail_cons] at size shorter
              rw [List.length_cons] at length
              by_cases sequence : tag = 48
              · subst sequence
                have fewer : (rem.take len).length < n := by
                  rw [List.length_take]
                  omega
                obtain ⟨inner, run⟩ := (inductionHypothesis _ fewer).2 _ rfl
                refine ⟨inner.map fun seq => (.node () seq, rem.drop len), fun steps enough => ?_⟩
                obtain ⟨steps, rfl⟩ : ∃ before, steps = before + 1 := ⟨steps - 1, by omega⟩
                rw [decodeIncremental_sequence steps size, run steps (by omega)]
                rfl
              · refine ⟨(decodePrimitive inexact tag (rem.take len)).map fun element =>
                  (.leaf element, rem.drop len), fun steps enough => ?_⟩
                obtain ⟨steps, rfl⟩ : ∃ before, steps = before + 1 := ⟨steps - 1, by omega⟩
                exact decodeIncremental_primitive steps sequence size
    refine ⟨element, fun data length => ?_⟩
    cases data with
    | nil =>
        refine ⟨.ok [], fun steps enough => ?_⟩
        unfold decodeSeq
        rfl
    | cons b data =>
        obtain ⟨first, run⟩ := element (b :: data) length
        cases first with
        | error error =>
            refine ⟨.error error, fun steps enough => ?_⟩
            obtain ⟨steps, rfl⟩ : ∃ before, steps = before + 1 := ⟨steps - 1, by omega⟩
            rw [decodeSeq_cons, run steps (by omega)]
        | ok found =>
            obtain ⟨decoded, remaining⟩ := found
            have shorter := (decodeIncremental_shorter (run _ (le_refl _))).2
            rw [length] at shorter
            obtain ⟨others, behind⟩ := (inductionHypothesis _ shorter).2 remaining rfl
            refine ⟨others.map fun seq => decoded :: seq, fun steps enough => ?_⟩
            obtain ⟨steps, rfl⟩ : ∃ before, steps = before + 1 := ⟨steps - 1, by omega⟩
            rw [decodeSeq_cons, run steps (by omega)]
            simp only
            rw [behind steps (by omega)]
            rfl

/-! ## What is declared is there -/

theorem getUint32_value {view : Bytes} {n : Nat} (read : getUint32 view = .ok n) :
    n = BigEndian.value (view.take 4) := by
  unfold getUint32 at read
  split at read
  · cases read
  · exact (Except.ok.inj read).symm

theorem decodeInt_value {data : Bytes} {n : Nat} (read : decodeInt data = .ok n) : n = BigEndian.value data := by
  unfold decodeInt at read
  split at read
  · exact (Except.ok.inj read).symm
  split at read
  · cases read
  rename_i other few
  have number := getUint32_value read
  by_cases three : data.length = 3
  · have all : ((0 : UInt8) :: data).take 4 = List.replicate 1 0 ++ data := by
      apply List.take_of_length_le
      rw [List.length_cons, three]
    rw [if_pos three, all, BigEndian.value_replicate_append] at number
    exact number
  · rw [if_neg three, List.take_of_length_le (Nat.le_of_not_lt few)] at number
    exact number

/-- Bytes that declare a length are read as that length. -/
theorem Declares.read {length more rem : Bytes} {n len : Nat} (declared : Declares length n)
    (read : decodeLength (length ++ more) = .ok (len, rem)) : len = n ∧ rem = more := by
  cases declared with
  | short small =>
      rw [List.cons_append, decodeLength_short small] at read
      cases read
      exact ⟨rfl, rfl⟩
  | @long first size large all =>
      rw [List.cons_append, decodeLength_long large, ← all, List.take_left, List.drop_left] at read
      cases number : decodeInt size with
      | error error =>
          rw [number] at read
          cases read
      | ok n =>
          rw [number] at read
          cases read
          exact ⟨decodeInt_value number, rfl⟩

/-- An element fits when its length is declared by whole bytes and is not larger than what is left. -/
theorem fits_iff (tag : UInt8) {bytes rem : Bytes} {len : Nat} (read : decodeLength bytes = .ok (len, rem)) :
    fits (tag :: bytes) = true ↔ ∃ length, Declares length len ∧ bytes = length ++ rem ∧ len ≤ rem.length := by
  cases bytes with
  | nil => cases read
  | cons first rest =>
      unfold fits
      by_cases small : first < 128
      · rw [decodeLength_short small] at read
        cases read
        simp only [small, if_true, decide_eq_true_eq]
        constructor
        · intro enough
          exact ⟨[first], .short small, rfl, enough⟩
        · rintro ⟨-, -, -, enough⟩
          exact enough
      · rw [decodeLength_long small] at read
        cases number : decodeInt (rest.take (first.toNat - 128)) with
        | error error =>
            rw [number] at read
            cases read
        | ok n =>
            rw [number] at read
            cases read
            have value := decodeInt_value number
            simp only [small, if_false, Bool.and_eq_true, decide_eq_true_eq, ← value]
            constructor
            · rintro ⟨all, enough⟩
              refine ⟨first :: rest.take (first.toNat - 128), ?_, ?_, enough⟩
              · rw [value]
                apply Declares.long small
                rw [List.length_take, Nat.min_eq_left all]
              · rw [List.cons_append, List.take_append_drop]
            · rintro ⟨length, declared, shape, enough⟩
              refine ⟨?_, enough⟩
              cases declared with
              | short low =>
                  obtain ⟨rfl, -⟩ := List.cons.inj shape
                  exact absurd low small
              | @long _ size large all =>
                  have same : first = _ := (List.cons.inj shape).1
                  have behind : rest = size ++ rest.drop (first.toNat - 128) := (List.cons.inj shape).2
                  rw [same, ← all, behind, List.length_append]
                  exact Nat.le_add_right _ _

/-- The bytes of an element that fits: its length, its contents and what is behind it. -/
theorem declares_of_fits {tag : UInt8} {bytes rem : Bytes} {len : Nat}
    (read : decodeLength bytes = .ok (len, rem)) (fit : fits (tag :: bytes) = true) :
    ∃ length, Declares length (rem.take len).length ∧ bytes = length ++ (rem.take len ++ rem.drop len) := by
  obtain ⟨length, declared, shape, enough⟩ := (fits_iff tag read).mp fit
  refine ⟨length, ?_, ?_⟩
  · rw [List.length_take, Nat.min_eq_left enough]
    exact declared
  · rw [List.take_append_drop]
    exact shape

theorem fits_of_declares {tag : UInt8} {length contents behind rem : Bytes} {len : Nat}
    (declared : Declares length contents.length)
    (read : decodeLength (length ++ (contents ++ behind)) = .ok (len, rem)) :
    fits (tag :: (length ++ (contents ++ behind))) = true ∧ rem.take len = contents ∧ rem.drop len = behind := by
  obtain ⟨rfl, rfl⟩ := declared.read read
  refine ⟨?_, List.take_left, List.drop_left⟩
  apply (fits_iff tag read).mpr
  refine ⟨length, declared, rfl, ?_⟩
  rw [List.length_append]
  exact Nat.le_add_right _ _

theorem behindOf_fills {tree : AsnType} {element behind rem : Bytes} {len : Nat} (filled : Fills inexact tree element)
    (read : decodeLength (element ++ behind).tail = .ok (len, rem)) : behindOf (element ++ behind) = behind := by
  have left {tag : UInt8} {length contents : Bytes} (declared : Declares length contents.length)
      (read : decodeLength (tag :: (length ++ contents) ++ behind).tail = .ok (len, rem)) :
      behindOf (tag :: (length ++ contents) ++ behind) = behind := by
    rw [List.cons_append, List.tail_cons, List.append_assoc] at read
    unfold behindOf
    rw [List.cons_append, List.tail_cons, List.append_assoc, read]
    exact (@fits_of_declares tag _ _ _ _ _ declared read).2.2
  cases filled with
  | primitive declared _ => exact left declared read
  | sequence declared _ => exact left declared read

theorem complete_cons (steps : Nat) (tag : UInt8) {bytes rem : Bytes} {len : Nat}
    (read : decodeLength bytes = .ok (len, rem)) :
    complete (steps + 1) (tag :: bytes) = true ↔
      fits (tag :: bytes) = true ∧ (tag = 48 → completeAll steps (rem.take len) = true) := by
  have inside : contentsOf (tag :: bytes) = rem.take len := by
    unfold contentsOf
    rw [List.tail_cons, read]
  unfold complete
  rw [Bool.and_eq_true, inside]
  by_cases sequence : tag = 48
  · simp [sequence]
  · simp [sequence]

theorem length_read {steps : Nat} {bytes remaining : Bytes} {decoded : AsnType}
    (read : decodeIncremental inexact steps bytes = some (.ok (decoded, remaining))) :
    ∃ len rem, decodeLength bytes.tail = .ok (len, rem) := by
  cases steps with
  | zero => cases read
  | succ steps =>
      cases size : decodeLength bytes.tail with
      | error error =>
          rw [decodeIncremental_of_error steps size] at read
          cases read
      | ok found => exact ⟨found.1, found.2, rfl⟩

/-- One element, when it is known of sequences. -/
theorem complete_step {steps : Nat} {tag : UInt8} {bytes rem remaining : Bytes} {len : Nat} {decoded : AsnType}
    (sequences : ∀ {data : Bytes} {seq : List AsnType}, decodeSeq inexact steps data = some (.ok seq) →
      (completeAll steps data = true ↔ FillAll inexact seq data))
    (size : decodeLength bytes = .ok (len, rem))
    (read : decodeIncremental inexact (steps + 1) (tag :: bytes) = some (.ok (decoded, remaining))) :
    (fits (tag :: bytes) = true ∧ (tag = 48 → completeAll steps (rem.take len) = true)) ↔
      ∃ element, tag :: bytes = element ++ remaining ∧ Fills inexact decoded element := by
  by_cases sequence : tag = 48
  · subst sequence
    rw [decodeIncremental_sequence steps size, Option.map_eq_some_iff] at read
    obtain ⟨inner, run, same⟩ := read
    cases inner with
    | error error => cases same
    | ok seq =>
        cases same
        constructor
        · rintro ⟨fit, all⟩
          obtain ⟨length, declared, shape⟩ := declares_of_fits size fit
          refine ⟨48 :: (length ++ rem.take len), ?_, .sequence declared ((sequences run).mp (all rfl))⟩
          rw [List.cons_append, List.append_assoc, ← shape]
        · rintro ⟨element, shape, filled⟩
          cases filled with
          | @sequence length contents _ declared all =>
              rw [List.cons_append, List.append_assoc] at shape
              have bytesShape : bytes = length ++ (contents ++ rem.drop len) := (List.cons.inj shape).2
              rw [bytesShape] at size ⊢
              obtain ⟨fit, inside, -⟩ := @fits_of_declares 48 _ _ _ _ _ declared size
              refine ⟨fit, fun _ => (sequences run).mpr ?_⟩
              rw [inside]
              exact all
  · rw [decodeIncremental_primitive steps sequence size] at read
    cases primitive : decodePrimitive inexact tag (rem.take len) with
    | error error =>
        rw [primitive] at read
        cases read
    | ok element =>
        rw [primitive] at read
        cases read
        constructor
        · rintro ⟨fit, -⟩
          obtain ⟨length, declared, shape⟩ := declares_of_fits size fit
          refine ⟨tag :: (length ++ rem.take len), ?_, .primitive declared primitive⟩
          rw [List.cons_append, List.append_assoc, ← shape]
        · rintro ⟨element, shape, filled⟩
          cases filled with
          | @primitive tag' length contents _ declared _ =>
              rw [List.cons_append, List.append_assoc] at shape
              have bytesShape : bytes = length ++ (contents ++ rem.drop len) := (List.cons.inj shape).2
              rw [bytesShape] at size ⊢
              exact ⟨(@fits_of_declares tag _ _ _ _ _ declared size).1, fun same => absurd same sequence⟩

/-- What is read is all there exactly when it lay inside the input. -/
theorem complete_iff (steps : Nat) :
    (∀ {bytes remaining : Bytes} {decoded : AsnType},
      decodeIncremental inexact steps bytes = some (.ok (decoded, remaining)) →
        (complete steps bytes = true ↔ ∃ element, bytes = element ++ remaining ∧ Fills inexact decoded element)) ∧
    ∀ {data : Bytes} {seq : List AsnType}, decodeSeq inexact steps data = some (.ok seq) →
      (completeAll steps data = true ↔ FillAll inexact seq data) := by
  induction steps with
  | zero =>
      refine ⟨fun read => (nomatch read), @fun data seq read => ?_⟩
      cases data with
      | nil =>
          cases read
          exact ⟨fun _ => .nil, fun _ => rfl⟩
      | cons b data => cases read
  | succ steps inductionHypothesis =>
      obtain ⟨elements, sequences⟩ := inductionHypothesis
      refine ⟨@fun bytes remaining decoded read => ?_, @fun data seq read => ?_⟩
      · cases size : decodeLength bytes.tail with
        | error error =>
            rw [decodeIncremental_of_error steps size] at read
            cases read
        | ok found =>
            obtain ⟨len, rem⟩ := found
            cases bytes with
            | nil => cases size
            | cons tag bytes =>
                rw [List.tail_cons] at size
                rw [complete_cons steps tag size]
                exact complete_step (@sequences) size read
      · cases data with
        | nil =>
            unfold decodeSeq at read
            cases read
            exact ⟨fun _ => .nil, fun _ => rfl⟩
        | cons b data =>
            rw [decodeSeq_cons] at read
            cases one : decodeIncremental inexact steps (b :: data) with
            | none =>
                rw [one] at read
                cases read
            | some found =>
                rw [one] at read
                cases found with
                | error error => cases read
                | ok found =>
                    obtain ⟨decoded, remaining⟩ := found
                    obtain ⟨others, run, same⟩ := Option.map_eq_some_iff.mp read
                    cases others with
                    | error error => cases same
                    | ok others =>
                        cases same
                        have left := (decodeIncremental_shorter one).1
                        have step : completeAll (steps + 1) (b :: data) =
                            (complete steps (b :: data) && completeAll steps remaining) := by
                          rw [left]
                          conv_lhs => unfold completeAll
                        rw [step, Bool.and_eq_true, elements one, sequences run]
                        constructor
                        · rintro ⟨⟨element, shape, filled⟩, all⟩
                          rw [shape]
                          exact .cons filled all
                        · intro all
                          generalize whole : b :: data = input at *
                          cases all with
                          | @cons _ _ element behind filled all =>
                              obtain ⟨len, rem, size⟩ := length_read one
                              have same : behind = remaining := by
                                rw [left, behindOf_fills filled size]
                              rw [← same]
                              exact ⟨⟨element, rfl, filled⟩, all⟩

/-- What is returned lay inside the input exactly when nothing that is read was cut short. -/
theorem bounded_iff (inexact : Bytes → String) (data : Bytes) :
    Bounded inexact data ↔ Untruncated inexact data := by
  have whole (tree : AsnType) (read : decode inexact data = some (.ok tree)) :
      ∃ remaining, decodeIncremental inexact (2 * data.length + 1) data = some (.ok (tree, remaining)) := by
    obtain ⟨result, run, same⟩ := Option.map_eq_some_iff.mp read
    cases result with
    | error error => cases same
    | ok found =>
        cases same
        exact ⟨found.2, run⟩
  constructor
  · intro bounded tree read
    obtain ⟨remaining, run⟩ := whole tree read
    obtain ⟨element, behind, shape, filled⟩ := bounded.inside tree read
    apply ((complete_iff _).1 run).mpr
    obtain ⟨len, rem, size⟩ := length_read run
    have left := (decodeIncremental_shorter run).1
    refine ⟨element, ?_, filled⟩
    rw [left]
    rw [shape] at size ⊢
    rw [behindOf_fills filled size]
  · intro untruncated
    refine ⟨(terminates inexact data.length).1 data rfl, fun tree read => ?_⟩
    obtain ⟨remaining, run⟩ := whole tree read
    obtain ⟨element, shape, filled⟩ := ((complete_iff _).1 run).mp (untruncated tree read)
    exact ⟨element, remaining, shape, filled⟩

end

end Der

end HederaSdk
