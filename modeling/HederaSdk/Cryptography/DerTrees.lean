import HederaSdk.Cryptography.Der

/-!
# Trees in DER

The distinguished encoding of sequences, octet strings, nulls, identifiers and integers, beside
what the decoder makes of it. It takes the first byte of an identifier for its first two arcs,
which another second arc than the ones below 40 does not allow.
-/

namespace HederaSdk

open Library

namespace Der

/-- The second arc is free below the first arc 2 only. -/
structure ObjectIdentifier where
  first : Nat
  second : Nat
  rest : List Nat
  root : first ≤ 2
  below : first < 2 → second < 40
  exact : ∀ arc ∈ first :: second :: rest, arc < 9007199254740992

namespace ObjectIdentifier

def text (id : ObjectIdentifier) : String := ".".intercalate ((id.first :: id.second :: id.rest).map toString)

/-- The first two arcs are one number. -/
def contents (id : ObjectIdentifier) : Bytes :=
  ((40 * id.first + id.second) :: id.rest).flatMap Base128.encode

end ObjectIdentifier

inductive DerPrimitive where
  | int (n : Nat) (small : n < 2147483648)
  | bytes (data : Bytes)
  | null
  | ident (id : ObjectIdentifier)

abbrev DerTree := Rose DerPrimitive Unit

/-- As few bytes as the number needs with a sign. -/
def intContents (n : Nat) : Bytes :=
  match BigEndian.minimal n with
  | [] => [0]
  | b :: rest => if b < 128 then b :: rest else 0 :: b :: rest

namespace DerPrimitive

def tag : DerPrimitive → UInt8
  | .int _ _ => 2
  | .bytes _ => 4
  | .null => 5
  | .ident _ => 6

def contents : DerPrimitive → Bytes
  | .int n _ => intContents n
  | .bytes data => data
  | .null => []
  | .ident id => id.contents

/-- As it is returned, with the given text of an identifier. -/
def returned (text : ObjectIdentifier → String) : DerPrimitive → AsnPrimitive
  | .int n _ => .int n
  | .bytes data => .bytes data
  | .null => .null
  | .ident id => .ident (text id)

end DerPrimitive

/-- A length in the shortest form, of 126 bytes at most behind the first one. -/
inductive DerLength : Bytes → Nat → Prop where
  | short {n : Nat} (small : n < 128) : DerLength [UInt8.ofNat n] n
  | long {n : Nat} (large : 128 ≤ n) (few : (BigEndian.minimal n).length ≤ 126) :
      DerLength (UInt8.ofNat (128 + (BigEndian.minimal n).length) :: BigEndian.minimal n) n

mutual

inductive Encodes : DerTree → Bytes → Prop where
  | primitive {length : Bytes} (element : DerPrimitive) (declared : DerLength length element.contents.length) :
      Encodes (.leaf element) (element.tag :: (length ++ element.contents))
  | sequence {length contents : Bytes} {seq : List DerTree} (declared : DerLength length contents.length)
      (all : EncodeAll seq contents) : Encodes (.node () seq) (48 :: (length ++ contents))

inductive EncodeAll : List DerTree → Bytes → Prop where
  | nil : EncodeAll [] []
  | cons {first : DerTree} {rest : List DerTree} {data behind : Bytes} (one : Encodes first data)
      (others : EncodeAll rest behind) : EncodeAll (first :: rest) (data ++ behind)

end

/-- The tree comes back from its encoding. -/
def ComesBack (inexact : Bytes → String) (tree : DerTree) (data : Bytes) : Prop :=
  decode inexact data = some (.ok (tree.map (DerPrimitive.returned ObjectIdentifier.text)))

/-- The length is one of up to four bytes, and the first two arcs of every identifier are told apart
by 40. -/
def Legible (tree : DerTree) (data : Bytes) : Prop :=
  data.length < 4294967302 ∧ ∀ id, .ident id ∈ tree.leaves → id.first < 2 ∨ id.second < 40

/-! ## Lengths -/

theorem decodeInt_of_length {data : Bytes} (some : 0 < data.length) (few : data.length ≤ 4) :
    decodeInt data = .ok (BigEndian.value data) := by
  unfold decodeInt
  by_cases short : data.length = 1 ∨ data.length = 2
  · rw [if_pos short]
  · rw [if_neg short, if_neg (Nat.not_lt_of_le few)]
    unfold getUint32
    by_cases three : data.length = 3
    · have enough : ¬ ((0 : UInt8) :: data).length < 4 := by rw [List.length_cons, three]; decide
      have all : ((0 : UInt8) :: data).take 4 = List.replicate 1 0 ++ data := by
        apply List.take_of_length_le
        rw [List.length_cons, three]
      rw [if_pos three, if_neg enough, all, BigEndian.value_replicate_append]
    · rw [if_neg three, if_neg (by omega), List.take_of_length_le few]

theorem decodeInt_of_long {data : Bytes} (many : 4 < data.length) :
    ∃ error, decodeInt data = .error error := by
  unfold decodeInt
  rw [if_neg (by omega), if_pos many]
  exact ⟨_, rfl⟩

theorem length_minimal_pos {n : Nat} (positive : 0 < n) : 0 < (BigEndian.minimal n).length := by
  rw [List.length_pos_iff]
  intro none
  have value := BigEndian.value_minimal n
  rw [none, BigEndian.value_nil] at value
  omega

theorem toNat_sizeByte {n : Nat} (few : (BigEndian.minimal n).length ≤ 126) :
    (UInt8.ofNat (128 + (BigEndian.minimal n).length)).toNat = 128 + (BigEndian.minimal n).length := by
  rw [UInt8.toNat_ofNat']
  omega

/-- A length of up to four bytes is read, a longer one is refused. -/
theorem decodeLength_derLength {length : Bytes} {n : Nat} (declared : DerLength length n) (more : Bytes) :
    (n < 4294967296 → decodeLength (length ++ more) = .ok (n, more)) ∧
      (4294967296 ≤ n → ∃ error, decodeLength (length ++ more) = .error error) := by
  cases declared with
  | short small =>
      have byte : (UInt8.ofNat n).toNat = n := by
        rw [UInt8.toNat_ofNat']
        omega
      have low : UInt8.ofNat n < 128 := by
        rw [UInt8.lt_iff_toNat_lt, byte]
        exact small
      refine ⟨fun _ => ?_, fun large => by omega⟩
      rw [List.cons_append, decodeLength_short low, byte]
      rfl
  | long large few =>
      have byte := toNat_sizeByte few
      have high : ¬ UInt8.ofNat (128 + (BigEndian.minimal n).length) < 128 := by
        rw [UInt8.lt_iff_toNat_lt, byte]
        exact Nat.not_lt_of_le (Nat.le_add_right _ _)
      have size : (UInt8.ofNat (128 + (BigEndian.minimal n).length)).toNat - 128 =
          (BigEndian.minimal n).length := by
        rw [byte, Nat.add_sub_cancel_left]
      have four : (256 : Nat) ^ 4 = 4294967296 := by decide
      rw [List.cons_append, decodeLength_long high, size, List.take_left, List.drop_left]
      constructor
      · intro small
        have within := BigEndian.length_minimal_le_iff.mpr (four.symm ▸ small)
        rw [decodeInt_of_length (length_minimal_pos (by omega)) within, BigEndian.value_minimal]
        rfl
      · intro huge
        have beyond : 4 < (BigEndian.minimal n).length := by
          rw [← Nat.not_le, BigEndian.length_minimal_le_iff, four]
          omega
        obtain ⟨error, refused⟩ := decodeInt_of_long beyond
        rw [refused]
        exact ⟨error, rfl⟩

/-- The whole element tells whether its length takes up to four bytes. -/
theorem lt_iff_of_derLength {length : Bytes} {n : Nat} (declared : DerLength length n) :
    length.length + n + 1 < 4294967302 ↔ n < 4294967296 := by
  cases declared with
  | short small =>
      rw [List.length_singleton]
      omega
  | long large few =>
      have four : (256 : Nat) ^ 4 = 4294967296 := by decide
      have bytes : (BigEndian.minimal n).length ≤ 4 ↔ n < 4294967296 := by
        rw [BigEndian.length_minimal_le_iff, four]
      rw [List.length_cons]
      constructor
      · intro small
        by_contra huge
        have beyond := mt bytes.mp huge
        omega
      · intro small
        have within := bytes.mpr small
        omega

/-! ## Primitives -/

theorem decodeInt_intContents {n : Nat} (small : n < 2147483648) : decodeInt (intContents n) = .ok n := by
  have four : n < 256 ^ 4 := small.trans (by decide)
  have few := BigEndian.length_minimal_le_iff.mpr four
  have value := BigEndian.value_minimal n
  unfold intContents
  split
  · rename_i none
    rw [none, BigEndian.value_nil] at value
    rw [← value]
    decide
  · rename_i b rest shape
    rw [shape] at few value
    split
    · rw [@decodeInt_of_length (b :: rest) (Nat.succ_pos _) few, value]
    · rename_i high
      have signed : (0 : UInt8) :: b :: rest = List.replicate 1 0 ++ (b :: rest) := rfl
      have three : (b :: rest).length ≤ 3 := by
        by_contra four
        have length : (b :: rest).length = 4 := by omega
        have leading := BigEndian.value_append [b] rest
        have byte : BigEndian.value [b] = b.toNat := by
          change 256 * 0 + b.toNat = b.toNat
          omega
        rw [List.length_cons] at length
        have behind : rest.length = 3 := by omega
        rw [UInt8.lt_iff_toNat_lt, not_lt] at high
        have least : 128 ≤ b.toNat := high
        rw [List.singleton_append, value, byte, behind] at leading
        omega
      rw [@decodeInt_of_length (0 :: b :: rest) (Nat.succ_pos _) (Nat.succ_le_succ three), signed,
        BigEndian.value_replicate_append, value]

section

variable {inexact : Bytes → String}

theorem decodeArcs_continued {data : Bytes} (high : ∀ b ∈ data, 128 ≤ b.toNat) {low : UInt8} (last : low < 128)
    (before more : Bytes) :
    decodeArcs inexact before (data ++ low :: more) =
      arcText inexact (before ++ data ++ [low]) :: decodeArcs inexact [] more := by
  induction data generalizing before with
  | nil =>
      rw [List.nil_append, List.append_nil]
      exact if_pos last
  | cons b data inductionHypothesis =>
      have large : ¬ b < 128 := by
        rw [UInt8.lt_iff_toNat_lt, not_lt]
        exact high b List.mem_cons_self
      have step : decodeArcs inexact before (b :: (data ++ low :: more)) =
          decodeArcs inexact (before ++ [b]) (data ++ low :: more) := if_neg large
      rw [List.cons_append, step, inductionHypothesis fun b member => high b (List.mem_cons_of_mem _ member),
        List.append_assoc before [b] data, List.singleton_append]

theorem decodeArcs_encode {n : Nat} (exact : n < 9007199254740992) (more : Bytes) :
    decodeArcs inexact [] (Base128.encode n ++ more) = toString n :: decodeArcs inexact [] more := by
  have low : UInt8.ofNat (n % 128) < 128 := by
    rw [UInt8.lt_iff_toNat_lt, Base128.toNat_last]
    exact Nat.mod_lt _ (by decide)
  have number := Base128.value_encode n
  have shape : Base128.encode n ++ more =
      Base128.continued (n / 128) ++ UInt8.ofNat (n % 128) :: more := by
    rw [Base128.encode, List.append_assoc, List.singleton_append]
  rw [shape, decodeArcs_continued (fun b => Base128.high_of_mem_continued) low, List.nil_append,
    ← Base128.encode, arcText, number, if_pos exact]

theorem decodeArcs_flatMap (arcs : List Nat) (exact : ∀ arc ∈ arcs, arc < 9007199254740992) :
    decodeArcs inexact [] (arcs.flatMap Base128.encode) = arcs.map toString := by
  induction arcs with
  | nil => rfl
  | cons arc arcs inductionHypothesis =>
      rw [List.flatMap_cons, decodeArcs_encode (exact arc List.mem_cons_self),
        inductionHypothesis fun arc member => exact arc (List.mem_cons_of_mem _ member), List.map_cons]

/-- The first byte stands for the first two arcs when it is their number. -/
theorem decodeObjectIdent_of_small (id : ObjectIdentifier) (apart : id.first < 2 ∨ id.second < 40) :
    decodeObjectIdent inexact id.contents = id.text := by
  have root := id.root
  have below := id.below
  have second : id.second < 40 := by
    rcases apart with first | second
    · exact below first
    · exact second
  have small : 40 * id.first + id.second < 128 := by omega
  have byte : (UInt8.ofNat (40 * id.first + id.second)).toNat = 40 * id.first + id.second := by
    rw [UInt8.toNat_ofNat']
    omega
  have first : (40 * id.first + id.second) / 40 = id.first := by omega
  have rest : (40 * id.first + id.second) % 40 = id.second := by omega
  have behind : decodeArcs inexact [] (id.rest.flatMap Base128.encode) = id.rest.map toString :=
    decodeArcs_flatMap id.rest fun arc member =>
      id.exact arc (List.mem_cons_of_mem _ (List.mem_cons_of_mem _ member))
  rw [ObjectIdentifier.contents, List.flatMap_cons, Base128.encode_of_lt small, List.singleton_append,
    decodeObjectIdent, byte, first, rest, behind]
  rfl

/-- A text of arcs begins with the digit of its first arc. -/
theorem head?_arcs {k : Nat} (digit : k < 10) (second : String) (rest : List String) :
    (".".intercalate (toString k :: second :: rest)).toList.head? = some (Nat.digitChar k) := by
  rw [String.intercalate_cons_cons]
  have one : toString k = String.singleton (Nat.digitChar k) := by
    interval_cases k <;> rfl
  rw [one]
  simp

/-- Another first byte is taken for a first arc from 3 on. -/
theorem decodeObjectIdent_of_large (id : ObjectIdentifier) (joint : id.first = 2) (large : 40 ≤ id.second) :
    decodeObjectIdent inexact id.contents ≠ id.text := by
  have number : 40 * id.first + id.second = 80 + id.second := by rw [joint]
  obtain ⟨b, rest, shape, least⟩ : ∃ b rest, id.contents = b :: rest ∧ 120 ≤ b.toNat := by
    rw [ObjectIdentifier.contents, List.flatMap_cons, number]
    by_cases small : 80 + id.second < 128
    · rw [Base128.encode_of_lt small]
      refine ⟨_, _, rfl, ?_⟩
      rw [UInt8.toNat_ofNat']
      omega
    · obtain ⟨b, rest, shape, high⟩ := Base128.encode_of_le (Nat.le_of_not_lt small)
      rw [shape]
      exact ⟨b, _, rfl, by omega⟩
  have byte := b.toNat_lt
  intro same
  have heads := congrArg (fun text : String => text.toList.head?) same
  have first := @head?_arcs (b.toNat / 40) (by omega) (toString (b.toNat % 40)) (decodeArcs inexact [] rest)
  have root := @head?_arcs id.first (by omega) (toString id.second) (id.rest.map toString)
  rw [shape, decodeObjectIdent, first, ObjectIdentifier.text, List.map_cons, List.map_cons, root, joint] at heads
  have digit : b.toNat / 40 = 3 ∨ b.toNat / 40 = 4 ∨ b.toNat / 40 = 5 ∨ b.toNat / 40 = 6 := by omega
  rcases digit with digit | digit | digit | digit <;>
    · rw [digit] at heads
      exact absurd heads (by decide)

theorem decodeObjectIdent_iff (id : ObjectIdentifier) :
    decodeObjectIdent inexact id.contents = id.text ↔ id.first < 2 ∨ id.second < 40 := by
  constructor
  · intro same
    by_contra joint
    rw [not_or, not_lt, not_lt] at joint
    exact decodeObjectIdent_of_large id (le_antisymm id.root joint.1) joint.2 same
  · exact decodeObjectIdent_of_small id

/-! ## Trees -/

/-- What an identifier is read as. -/
def readIdent (inexact : Bytes → String) (id : ObjectIdentifier) : String := decodeObjectIdent inexact id.contents

theorem decodePrimitive_contents (element : DerPrimitive) :
    decodePrimitive inexact element.tag element.contents = .ok (element.returned (readIdent inexact)) := by
  cases element with
  | int n small =>
      change (decodeInt (intContents n)).map AsnPrimitive.int = _
      rw [decodeInt_intContents small]
      rfl
  | bytes data => rfl
  | null => rfl
  | ident id => rfl

theorem tag_ne (element : DerPrimitive) : element.tag ≠ 48 := by
  cases element <;> simp [DerPrimitive.tag]

/-- Children that are read one by one are read as a sequence. -/
theorem decodeSeq_encodeAll {children : List DerTree}
    (each : ∀ child ∈ children, ∀ (data behind : Bytes) (steps : Nat), Encodes child data →
      data.length < 4294967302 → 2 * data.length + 1 ≤ steps → decodeIncremental inexact steps (data ++ behind) =
        some (.ok (child.map (DerPrimitive.returned (readIdent inexact)), behind)))
    {contents : Bytes} (all : EncodeAll children contents) (small : contents.length < 4294967302)
    (steps : Nat) (enough : 2 * contents.length + 2 ≤ steps) :
    decodeSeq inexact steps contents =
      some (.ok (children.map (Rose.map (DerPrimitive.returned (readIdent inexact))))) := by
  induction children generalizing contents steps with
  | nil =>
      cases all with
      | nil =>
          unfold decodeSeq
          rfl
  | cons child children inductionHypothesis =>
      cases all with
      | @cons _ _ data behind one others =>
          rw [List.length_append] at small enough
          obtain ⟨b, rest, shape⟩ : ∃ b rest, data = b :: rest := by
            cases one with
            | primitive element declared => exact ⟨_, _, rfl⟩
            | sequence declared all => exact ⟨_, _, rfl⟩
          obtain ⟨steps, rfl⟩ : ∃ before, steps = before + 1 := ⟨steps - 1, by omega⟩
          have first := each child List.mem_cons_self data behind steps one (by omega) (by omega)
          have length : data.length = rest.length + 1 := by rw [shape, List.length_cons]
          have later := inductionHypothesis (fun child member => each child (List.mem_cons_of_mem _ member))
            others (by omega) steps (by omega)
          rw [shape, List.cons_append] at first ⊢
          rw [decodeSeq_cons, first]
          simp only
          rw [later]
          rfl

/-- An encoding that is not too long is read as the tree, with the identifiers as they are read. -/
theorem decodeIncremental_encodes (tree : DerTree) (data behind : Bytes) (steps : Nat)
    (encodes : Encodes tree data) (small : data.length < 4294967302) (enough : 2 * data.length + 1 ≤ steps) :
    decodeIncremental inexact steps (data ++ behind) =
      some (.ok (tree.map (DerPrimitive.returned (readIdent inexact)), behind)) := by
  induction tree using Rose.induct generalizing data behind steps with
  | leaf element =>
      cases encodes with
      | @primitive length _ declared =>
          rw [List.length_cons, List.length_append] at small enough
          have within := (lt_iff_of_derLength declared).mp small
          have size := (decodeLength_derLength declared (element.contents ++ behind)).1 within
          obtain ⟨steps, rfl⟩ : ∃ before, steps = before + 1 := ⟨steps - 1, by omega⟩
          rw [List.cons_append, List.append_assoc, decodeIncremental_primitive steps (tag_ne element) size,
            List.take_left, List.drop_left, decodePrimitive_contents]
          rfl
  | node label children inductionHypothesis =>
      cases encodes with
      | @sequence length contents _ declared all =>
          rw [List.length_cons, List.length_append] at small enough
          have within := (lt_iff_of_derLength declared).mp small
          have size := (decodeLength_derLength declared (contents ++ behind)).1 within
          obtain ⟨steps, rfl⟩ : ∃ before, steps = before + 1 := ⟨steps - 1, by omega⟩
          have inner := decodeSeq_encodeAll (fun child member data behind steps encodes small enough =>
            inductionHypothesis child member data behind steps encodes small enough) all (by omega) steps
            (by omega)
          rw [List.cons_append, List.append_assoc, decodeIncremental_sequence steps size, List.take_left,
            List.drop_left, inner, Rose.map_node]
          rfl

/-- An encoding that is too long is refused. -/
theorem decode_of_long {tree : DerTree} {data : Bytes} (encodes : Encodes tree data)
    (long : 4294967302 ≤ data.length) : ∃ error, decode inexact data = some (.error error) := by
  have refused {tag : UInt8} {length contents : Bytes} (declared : DerLength length contents.length)
      (long : 4294967302 ≤ (tag :: (length ++ contents)).length) :
      ∃ error, decode inexact (tag :: (length ++ contents)) = some (.error error) := by
    rw [List.length_cons, List.length_append] at long
    have huge : 4294967296 ≤ contents.length := by
      rw [← Nat.not_lt, ← lt_iff_of_derLength declared]
      exact Nat.not_lt_of_le long
    obtain ⟨error, size⟩ := (decodeLength_derLength declared contents).2 huge
    refine ⟨error, ?_⟩
    unfold decode
    rw [@decodeIncremental_of_error inexact _ (tag :: (length ++ contents)) error size]
    rfl
  cases encodes with
  | primitive element declared => exact refused declared long
  | sequence declared all => exact refused declared long

theorem returned_eq_iff (element : DerPrimitive) :
    element.returned (readIdent inexact) = element.returned ObjectIdentifier.text ↔
      ∀ id, element = .ident id → id.first < 2 ∨ id.second < 40 := by
  cases element with
  | ident id =>
      have text := @decodeObjectIdent_iff inexact id
      constructor
      · rintro same id' ⟨⟩
        exact text.mp (AsnPrimitive.ident.inj same)
      · intro apart
        exact congrArg AsnPrimitive.ident (text.mpr (apart id rfl))
  | int n small => exact ⟨fun _ id none => (nomatch none), fun _ => rfl⟩
  | bytes data => exact ⟨fun _ id none => (nomatch none), fun _ => rfl⟩
  | null => exact ⟨fun _ id none => (nomatch none), fun _ => rfl⟩

/-- A tree comes back from its encoding exactly when that is legible. -/
theorem comesBack_iff {tree : DerTree} {data : Bytes} (encodes : Encodes tree data) :
    ComesBack inexact tree data ↔ Legible tree data := by
  by_cases small : data.length < 4294967302
  · have read := @decodeIncremental_encodes inexact tree data [] _ encodes small (le_refl _)
    rw [List.append_nil] at read
    have decoded : decode inexact data =
        some (.ok (tree.map (DerPrimitive.returned (readIdent inexact)))) := by
      unfold decode
      rw [read]
      rfl
    have leaves : (∀ element ∈ tree.leaves, ∀ id, element = .ident id → id.first < 2 ∨ id.second < 40) ↔
        ∀ id, .ident id ∈ tree.leaves → id.first < 2 ∨ id.second < 40 := by
      constructor
      · intro all id member
        exact all _ member id rfl
      · rintro all element member id rfl
        exact all id member
    unfold ComesBack Legible
    rw [decoded, Option.some.injEq, Except.ok.injEq, Rose.map_congr_iff]
    simp only [returned_eq_iff, leaves, small, true_and]
  · obtain ⟨error, refused⟩ := @decode_of_long inexact _ _ encodes (Nat.le_of_not_lt small)
    constructor
    · intro comesBack
      cases refused.symm.trans comesBack
    · intro legible
      exact absurd legible.1 small

end

/-- The decoder is within bounds and exact exactly on what is not cut short and on what is legible. -/
theorem decode_iff (inexact : Bytes → String) :
    (∀ data, Bounded inexact data ↔ Untruncated inexact data) ∧
      ∀ tree data, Encodes tree data → (ComesBack inexact tree data ↔ Legible tree data) :=
  ⟨bounded_iff inexact, fun _ _ => comesBack_iff⟩

section Samples

/-- `2.999` -/
def exampleArc : ObjectIdentifier := ⟨2, 999, [], le_refl 2, fun less => absurd less (by decide), by decide⟩

theorem exampleArc_encodes : Encodes (.leaf (.ident exampleArc)) [6, 2, 0x88, 0x37] := by
  have contents : exampleArc.contents = [0x88, 0x37] := by decide +kernel
  have encodes := @Encodes.primitive [2] (.ident exampleArc) (by
    change DerLength [2] exampleArc.contents.length
    rw [contents]
    exact .short (by decide))
  change Encodes _ (6 :: ([2] ++ exampleArc.contents)) at encodes
  rw [contents] at encodes
  exact encodes

/-- Five bytes are declared and one is there; an arc from 48 on makes two bytes of the first two. -/
theorem truncated_and_misread :
    ¬ Bounded (fun _ => "") [4, 5, 1] ∧
      Encodes (.leaf (.ident exampleArc)) [6, 2, 0x88, 0x37] ∧
        ¬ ComesBack (fun _ => "") (.leaf (.ident exampleArc)) [6, 2, 0x88, 0x37] := by
  refine ⟨?_, exampleArc_encodes, ?_⟩
  · intro bounded
    have read : decode (fun _ => "") [4, 5, 1] = some (.ok (.leaf (.bytes [1]))) := rfl
    have all := (bounded_iff _ _).mp bounded _ read
    exact absurd all (by decide)
  · intro comesBack
    have read : decode (fun _ => "") [6, 2, 0x88, 0x37] = some (.ok (.leaf (.ident "3.16.55"))) := rfl
    have same := Except.ok.inj (Option.some.inj (read.symm.trans comesBack))
    have texts := AsnPrimitive.ident.inj (Rose.leaf.inj same)
    exact absurd texts (by decide)

/-- A sequence of a null and the number 1. -/
theorem sequence_comes_back :
    ComesBack (fun _ => "") (.node () [.leaf .null, .leaf (.int 1 (by decide))]) [48, 5, 5, 0, 2, 1, 1] := by
  have one := @Encodes.primitive [1] (.int 1 (by decide)) (.short (by decide))
  have null := @Encodes.primitive [0] .null (.short (by decide))
  have all := EncodeAll.cons null (.cons one .nil)
  have encodes := @Encodes.sequence [5] _ _ (.short (by decide)) all
  apply ((decode_iff _).2 _ _ encodes).mpr
  refine ⟨by decide, fun id member => ?_⟩
  simp at member

end Samples

end Der

end HederaSdk
