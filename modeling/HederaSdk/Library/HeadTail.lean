import Mathlib.Data.List.Forall2
import Mathlib.Tactic.Ring

/-!
# Heads and tails

A tuple of parts is laid out in slots of one size, a slot for each part. A static part stands
in its slot; a dynamic one stands behind all slots, in order and without gaps, and its slot
has a word for the distance from the start.
-/

namespace HederaSdk.Library.HeadTail

structure Part where
  dynamic : Bool
  bytes : List UInt8

/-- What stands behind the slots. -/
def Part.tail (part : Part) : List UInt8 := if part.dynamic then part.bytes else []

def tails (parts : List Part) : List UInt8 := parts.flatMap Part.tail

@[simp] theorem tails_nil : tails [] = [] := rfl

@[simp] theorem tails_cons (part : Part) (rest : List Part) : tails (part :: rest) = part.tail ++ tails rest :=
  List.flatMap_cons

theorem tails_append (first second : List Part) : tails (first ++ second) = tails first ++ tails second :=
  List.flatMap_append

theorem length_tail_le {parts : List Part} {part : Part} (member : part ∈ parts) :
    part.tail.length ≤ (tails parts).length := by
  obtain ⟨before, after, rfl⟩ := List.append_of_mem member
  rw [tails_append, tails_cons, List.length_append, List.length_append]
  omega

/-- How an offset is written into a slot. -/
structure Layout where
  slot : Nat
  word : Nat → List UInt8
  length_word : ∀ n, (word n).length = slot

namespace Layout

variable (layout : Layout)

def head (offset : Nat) (part : Part) : List UInt8 :=
  if part.dynamic then layout.word offset else part.bytes

def heads : Nat → List Part → List UInt8
  | _, [] => []
  | offset, part :: rest => layout.head offset part ++ heads (offset + part.tail.length) rest

def encode (parts : List Part) : List UInt8 :=
  layout.heads (layout.slot * parts.length) parts ++ tails parts

/-- A static part fills its slot. -/
def Fits (part : Part) : Prop := part.dynamic = false → part.bytes.length = layout.slot

variable {layout}

theorem length_head {part : Part} (fits : layout.Fits part) (offset : Nat) :
    (layout.head offset part).length = layout.slot := by
  rw [head]
  cases dynamic : part.dynamic with
  | true => exact layout.length_word offset
  | false => exact fits dynamic

theorem length_heads {parts : List Part} (fits : ∀ part ∈ parts, layout.Fits part) (offset : Nat) :
    (layout.heads offset parts).length = layout.slot * parts.length := by
  induction parts generalizing offset with
  | nil => rfl
  | cons part rest inductionHypothesis =>
      rw [heads, List.length_append, length_head (fits part List.mem_cons_self),
        inductionHypothesis fun other member => fits other (List.mem_cons_of_mem _ member), List.length_cons]
      ring

theorem length_encode {parts : List Part} (fits : ∀ part ∈ parts, layout.Fits part) :
    (layout.encode parts).length = layout.slot * parts.length + (tails parts).length := by
  rw [encode, List.length_append, length_heads fits]

theorem heads_append (first second : List Part) (offset : Nat) :
    layout.heads offset (first ++ second) =
      layout.heads offset first ++ layout.heads (offset + (tails first).length) second := by
  induction first generalizing offset with
  | nil => rfl
  | cons part rest inductionHypothesis =>
      rw [List.cons_append, heads, heads, inductionHypothesis, tails_cons, List.length_append, List.append_assoc,
        Nat.add_assoc]

/-- Parts of one shape and of the same lengths take the same space. -/
theorem length_encode_map {α : Type*} {items : List α} {f g : α → Part}
    (fits : ∀ a ∈ items, layout.Fits (f a)) (fits' : ∀ a ∈ items, layout.Fits (g a))
    (alike : ∀ a ∈ items, (f a).dynamic = (g a).dynamic ∧ (f a).bytes.length = (g a).bytes.length) :
    (layout.encode (items.map f)).length = (layout.encode (items.map g)).length := by
  have tail (a : α) (member : a ∈ items) : (f a).tail.length = (g a).tail.length := by
    rw [Part.tail, Part.tail, (alike a member).1]
    split
    · exact (alike a member).2
    · rfl
  have sums : (tails (items.map f)).length = (tails (items.map g)).length := by
    rw [tails, tails, List.length_flatMap, List.length_flatMap, List.map_map, List.map_map]
    exact congrArg List.sum (List.map_congr_left tail)
  rw [length_encode (List.forall_mem_map.mpr fits), length_encode (List.forall_mem_map.mpr fits'), List.length_map,
    List.length_map, sums]

/-- Where a dynamic part stands. -/
def offsetOf (layout : Layout) (parts : List Part) (i : Nat) : Nat :=
  layout.slot * parts.length + (tails (parts.take i)).length

/-- The slot of a part. -/
theorem encode_eq_head {parts : List Part} (fits : ∀ part ∈ parts, layout.Fits part) {i : Nat} {part : Part}
    (found : parts[i]? = some part) :
    ∃ before after, layout.encode parts = before ++ layout.head (layout.offsetOf parts i) part ++ after ∧
      before.length = layout.slot * i := by
  obtain ⟨inside, rfl⟩ := List.getElem?_eq_some_iff.mp found
  have split := List.take_append_drop i parts
  rw [List.drop_eq_getElem_cons inside] at split
  refine ⟨layout.heads (layout.slot * parts.length) (parts.take i), layout.heads
    (layout.offsetOf parts i + parts[i].tail.length) (parts.drop (i + 1)) ++ tails parts, ?_, ?_⟩
  · have laid : layout.heads (layout.slot * parts.length) parts =
        layout.heads (layout.slot * parts.length) (parts.take i ++ parts[i] :: parts.drop (i + 1)) := by rw [split]
    rw [encode, laid, heads_append, heads, offsetOf]
    simp only [List.append_assoc]
  · rw [length_heads fun part member => fits part (List.mem_of_mem_take member), List.length_take,
      Nat.min_eq_left (Nat.le_of_lt inside)]

/-- The place behind the slots of a dynamic part. -/
theorem encode_eq_tail {parts : List Part} (fits : ∀ part ∈ parts, layout.Fits part) {i : Nat} {part : Part}
    (found : parts[i]? = some part) :
    ∃ before after, layout.encode parts = before ++ part.tail ++ after ∧
      before.length = layout.offsetOf parts i := by
  obtain ⟨inside, rfl⟩ := List.getElem?_eq_some_iff.mp found
  have split := List.take_append_drop i parts
  rw [List.drop_eq_getElem_cons inside] at split
  refine ⟨layout.heads (layout.slot * parts.length) parts ++ tails (parts.take i), tails (parts.drop (i + 1)), ?_, ?_⟩
  · have laid : tails parts = tails (parts.take i ++ parts[i] :: parts.drop (i + 1)) := by rw [split]
    rw [encode, laid, tails_append, tails_cons]
    simp only [List.append_assoc]
  · rw [List.length_append, length_heads fits, offsetOf]

/-- Slots that are the same have the same static parts. -/
theorem static_of_heads_eq {first second : List Part} (fits : ∀ part ∈ first, layout.Fits part)
    (fits' : ∀ part ∈ second, layout.Fits part)
    (shape : List.Forall₂ (fun part other => part.dynamic = other.dynamic) first second) {offset offset' : Nat}
    (same : layout.heads offset first = layout.heads offset' second) :
    List.Forall₂ (fun part other => part.dynamic = false → part.bytes = other.bytes) first second := by
  induction shape generalizing offset offset' with
  | nil => exact .nil
  | @cons part other rest others alike shape inductionHypothesis =>
      have lengths : (layout.head offset part).length = (layout.head offset' other).length := by
        rw [length_head (fits part List.mem_cons_self), length_head (fits' other List.mem_cons_self)]
      obtain ⟨slots, more⟩ := List.append_inj same lengths
      refine .cons (fun static => ?_) (inductionHypothesis
        (fun part member => fits part (List.mem_cons_of_mem _ member))
        (fun part member => fits' part (List.mem_cons_of_mem _ member)) more)
      rw [head, head, ← alike, static] at slots
      exact slots

/-- Parts of one shape are laid out alike only when the static ones are the same. -/
theorem static_of_encode_eq {first second : List Part} (fits : ∀ part ∈ first, layout.Fits part)
    (fits' : ∀ part ∈ second, layout.Fits part)
    (shape : List.Forall₂ (fun part other => part.dynamic = other.dynamic) first second)
    (same : layout.encode first = layout.encode second) :
    List.Forall₂ (fun part other => part.dynamic = false → part.bytes = other.bytes) first second := by
  have lengths : (layout.heads (layout.slot * first.length) first).length =
      (layout.heads (layout.slot * second.length) second).length := by
    rw [length_heads fits, length_heads fits', shape.length_eq]
  exact static_of_heads_eq fits fits' shape (List.append_inj same lengths).1

end Layout

end HederaSdk.Library.HeadTail
