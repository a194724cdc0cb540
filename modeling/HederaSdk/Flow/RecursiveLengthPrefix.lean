import HederaSdk.Flow.EthereumFlow

/-!
# The recursive length prefix

Bytes and lists of them, to any depth, are written behind a header with their length. Reading
takes one item from the front and leaves the rest. What was written is read back, with whatever
follows it.
-/

namespace HederaSdk

open Library
open EthereumFlow (rlpHeader rlpData rlpList recursiveLengthPrefix)

inductive RlpTree where
  | data (bytes : Bytes)
  | list (items : List RlpTree)

namespace RlpTree

mutual

def encode : RlpTree → Bytes
  | .data bytes => rlpData bytes
  | .list items => rlpList (encodeAll items)

def encodeAll : List RlpTree → Bytes
  | [] => []
  | item :: rest => encode item ++ encodeAll rest

end

/-! ## Reading -/

def takeBytes (length : Nat) (bytes : Bytes) : Option (Bytes × Bytes) :=
  if length ≤ bytes.length then some (bytes.take length, bytes.drop length) else none

/-- The payload behind a header that begins with `b`. -/
def readPayload (base b : UInt8) (bytes : Bytes) : Option (Bytes × Bytes) :=
  if b.toNat < base.toNat + 56 then takeBytes (b.toNat - base.toNat) bytes
  else do
    let (size, rest) ← takeBytes (b.toNat - (base.toNat + 55)) bytes
    takeBytes (BigEndian.value size) rest

mutual

def readItem : Nat → Bytes → Option (RlpTree × Bytes)
  | fuel + 1, b :: bytes =>
      if b < 0x80 then some (.data [b], bytes)
      else if b < 0xc0 then do
        let (payload, rest) ← readPayload 0x80 b bytes
        some (.data payload, rest)
      else do
        let (payload, rest) ← readPayload 0xc0 b bytes
        let items ← readItems fuel payload
        some (.list items, rest)
  | _, _ => none

def readItems : Nat → Bytes → Option (List RlpTree)
  | _, [] => some []
  | fuel + 1, bytes => do
      let (item, rest) ← readItem fuel bytes
      let items ← readItems fuel rest
      some (item :: items)
  | 0, _ => none

end

/-- All of the bytes have to be one item. -/
def decode (bytes : Bytes) : Option RlpTree := do
  let (item, rest) ← readItem (2 * bytes.length) bytes
  if rest = [] then some item else none

/-! ## Headers -/

theorem takeBytes_append (payload rest : Bytes) :
    takeBytes payload.length (payload ++ rest) = some (payload, rest) := by
  rw [takeBytes, if_pos (by simp), List.take_left, List.drop_left]

/-- A header leads to the payload that it was written for, and tells its kind. -/
theorem readPayload_header {base : UInt8} (low : base.toNat ≤ 192) {payload : Bytes}
    (small : payload.length < 256 ^ 8) (rest : Bytes) :
    ∃ b tail, rlpHeader base payload.length ++ (payload ++ rest) = b :: tail ∧
      base.toNat ≤ b.toNat ∧ b.toNat < base.toNat + 64 ∧ readPayload base b tail = some (payload, rest) := by
  rw [rlpHeader]
  by_cases short : payload.length < 56
  · have first : (base + .ofNat payload.length).toNat = base.toNat + payload.length := by
      rw [UInt8.toNat_add, UInt8.toNat_ofNat']
      omega
    refine ⟨_, payload ++ rest, by rw [if_pos short]; rfl, by omega, by omega, ?_⟩
    rw [readPayload, first, if_pos (by omega), Nat.add_sub_cancel_left, takeBytes_append]
  · obtain ⟨size, written⟩ : ∃ size, BigEndian.minimal payload.length = size := ⟨_, rfl⟩
    have value : BigEndian.value size = payload.length := by rw [← written, BigEndian.value_minimal]
    have few : size.length ≤ 8 := by rw [← written]; exact BigEndian.length_minimal_le_iff.mpr small
    have present : 0 < size.length := by
      rw [List.length_pos_iff]
      rintro rfl
      rw [BigEndian.value_nil] at value
      omega
    have first : (base + 55 + .ofNat size.length).toNat = base.toNat + 55 + size.length := by
      rw [UInt8.toNat_add, UInt8.toNat_add, UInt8.toNat_ofNat', show (55 : UInt8).toNat = 55 from rfl]
      omega
    refine ⟨base + 55 + .ofNat size.length, size ++ (payload ++ rest), ?_, by omega, by omega, ?_⟩
    · rw [if_neg short, written, List.cons_append]
    · rw [readPayload, first, if_neg (by omega), Nat.add_sub_cancel_left, takeBytes_append]
      change takeBytes (BigEndian.value size) (payload ++ rest) = _
      rw [value, takeBytes_append]

/-! ## Reading what was written -/

theorem encode_data (bytes : Bytes) (single : ∀ b, bytes ≠ [b]) :
    (RlpTree.data bytes).encode = rlpHeader 0x80 bytes.length ++ bytes := by
  rw [encode, rlpData]
  exact single

theorem readItem_of_data (fuel : Nat) (bytes rest : Bytes) (small : bytes.length < 256 ^ 8) :
    readItem (fuel + 1) ((RlpTree.data bytes).encode ++ rest) = some (.data bytes, rest) := by
  by_cases single : ∃ b, bytes = [b]
  · obtain ⟨b, rfl⟩ := single
    rw [encode, rlpData]
    by_cases low : b < 0x80
    · rw [if_pos low, List.cons_append, readItem, if_pos low]
      rfl
    · rw [if_neg low]
      rfl
  · rw [encode_data bytes fun b same => single ⟨b, same⟩, List.append_assoc]
    obtain ⟨b, tail, written, least, most, payload⟩ := @readPayload_header 0x80 (by decide) bytes small rest
    have high : ¬ b < 0x80 := by
      rw [UInt8.lt_iff_toNat_lt, not_lt]
      exact least
    have low : b < 0xc0 := UInt8.lt_iff_toNat_lt.mpr most
    rw [written, readItem, if_neg high, if_pos low, payload]
    rfl

theorem readItem_of_list {fuel : Nat} {items : List RlpTree} (rest : Bytes)
    (small : (encodeAll items).length < 256 ^ 8) (read : readItems fuel (encodeAll items) = some items) :
    readItem (fuel + 1) ((RlpTree.list items).encode ++ rest) = some (.list items, rest) := by
  rw [encode, rlpList, List.append_assoc]
  obtain ⟨b, tail, written, least, -, payload⟩ :=
    @readPayload_header 0xc0 (by decide) (encodeAll items) small rest
  have notSingle : ¬ b < 0x80 := by
    rw [UInt8.lt_iff_toNat_lt, not_lt]
    exact le_trans (by decide) least
  have notData : ¬ b < 0xc0 := by
    rw [UInt8.lt_iff_toNat_lt, not_lt]
    exact least
  rw [written, readItem, if_neg notSingle, if_neg notData, payload]
  change (readItems fuel (encodeAll items)).bind _ = _
  rw [read]
  rfl

/-! Every item has a byte at least, and is no shorter than what is in it. -/

theorem rlpHeader_length_pos (base : UInt8) (length : Nat) : 0 < (rlpHeader base length).length := by
  rw [rlpHeader]
  split <;> simp

theorem encode_data_length (bytes : Bytes) :
    0 < (RlpTree.data bytes).encode.length ∧ bytes.length ≤ (RlpTree.data bytes).encode.length := by
  by_cases single : ∃ b, bytes = [b]
  · obtain ⟨b, rfl⟩ := single
    rw [encode, rlpData]
    split <;> simp
  · have header := rlpHeader_length_pos 0x80 bytes.length
    rw [encode_data bytes fun b same => single ⟨b, same⟩, List.length_append]
    omega

theorem length_encodeAll_lt (items : List RlpTree) :
    (encodeAll items).length < (RlpTree.list items).encode.length := by
  have header := rlpHeader_length_pos 0xc0 (encodeAll items).length
  rw [encode, rlpList, List.length_append]
  omega

theorem encode_length_pos (item : RlpTree) : 0 < item.encode.length := by
  cases item with
  | data bytes => exact (encode_data_length bytes).1
  | list items => exact Nat.zero_lt_of_lt (length_encodeAll_lt items)

mutual

/-- Two steps for every byte are enough to read an item. -/
theorem readItem_encode (item : RlpTree) (fuel : Nat) (rest : Bytes) (small : item.encode.length < 256 ^ 8)
    (enough : 2 * item.encode.length ≤ fuel + 1) : readItem fuel (item.encode ++ rest) = some (item, rest) := by
  have some := encode_length_pos item
  obtain ⟨fuel, rfl⟩ : ∃ before, fuel = before + 1 := ⟨fuel - 1, by omega⟩
  match item with
  | .data bytes =>
      have shorter := (encode_data_length bytes).2
      exact readItem_of_data fuel bytes rest (by omega)
  | .list items =>
      have shorter := length_encodeAll_lt items
      exact readItem_of_list rest (by omega) (readItems_encodeAll items fuel (by omega) (by omega))

theorem readItems_encodeAll (items : List RlpTree) (fuel : Nat) (small : (encodeAll items).length < 256 ^ 8)
    (enough : 2 * (encodeAll items).length ≤ fuel) : readItems fuel (encodeAll items) = some items := by
  match items with
  | [] =>
      rw [encodeAll, readItems]
  | item :: rest =>
      rw [encodeAll, List.length_append] at small enough
      have some := encode_length_pos item
      obtain ⟨fuel, rfl⟩ : ∃ before, fuel = before + 1 := ⟨fuel - 1, by omega⟩
      have first := readItem_encode item fuel (encodeAll rest) (by omega) (by omega)
      have others := readItems_encodeAll rest fuel (by omega) (by omega)
      rw [encodeAll, readItems]
      · rw [first]
        change (readItems fuel (encodeAll rest)).bind _ = _
        rw [others]
        rfl
      · intro empty
        rw [List.append_eq_nil_iff.mp empty |>.1, List.length_nil] at some
        exact absurd some (lt_irrefl 0)

end

/-- Whatever is written is read back. -/
theorem decode_encode (item : RlpTree) (small : item.encode.length < 256 ^ 8) : decode item.encode = some item := by
  have read := readItem_encode item (2 * item.encode.length) [] small (by omega)
  rw [List.append_nil] at read
  rw [decode, read]
  change (if ([] : Bytes) = [] then some item else none) = some item
  exact if_pos rfl

theorem encodeAll_eq_flatMap (items : List RlpTree) : encodeAll items = items.flatMap encode := by
  induction items with
  | nil => rw [encodeAll, List.flatMap_nil]
  | cons item rest inductionHypothesis => rw [encodeAll, inductionHypothesis, List.flatMap_cons]

end RlpTree

def RlpItem.tree : RlpItem → RlpTree
  | .data bytes => .data bytes
  | .list items => .list (items.map .data)

/-- Items that are not nested further are written the same way. -/
theorem RlpTree.encode_items (items : List RlpItem) :
    (RlpTree.list (items.map RlpItem.tree)).encode = recursiveLengthPrefix.wire items := by
  have one (item : RlpItem) : item.tree.encode = match item with
      | .data bytes => rlpData bytes
      | .list items => rlpList (items.flatMap rlpData) := by
    cases item with
    | data bytes => rw [RlpItem.tree, encode]
    | list items =>
        rw [RlpItem.tree, encode, encodeAll_eq_flatMap, List.flatMap_map]
        simp only [encode]
  rw [encode, encodeAll_eq_flatMap, List.flatMap_map]
  simp only [one]
  rfl

end HederaSdk
