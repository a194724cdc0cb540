import HederaSdk.Library.OrderedMap
import Mathlib.Data.List.Induction
import Mathlib.Data.List.NodupEquivFin

/-!
# Gathering interleaved groups

Items arrive one by one. An item with a key belongs to the group of its key and
waits until the group has the size it names; an item without a key is a group of
its own. `arrive` keeps the waiting items in a map and empties a group when it
is complete.

Seen from outside there is no map: an item completes its group when as many
items with its key have arrived as it says. `arrive_completed` says that the two
agree, in whatever order the groups are interleaved. Where the items are the
numbered parts of owners and each arrives once, an owner's group is complete at
its last part, and not before.
-/

namespace HederaSdk.Library.Gather

universe u v w

variable {κ : Type u} {α : Type v} [DecidableEq κ] (key : α → Option κ) (size : α → Int)

/-- The open groups behind an arrival, and the group it completes. -/
def arrive (waiting : OrderedMap κ (List α)) (a : α) : OrderedMap κ (List α) × Option (List α) :=
  match key a with
  | none => (waiting, some [a])
  | some k =>
      let filed := waiting.push k a
      if ((filed.bucket k).length : Int) = size a then (filed.delete k, some (filed.bucket k))
      else (filed, none)

/-- The open groups behind a sequence of arrivals, and the groups they complete. -/
def gather (waiting : OrderedMap κ (List α)) (items : List α) :
    OrderedMap κ (List α) × List (List α) :=
  items.foldl (fun state a =>
    ((arrive key size state.1 a).1, state.2 ++ (arrive key size state.1 a).2.toList)) (waiting, [])

/-- The items with a key, in the order in which they arrived. -/
def group (seen : List α) (k : κ) : List α := seen.filter fun a => decide (key a = some k)

/-- The group that an item completes behind the items seen before. -/
def completed (seen : List α) (a : α) : Option (List α) :=
  match key a with
  | none => some [a]
  | some k =>
      if ((group key (seen ++ [a]) k).length : Int) = size a then some (group key (seen ++ [a]) k)
      else none

/-- The groups that items complete, in the order of their last items. -/
def completions (seen : List α) : List α → List (List α)
  | [] => []
  | a :: rest => (completed key size seen a).toList ++ completions (seen ++ [a]) rest

/-- Items with one key name one size, and there are no more of them. -/
structure Sized (items : List α) : Prop where
  same : ∀ a ∈ items, ∀ b ∈ items, ∀ k, key a = some k → key b = some k → size a = size b
  fits : ∀ a ∈ items, ∀ k, key a = some k → ((group key items k).length : Int) ≤ size a

/-- Some group of the seen items with this key has its size. -/
def Complete (seen : List α) (k : κ) : Prop :=
  ∃ a ∈ seen, key a = some k ∧ ((group key seen k).length : Int) = size a

/-- The map holds the groups that are not complete. -/
structure Holds (seen : List α) (waiting : OrderedMap κ (List α)) : Prop where
  complete : ∀ k, Complete key size seen k → waiting.bucket k = []
  incomplete : ∀ k, ¬ Complete key size seen k → waiting.bucket k = group key seen k

variable {key size}

theorem holds_empty : Holds key size [] (.empty : OrderedMap κ (List α)) :=
  ⟨fun _ _ => rfl, fun _ _ => rfl⟩

theorem gather_append (waiting : OrderedMap κ (List α)) (items : List α) (a : α) :
    gather key size waiting (items ++ [a]) =
      ((arrive key size (gather key size waiting items).1 a).1,
        (gather key size waiting items).2 ++
          (arrive key size (gather key size waiting items).1 a).2.toList) := by
  simp [gather, List.foldl_append]

/-- Only items that arrived wait. -/
theorem mem_arrive {waiting : OrderedMap κ (List α)} {a b : α} {k : κ}
    (member : b ∈ (arrive key size waiting a).1.bucket k) : b ∈ waiting.bucket k ∨ b = a := by
  unfold arrive at member
  split at member
  · exact .inl member
  · rename_i k' here
    have pushed : b ∈ (waiting.push k' a).bucket k → b ∈ waiting.bucket k ∨ b = a := by
      intro inFiled
      rw [OrderedMap.bucket_push] at inFiled
      split at inFiled
      · rcases List.mem_append.mp inFiled with before | last
        · exact .inl before
        · exact .inr (List.mem_singleton.mp last)
      · exact .inl inFiled
    dsimp only at member
    split at member
    · simp only [OrderedMap.bucket, OrderedMap.get?_delete] at member
      split at member
      · simp at member
      · exact pushed member
    · exact pushed member

theorem mem_gather {items : List α} {b : α} {k : κ}
    (member : b ∈ (gather key size .empty items).1.bucket k) : b ∈ items := by
  induction items using List.reverseRecOn with
  | nil => simp [gather] at member
  | append_singleton items a inductionHypothesis =>
      rw [gather_append] at member
      rcases mem_arrive member with before | rfl
      · exact List.mem_append_left _ (inductionHypothesis before)
      · exact List.mem_append_right _ (List.mem_singleton_self b)

theorem Sized.initial {first second : List α} (sized : Sized key size (first ++ second)) :
    Sized key size first := by
  refine ⟨fun a inA b inB => sized.same a (List.mem_append_left _ inA) b
    (List.mem_append_left _ inB), fun a inFirst k here => ?_⟩
  have fits := sized.fits a (List.mem_append_left _ inFirst) k here
  simp only [group, List.filter_append, List.length_append] at fits ⊢
  omega

theorem group_append (first second : List α) (k : κ) :
    group key (first ++ second) k = group key first k ++ group key second k :=
  List.filter_append ..

theorem group_singleton_self {a : α} {k : κ} (here : key a = some k) : group key [a] k = [a] := by
  simp [group, here]

theorem group_singleton_other {a : α} {k : κ} (elsewhere : key a ≠ some k) :
    group key [a] k = [] := by
  simp [group, elsewhere]

/-- An item leaves the groups of other keys as they are. -/
theorem complete_append_other (seen : List α) {a : α} {k : κ} (elsewhere : key a ≠ some k) :
    Complete key size (seen ++ [a]) k ↔ Complete key size seen k := by
  have groups : group key (seen ++ [a]) k = group key seen k := by
    rw [group_append, group_singleton_other elsewhere, List.append_nil]
  constructor
  · rintro ⟨b, member, here, sizes⟩
    rw [groups] at sizes
    rcases List.mem_append.mp member with inSeen | last
    · exact ⟨b, inSeen, here, sizes⟩
    · rw [List.mem_singleton.mp last] at here
      exact absurd here elsewhere
  · rintro ⟨b, member, here, sizes⟩
    exact ⟨b, List.mem_append_left _ member, here, groups ▸ sizes⟩

/-- A group that another item of its key is to join is not complete. -/
theorem Sized.not_complete {seen rest : List α} {a : α} {k : κ}
    (sized : Sized key size (seen ++ a :: rest)) (here : key a = some k) :
    ¬ Complete key size seen k := by
  rintro ⟨b, member, there, sizes⟩
  have more : (group key seen k).length < (group key (seen ++ a :: rest) k).length := by
    simp [group, here]
  have fits := sized.fits b (List.mem_append_left _ member) k there
  omega

theorem arrive_completed {seen rest : List α} {a : α} {waiting : OrderedMap κ (List α)}
    (sized : Sized key size (seen ++ a :: rest)) (holds : Holds key size seen waiting) :
    (arrive key size waiting a).2 = completed key size seen a ∧
      Holds key size (seen ++ [a]) (arrive key size waiting a).1 := by
  cases here : key a with
  | none =>
      simp only [arrive, completed, here, true_and]
      have elsewhere : ∀ k, key a ≠ some k := fun k => by simp [here]
      refine ⟨fun k done => holds.complete k ((complete_append_other seen (elsewhere k)).mp done),
        fun k open_ => ?_⟩
      rw [holds.incomplete k fun done => open_ ((complete_append_other seen (elsewhere k)).mpr done),
        group_append, group_singleton_other (elsewhere k), List.append_nil]
  | some k =>
      have bucket : (waiting.push k a).bucket k = group key (seen ++ [a]) k := by
        rw [OrderedMap.bucket_push, if_pos rfl, holds.incomplete k (sized.not_complete here),
          group_append, group_singleton_self here]
      have others : ∀ k', k ≠ k' →
          (Complete key size (seen ++ [a]) k' → (waiting.push k a).bucket k' = []) ∧
          (¬ Complete key size (seen ++ [a]) k' →
            (waiting.push k a).bucket k' = group key (seen ++ [a]) k') := by
        intro k' differs
        have elsewhere : key a ≠ some k' := by
          rw [here]
          exact fun same => differs (Option.some.inj same)
        rw [complete_append_other seen elsewhere, OrderedMap.bucket_push, if_neg differs,
          group_append, group_singleton_other elsewhere, List.append_nil]
        exact ⟨holds.complete k', holds.incomplete k'⟩
      simp only [arrive, completed, here, bucket]
      by_cases done : ((group key (seen ++ [a]) k).length : Int) = size a
      · simp only [done, if_true, true_and]
        have complete : Complete key size (seen ++ [a]) k :=
          ⟨a, List.mem_append_right _ (List.mem_singleton_self a), here, done⟩
        refine ⟨fun k' complete' => ?_, fun k' open_ => ?_⟩ <;>
          simp only [OrderedMap.bucket, OrderedMap.get?_delete] <;> by_cases same : k = k'
        · simp [same]
        · rw [if_neg same]
          exact (others k' same).1 complete'
        · exact absurd (same ▸ complete) open_
        · rw [if_neg same]
          exact (others k' same).2 open_
      · simp only [done, if_false, true_and]
        have incomplete : ¬ Complete key size (seen ++ [a]) k := by
          rintro ⟨b, member, there, sizes⟩
          have inItems : b ∈ seen ++ a :: rest := by
            rcases List.mem_append.mp member with inSeen | last
            · exact List.mem_append_left _ inSeen
            · exact List.mem_append_right _ (List.mem_singleton.mp last ▸ List.mem_cons_self)
          have sizes' := sized.same a (List.mem_append_right _ List.mem_cons_self) b inItems k
            here there
          exact done (sizes.trans sizes'.symm)
        refine ⟨fun k' complete' => ?_, fun k' open_ => ?_⟩ <;> by_cases same : k = k'
        · exact absurd (same ▸ complete') incomplete
        · exact (others k' same).1 complete'
        · exact same ▸ bucket
        · exact (others k' same).2 open_

theorem completions_append (seen items : List α) (a : α) :
    completions key size seen (items ++ [a]) =
      completions key size seen items ++ (completed key size (seen ++ items) a).toList := by
  induction items generalizing seen with
  | nil => simp [completions]
  | cons b rest inductionHypothesis =>
      simp only [List.cons_append, completions, inductionHypothesis, List.append_assoc,
        List.nil_append]

theorem gather_completions {items : List α} (sized : Sized key size items) :
    (gather key size .empty items).2 = completions key size [] items ∧
      Holds key size items (gather key size .empty items).1 := by
  induction items using List.reverseRecOn with
  | nil => exact ⟨rfl, holds_empty⟩
  | append_singleton items a inductionHypothesis =>
      obtain ⟨groups, holds⟩ := inductionHypothesis sized.initial
      obtain ⟨last, holds'⟩ := @arrive_completed _ _ _ _ _ _ [] _ _ sized holds
      rw [gather_append, completions_append, ← groups, last, List.nil_append]
      exact ⟨rfl, holds'⟩

/-! ## Images of items -/

section Images

variable {β : Type w} {key : β → Option κ} {size : β → Int} (f : α → β)

theorem group_map (seen : List α) (k : κ) :
    group key (seen.map f) k = (group (key ∘ f) seen k).map f := by
  rw [group, group, List.filter_map]
  rfl

theorem completed_map (seen : List α) (a : α) :
    completed key size (seen.map f) (f a) =
      (completed (key ∘ f) (size ∘ f) seen a).map (List.map f) := by
  have whole : seen.map f ++ [f a] = (seen ++ [a]).map f := by simp
  unfold completed
  rw [whole]
  cases here : key (f a) with
  | none => simp [here]
  | some k =>
      simp only [Function.comp_apply, here, group_map, List.length_map]
      split <;> rfl

theorem Sized.map {items : List α} (sized : Sized (key ∘ f) (size ∘ f) items) :
    Sized key size (items.map f) where
  same image inImages other otherInImages := by
    obtain ⟨a, inA, rfl⟩ := List.mem_map.mp inImages
    obtain ⟨b, inB, rfl⟩ := List.mem_map.mp otherInImages
    exact sized.same a inA b inB
  fits image inImages k here := by
    obtain ⟨a, inA, rfl⟩ := List.mem_map.mp inImages
    rw [group_map, List.length_map]
    exact sized.fits a inA k here

end Images

/-! ## Parts of owners -/

section Parts

variable {ι : Type w}

/-- Every item is a part of its owner that no other item is, and a key stands for
one owner. An owner whose part has no key has no other part. -/
structure Parted (key : α → Option κ) (size : α → Int) (owner : α → ι) (row : α → Nat)
    (parts : ι → Nat) (items : List α) : Prop where
  inside : ∀ a ∈ items, row a < parts (owner a)
  once : items.Pairwise fun a b => owner a = owner b → row a ≠ row b
  size : ∀ a ∈ items, size a = parts (owner a)
  same : ∀ a ∈ items, ∀ b ∈ items, ∀ k, key a = some k → (key b = some k ↔ owner b = owner a)
  alone : ∀ a ∈ items, key a = none → parts (owner a) = 1

/-- All parts of the owner are among the items seen. -/
def Arrived (owner : α → ι) (row : α → Nat) (parts : ι → Nat) (seen : List α) (i : ι) : Prop :=
  ∀ r < parts i, ∃ a ∈ seen, owner a = i ∧ row a = r

variable {owner : α → ι} {row : α → Nat} {parts : ι → Nat}

omit [DecidableEq κ] in
theorem Parted.initial {first second : List α}
    (parted : Parted key size owner row parts (first ++ second)) :
    Parted key size owner row parts first where
  inside a inA := parted.inside a (List.mem_append_left _ inA)
  once := (List.pairwise_append.mp parted.once).1
  size a inA := parted.size a (List.mem_append_left _ inA)
  same a inA b inB := parted.same a (List.mem_append_left _ inA) b (List.mem_append_left _ inB)
  alone a inA := parted.alone a (List.mem_append_left _ inA)

theorem mem_group {items : List α} {a : α} {k : κ} :
    a ∈ group key items k ↔ a ∈ items ∧ key a = some k := by
  simp [group]

section Group

variable {items : List α} (parted : Parted key size owner row parts items) {a : α} {k : κ}
  (member : a ∈ items) (here : key a = some k)
include parted member here

theorem Parted.owner_of_mem_group {b : α} (inGroup : b ∈ group key items k) :
    owner b = owner a :=
  (parted.same a member b (mem_group.mp inGroup).1 k here).mp (mem_group.mp inGroup).2

/-- The rows of a group are different rows of its owner. -/
theorem Parted.rows_subperm :
    ((group key items k).map row).Subperm (List.range (parts (owner a))) := by
  have different : ((group key items k).map row).Nodup := by
    rw [List.Nodup, List.pairwise_map]
    refine (parted.once.sublist List.filter_sublist).imp_of_mem ?_
    intro b c inB inC once
    exact once ((parted.owner_of_mem_group member here inB).trans
      (parted.owner_of_mem_group member here inC).symm)
  refine List.subperm_of_subset different ?_
  intro r inRows
  obtain ⟨b, inGroup, rfl⟩ := List.mem_map.mp inRows
  have inside := parted.inside b (mem_group.mp inGroup).1
  rw [parted.owner_of_mem_group member here inGroup] at inside
  exact List.mem_range.mpr inside

theorem Parted.length_group_le : (group key items k).length ≤ parts (owner a) := by
  simpa using (parted.rows_subperm member here).length_le

/-- A group is as large as its owner has parts when all of them arrived. -/
theorem Parted.length_group_iff :
    (group key items k).length = parts (owner a) ↔ Arrived owner row parts items (owner a) := by
  have rows := parted.rows_subperm member here
  constructor
  · intro full r inside
    have all := rows.perm_of_length_le (by simp [full])
    have inRows : r ∈ (group key items k).map row := all.mem_iff.mpr (List.mem_range.mpr inside)
    obtain ⟨b, inGroup, same⟩ := List.mem_map.mp inRows
    exact ⟨b, (mem_group.mp inGroup).1, parted.owner_of_mem_group member here inGroup, same⟩
  · intro arrived
    have all : List.range (parts (owner a)) ⊆ (group key items k).map row := by
      intro r inside
      obtain ⟨b, inItems, own, rfl⟩ := arrived r (List.mem_range.mp inside)
      have sameKey := (parted.same a member b inItems k here).mpr own
      exact List.mem_map.mpr ⟨b, mem_group.mpr ⟨inItems, sameKey⟩, rfl⟩
    have most := (List.subperm_of_subset List.nodup_range all).length_le
    have least := parted.length_group_le member here
    simp only [List.length_range, List.length_map] at most
    omega

end Group

theorem Parted.sized {items : List α} (parted : Parted key size owner row parts items) :
    Sized key size items where
  same a inA b inB k hereA hereB := by
    rw [parted.size a inA, parted.size b inB, (parted.same a inA b inB k hereA).mp hereB]
  fits a inA k here := by
    rw [parted.size a inA]
    exact_mod_cast parted.length_group_le inA here

/-- The last part of an owner completes a group of all its parts. -/
theorem Parted.completed_of_arrived {seen : List α} {a : α}
    (parted : Parted key size owner row parts (seen ++ [a]))
    (arrived : Arrived owner row parts (seen ++ [a]) (owner a)) :
    ∃ group, completed key size seen a = some group ∧
      (group.map row).Perm (List.range (parts (owner a))) ∧
      ∀ b ∈ group, b ∈ seen ++ [a] ∧ owner b = owner a := by
  have member : a ∈ seen ++ [a] := List.mem_append_right _ (List.mem_singleton_self a)
  cases here : key a with
  | none =>
      have single := parted.alone a member here
      have first := parted.inside a member
      refine ⟨[a], by simp [completed, here], ?_, ?_⟩
      · rw [single] at first ⊢
        simp [Nat.lt_one_iff.mp first]
      · intro b inGroup
        rw [List.mem_singleton.mp inGroup]
        exact ⟨member, rfl⟩
  | some k =>
      have full := (parted.length_group_iff member here).mpr arrived
      refine ⟨group key (seen ++ [a]) k, by simp [completed, here, full, parted.size a member], ?_, ?_⟩
      · exact (parted.rows_subperm member here).perm_of_length_le (by simp [full])
      · exact fun b inGroup =>
          ⟨(mem_group.mp inGroup).1, parted.owner_of_mem_group member here inGroup⟩

/-- No group is complete while a part of it is missing. -/
theorem Parted.completed_of_missing {seen : List α} {a : α}
    (parted : Parted key size owner row parts (seen ++ [a]))
    (missing : ¬ Arrived owner row parts (seen ++ [a]) (owner a)) :
    completed key size seen a = none := by
  have member : a ∈ seen ++ [a] := List.mem_append_right _ (List.mem_singleton_self a)
  cases here : key a with
  | none =>
      refine absurd (fun r inside => ⟨a, member, rfl, ?_⟩) missing
      have first := parted.inside a member
      rw [parted.alone a member here] at first inside
      omega
  | some k =>
      have short : (group key (seen ++ [a]) k).length ≠ parts (owner a) := fun full =>
        missing ((parted.length_group_iff member here).mp full)
      have sizes : ((group key (seen ++ [a]) k).length : Int) ≠ size a := by
        rw [parted.size a member]
        exact_mod_cast short
      simp [completed, here, sizes]

omit [DecidableEq κ] in
/-- An owner whose part is still to arrive is not complete. -/
theorem Parted.not_arrived {seen : List α} {a : α}
    (parted : Parted key size owner row parts (seen ++ [a])) :
    ¬ Arrived owner row parts seen (owner a) := by
  intro arrived
  have member : a ∈ seen ++ [a] := List.mem_append_right _ (List.mem_singleton_self a)
  obtain ⟨b, inSeen, own, same⟩ := arrived (row a) (parted.inside a member)
  exact (List.pairwise_append.mp parted.once).2.2 b inSeen a (List.mem_singleton_self a) own same

end Parts

end HederaSdk.Library.Gather
