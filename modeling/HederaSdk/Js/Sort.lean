import Mathlib.Data.List.Sort

/-!
# `Array.prototype.sort`

The sort is stable, and it asks the comparator about the later of two elements first. A
comparator that contradicts itself still gives a permutation; as long as it is right
about the keys of the elements, they are sorted by their keys.
-/

namespace HederaSdk.Js

universe u v

variable {α : Type u}

/-- `items.sort(compare)` -/
def sort (compare : α → α → Int) (items : List α) : List α :=
  items.insertionSort fun a b => 0 ≤ compare b a

theorem sort_perm (compare : α → α → Int) (items : List α) : (sort compare items).Perm items :=
  List.perm_insertionSort _ items

/-- Elements with different keys are compared as their keys are. -/
def RightAbout {κ : Type v} [LT κ] (compare : α → α → Int) (key : α → κ) : Prop :=
  ∀ a b, key a < key b → compare a b < 0 ∧ 0 < compare b a

theorem pairwise_sort_of_mem {κ : Type v} [LinearOrder κ] {compare : α → α → Int} {key : α → κ}
    {items : List α}
    (right : ∀ a ∈ items, ∀ b ∈ items, key a < key b → compare a b < 0 ∧ 0 < compare b a) :
    ((sort compare items).map key).Pairwise (· ≤ ·) := by
  have inserts (a : α) (sorted : List α) (order : (sorted.map key).Pairwise (· ≤ ·))
      (right : ∀ b ∈ sorted, (key a < key b → compare a b < 0 ∧ 0 < compare b a) ∧
        (key b < key a → compare b a < 0 ∧ 0 < compare a b)) :
      ((sorted.orderedInsert (fun a b => 0 ≤ compare b a) a).map key).Pairwise (· ≤ ·) := by
    induction sorted with
    | nil => simp
    | cons b rest inductionHypothesis =>
        have now := right b List.mem_cons_self
        rw [List.map_cons, List.pairwise_cons] at order
        rw [List.orderedInsert_cons]
        split
        · rename_i first
          have least : key a ≤ key b := by
            by_contra less
            exact absurd first (not_le.mpr (now.2 (not_le.mp less)).1)
          refine List.pairwise_cons.mpr ⟨fun k member => ?_, List.pairwise_cons.mpr order⟩
          rcases List.mem_cons.mp member with rfl | later
          · exact least
          · exact least.trans (order.1 k later)
        · rename_i notFirst
          have least : key b ≤ key a := by
            by_contra less
            exact notFirst (now.1 (not_le.mp less)).2.le
          have others := inductionHypothesis order.2 fun c inRest => right c (List.mem_cons_of_mem _ inRest)
          refine List.pairwise_cons.mpr ⟨fun k member => ?_, others⟩
          obtain ⟨c, inserted, rfl⟩ := List.mem_map.mp member
          rcases (List.mem_orderedInsert _).mp inserted with rfl | inRest
          · exact least
          · exact order.1 _ (List.mem_map_of_mem inRest)
  induction items with
  | nil => exact .nil
  | cons a rest inductionHypothesis =>
      apply inserts
      · apply inductionHypothesis
        intro b inRest c inRest'
        exact right b (List.mem_cons_of_mem _ inRest) c (List.mem_cons_of_mem _ inRest')
      · intro b inSorted
        have inRest : b ∈ a :: rest := List.mem_cons_of_mem _ ((sort_perm compare rest).mem_iff.mp inSorted)
        exact ⟨right a List.mem_cons_self b inRest, right b inRest a List.mem_cons_self⟩

theorem pairwise_sort {κ : Type v} [LinearOrder κ] {compare : α → α → Int} {key : α → κ}
    (right : RightAbout compare key) (items : List α) :
    ((sort compare items).map key).Pairwise (· ≤ ·) :=
  pairwise_sort_of_mem fun a _ b _ => right a b

/-- Where the key tells what an element looks like, what the sorted elements look like does not
depend on the order they came in. -/
theorem map_sort_eq {β : Type*} {κ : Type v} [LinearOrder κ] {compare : α → α → Int} {key : α → κ}
    {look : α → β} {items others : List α}
    (right : ∀ a ∈ items, ∀ b ∈ items, key a < key b → compare a b < 0 ∧ 0 < compare b a)
    (right' : ∀ a ∈ others, ∀ b ∈ others, key a < key b → compare a b < 0 ∧ 0 < compare b a)
    (same : (items.map fun a => (key a, look a)).Perm (others.map fun a => (key a, look a)))
    (told : ∀ a ∈ items, ∀ b ∈ items, key a = key b → look a = look b) :
    (sort compare items).map look = (sort compare others).map look := by
  have perm := ((sort_perm compare items).map fun a => (key a, look a)).trans
    (same.trans ((sort_perm compare others).map fun a => (key a, look a)).symm)
  have sorted {list : List α}
      (right : ∀ a ∈ list, ∀ b ∈ list, key a < key b → compare a b < 0 ∧ 0 < compare b a) :
      ((sort compare list).map fun a => (key a, look a)).Pairwise fun p q => p.1 ≤ q.1 := by
    have keys := pairwise_sort_of_mem right
    rw [List.pairwise_map] at keys ⊢
    exact keys
  have equal := List.Perm.eq_of_pairwise (fun p q first second le ge => ?_) (sorted right) (sorted right') perm
  · have looks := congrArg (List.map Prod.snd) equal
    rwa [List.map_map, List.map_map] at looks
  · obtain ⟨a, inSorted, rfl⟩ := List.mem_map.mp first
    obtain ⟨b, inSorted', rfl⟩ := List.mem_map.mp (perm.mem_iff.mpr second)
    exact Prod.ext (le_antisymm le ge) (told a ((sort_perm compare items).mem_iff.mp inSorted) b
      ((sort_perm compare items).mem_iff.mp inSorted') (le_antisymm le ge))

end HederaSdk.Js
