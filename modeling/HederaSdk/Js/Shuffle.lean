import Mathlib.Data.List.Perm.Basic
import Mathlib.Data.List.Nodup

/-!
# Shuffling

`util.shuffle` swaps the element at a falling index with a drawn one. What comes out has the
same elements, and every order of them can come out.
-/

namespace HederaSdk.Js

variable {α β : Type}

/-- The element at the falling index is swapped with a drawn one below or at it. -/
def shuffleFrom (ω : Nat → Nat) : Nat → Array α → Array α
  | 0, array => array
  | currentIndex + 1, array =>
      shuffleFrom ω currentIndex (array.swapIfInBounds currentIndex (ω currentIndex % (currentIndex + 1)))

/-- `util.shuffle` -/
def shuffle (ω : Nat → Nat) (list : List α) : List α := (shuffleFrom ω list.length list.toArray).toList

theorem swapIfInBounds_perm (array : Array α) (i j : Nat) :
    (array.swapIfInBounds i j).toList.Perm array.toList := by
  unfold Array.swapIfInBounds
  split
  · split
    · exact (Array.swap_perm ..).toList
    · exact .refl _
  · exact .refl _

theorem shuffleFrom_perm (ω : Nat → Nat) (n : Nat) (array : Array α) :
    (shuffleFrom ω n array).toList.Perm array.toList := by
  induction n generalizing array with
  | zero => exact .refl _
  | succ n inductionHypothesis => exact (inductionHypothesis _).trans (swapIfInBounds_perm _ _ _)

theorem shuffle_perm (ω : Nat → Nat) (list : List α) : (shuffle ω list).Perm list :=
  shuffleFrom_perm ω _ _

/-- Only the draws below the index count. -/
theorem shuffleFrom_congr {ω ω' : Nat → Nat} {n : Nat} (same : ∀ i < n, ω i = ω' i) (array : Array α) :
    shuffleFrom ω n array = shuffleFrom ω' n array := by
  induction n generalizing array with
  | zero => rfl
  | succ n inductionHypothesis =>
      rw [shuffleFrom, shuffleFrom, same n (Nat.lt_succ_self n)]
      exact inductionHypothesis (fun i inside => same i (by omega)) _

/-- Any order of the elements below the index can be drawn. -/
theorem exists_shuffleFrom {n : Nat} {array : Array α} (inside : n ≤ array.size) {order : List α}
    (perm : order.Perm (array.toList.take n)) :
    ∃ ω, (shuffleFrom ω n array).toList = order ++ array.toList.drop n := by
  induction n generalizing array order with
  | zero =>
      obtain rfl : order = [] := List.perm_nil.mp perm
      exact ⟨id, rfl⟩
  | succ n inductionHypothesis =>
      have taken : (array.toList.take (n + 1)).length = n + 1 := by
        rw [List.length_take, @Array.length_toList _ array, Nat.min_eq_left inside]
      have some : order ≠ [] := by
        rintro rfl
        rw [← perm.length_eq] at taken
        cases taken
      obtain ⟨first, last, rfl⟩ := (List.eq_nil_or_concat' order).resolve_left some
      obtain ⟨i, small, found⟩ := List.getElem_of_mem (perm.mem_iff.mp (List.mem_concat_self : last ∈ first ++ [last]))
      rw [taken] at small
      rw [List.getElem_take, Array.getElem_toList] at found
      have swapping : array.swapIfInBounds n i = array.swap n i := by
        rw [Array.swapIfInBounds, dif_pos (by omega), dif_pos (by omega)]
      have swapped := swapIfInBounds_perm array n i
      rw [swapping] at swapped
      have size : (array.swap n i).size = array.size := Array.size_swap ..
      have behind : (array.swap n i).toList.drop (n + 1) = array.toList.drop (n + 1) := by
        refine List.ext_getElem? fun j => ?_
        rw [List.getElem?_drop, List.getElem?_drop, Array.getElem?_toList, Array.getElem?_toList,
          Array.getElem?_swap, if_neg (by omega), if_neg (by omega)]
      have here : (array.swap n i).toList.drop n = last :: array.toList.drop (n + 1) := by
        rw [← behind, List.drop_eq_getElem_cons (by simp; omega), Array.getElem_toList,
          Array.getElem_swap_left, found]
      have whole := List.take_append_drop n (array.swap n i).toList
      rw [here] at whole
      have rest : first.Perm ((array.swap n i).toList.take n) := by
        have together := List.take_append_drop (n + 1) array.toList
        rw [← whole, List.append_cons] at swapped
        have sameTaken := (List.perm_append_right_iff _).mp (swapped.trans (.of_eq together.symm))
        exact (List.perm_append_right_iff [last]).mp (perm.trans sameTaken.symm)
      obtain ⟨ω, drawn⟩ := inductionHypothesis (by omega) rest
      refine ⟨fun k => if k = n then i else ω k, ?_⟩
      rw [shuffleFrom, if_pos rfl, Nat.mod_eq_of_lt small, swapping,
        shuffleFrom_congr (fun j below => if_neg (by omega)), drawn, here, List.append_cons]

/-- Every order of the elements can come out. -/
theorem exists_shuffle {list order : List α} (perm : order.Perm list) : ∃ ω, shuffle ω list = order := by
  obtain ⟨ω, drawn⟩ := @exists_shuffleFrom _ list.length list.toArray (by simp) order (by simpa using perm)
  refine ⟨ω, drawn.trans ?_⟩
  simp

/-- When two of the elements look the same, an order begins with two that do. -/
theorem exists_order_of_not_nodup {f : α → β} {list : List α} (twice : ¬ (list.map f).Nodup) :
    ∃ a b rest, f a = f b ∧ (a :: b :: rest).Perm list := by
  induction list with
  | nil => exact absurd List.nodup_nil twice
  | cons a list inductionHypothesis =>
      by_cases here : f a ∈ list.map f
      · obtain ⟨b, member, same⟩ := List.mem_map.mp here
        obtain ⟨before, behind, rfl⟩ := List.append_of_mem member
        exact ⟨a, b, before ++ behind, same.symm, .cons a List.perm_middle.symm⟩
      · rw [List.map_cons, List.nodup_cons, not_and] at twice
        obtain ⟨b, c, rest, same, perm⟩ := inductionHypothesis (twice here)
        refine ⟨b, c, a :: rest, same, ?_⟩
        have front : (b :: c :: a :: rest).Perm (a :: b :: c :: rest) := @List.perm_middle _ a [b, c] rest
        exact front.trans (.cons a perm)

end HederaSdk.Js
