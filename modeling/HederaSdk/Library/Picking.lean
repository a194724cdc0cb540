import Mathlib.Data.Finset.Card
import Mathlib.Data.List.Nodup

/-!
# Picking one of each class

The elements of a pool fall into classes by a key. Whenever one is picked, its whole
class leaves the pool, so the keys of the picked elements are different and each pick
costs one key of the pool, whatever the sizes of the classes.
-/

namespace HederaSdk.Library

universe u v

variable {α : Type u} {κ : Type v} [DecidableEq κ] (key : α → κ)

/-- What stays of a pool when an element of it is picked. -/
def leave (a : α) (pool : List α) : List α := pool.filter fun b => key b ≠ key a

/-- The different keys of a pool. -/
def keysOf (pool : List α) : Finset κ := (pool.map key).toFinset

/-- `Picks pool picked left`: the elements were picked in order, and this is left. -/
inductive Picks : List α → List α → List α → Prop where
  | none (pool : List α) : Picks pool [] pool
  | pick {pool picked left : List α} {a : α} (member : a ∈ pool)
      (others : Picks (leave key a pool) picked left) : Picks pool (a :: picked) left

variable {key}

theorem mem_leave {a b : α} {pool : List α} : b ∈ leave key a pool ↔ b ∈ pool ∧ key b ≠ key a := by
  simp [leave]

theorem mem_keysOf {pool : List α} {k : κ} : k ∈ keysOf key pool ↔ ∃ a ∈ pool, key a = k := by
  simp [keysOf]

theorem keysOf_leave (a : α) (pool : List α) :
    keysOf key (leave key a pool) = (keysOf key pool).erase (key a) := by
  apply Finset.ext
  intro k
  rw [mem_keysOf, Finset.mem_erase, mem_keysOf]
  constructor
  · rintro ⟨b, kept, rfl⟩
    obtain ⟨member, other⟩ := mem_leave.mp kept
    exact ⟨other, b, member, rfl⟩
  · rintro ⟨other, b, member, rfl⟩
    exact ⟨b, mem_leave.mpr ⟨member, other⟩, rfl⟩

variable (key) in
theorem card_keysOf_leave {a : α} {pool : List α} (member : a ∈ pool) :
    (keysOf key (leave key a pool)).card + 1 = (keysOf key pool).card := by
  rw [keysOf_leave]
  apply Finset.card_erase_add_one
  exact mem_keysOf.mpr ⟨a, member, rfl⟩

variable (key) in
theorem card_keysOf_le (pool : List α) : (keysOf key pool).card ≤ pool.length := by
  have atMost := List.toFinset_card_le (pool.map key)
  rwa [List.length_map] at atMost

namespace Picks

variable {pool picked left : List α}

theorem subset (picks : Picks key pool picked left) : ∀ a ∈ picked, a ∈ pool := by
  induction picks with
  | none pool => simp
  | pick member others inductionHypothesis =>
      intro b inPicked
      rcases List.mem_cons.mp inPicked with rfl | later
      · exact member
      · exact (mem_leave.mp (inductionHypothesis b later)).1

theorem nodup (picks : Picks key pool picked left) : (picked.map key).Nodup := by
  induction picks with
  | none pool => exact List.nodup_nil
  | pick member others inductionHypothesis =>
      apply List.nodup_cons.mpr
      constructor
      · intro again
        obtain ⟨b, inPicked, same⟩ := List.mem_map.mp again
        exact (mem_leave.mp (others.subset b inPicked)).2 same
      · exact inductionHypothesis

/-- Every pick costs one key. -/
theorem length_add_card (picks : Picks key pool picked left) :
    picked.length + (keysOf key left).card = (keysOf key pool).card := by
  induction picks with
  | none pool => simp
  | pick member others inductionHypothesis =>
      have costs := card_keysOf_leave key member
      rw [List.length_cons]
      omega

/-- Picking goes on until there are as many as wanted or the pool is empty. -/
theorem length_eq (picks : Picks key pool picked left) {count : Nat}
    (stops : picked.length = count ∨ picked.length ≤ count ∧ left = []) :
    picked.length = min count (keysOf key pool).card := by
  have costs := picks.length_add_card
  rcases stops with reached | ⟨atMost, rfl⟩
  · omega
  · have none : (keysOf key ([] : List α)).card = 0 := by simp [keysOf]
    omega

end Picks

end HederaSdk.Library
