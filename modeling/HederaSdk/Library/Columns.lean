import Mathlib.Data.List.Basic

/-!
# Two columns kept in step

A list of pairs may be held as two lists, one for each side, that only their
positions link. Pushing to both ends keeps them in step. Dropping entries by
their left side from one column and the last element from the other does so in
one case alone: a single entry goes, and behind it the right column repeats it.
-/

namespace HederaSdk.Library

universe u v

variable {α : Type u} {β : Type v}

/-- The columns hold the two sides of the entries, position by position. -/
structure Columns (entries : List (α × β)) (left : List α) (right : List β) : Prop where
  left_eq : left = entries.map Prod.fst
  right_eq : right = entries.map Prod.snd

/-- A single entry is not kept, and those behind it have its right side. -/
def EndsAlike (keep : α → Bool) (entries : List (α × β)) : Prop :=
  entries = [] ∨ ∃ front own back, entries = front ++ own :: back ∧ keep own.1 = false ∧
    (∀ entry ∈ front ++ back, keep entry.1 = true) ∧ ∀ entry ∈ back, entry.2 = own.2

namespace Columns

variable {entries : List (α × β)} {left : List α} {right : List β}

theorem nil : Columns ([] : List (α × β)) [] [] := ⟨rfl, rfl⟩

theorem length_eq (columns : Columns entries left right) : left.length = right.length := by
  rw [columns.left_eq, columns.right_eq, List.length_map, List.length_map]

theorem zip_eq (columns : Columns entries left right) : left.zip right = entries := by
  rw [columns.left_eq, columns.right_eq, ← List.unzip_fst, ← List.unzip_snd, List.zip_unzip]

theorem concat (columns : Columns entries left right) (a : α) (b : β) :
    Columns (entries ++ [(a, b)]) (left ++ [a]) (right ++ [b]) where
  left_eq := by simp [columns.left_eq]
  right_eq := by simp [columns.right_eq]

/-- A list is what is left of it behind another element only if it repeats that one. -/
theorem eq_dropLast_cons_iff {b : β} {list : List β} :
    list = (b :: list).dropLast ↔ ∀ other ∈ list, other = b := by
  induction list generalizing b with
  | nil => simp
  | cons head rest inductionHypothesis =>
      rw [List.dropLast_cons_cons, List.cons_eq_cons, List.forall_mem_cons]
      constructor
      · rintro ⟨rfl, same⟩
        exact ⟨rfl, inductionHypothesis.mp same⟩
      · rintro ⟨rfl, all⟩
        exact ⟨rfl, inductionHypothesis.mpr all⟩

theorem endsAlike_cons_of_kept {keep : α → Bool} {entry : α × β} {rest : List (α × β)}
    (kept : keep entry.1 = true) :
    EndsAlike keep (entry :: rest) ↔ rest ≠ [] ∧ EndsAlike keep rest := by
  constructor
  · rintro (none | ⟨_ | ⟨first, front⟩, own, back, same, dropped, others, alike⟩)
    · cases none
    · obtain ⟨rfl, -⟩ := List.cons_eq_cons.mp same
      rw [kept] at dropped
      cases dropped
    · obtain ⟨rfl, later⟩ := List.cons_eq_cons.mp same
      exact ⟨by simp [later], .inr ⟨front, own, back, later, dropped,
        fun other within => others other (List.mem_cons_of_mem _ within), alike⟩⟩
  · rintro ⟨some, none | ⟨front, own, back, same, dropped, others, alike⟩⟩
    · exact absurd none some
    · refine .inr ⟨entry :: front, own, back, by rw [same, List.cons_append], dropped, ?_, alike⟩
      intro other within
      rcases List.mem_cons.mp within with rfl | within
      · exact kept
      · exact others other within

theorem endsAlike_cons_of_dropped {keep : α → Bool} {entry : α × β} {rest : List (α × β)}
    (dropped : keep entry.1 = false) :
    EndsAlike keep (entry :: rest) ↔
      (∀ other ∈ rest, keep other.1 = true) ∧ ∀ other ∈ rest, other.2 = entry.2 := by
  constructor
  · rintro (none | ⟨_ | ⟨first, front⟩, own, back, same, _, others, alike⟩)
    · cases none
    · obtain ⟨rfl, rfl⟩ := List.cons_eq_cons.mp same
      exact ⟨others, alike⟩
    · obtain ⟨rfl, -⟩ := List.cons_eq_cons.mp same
      have kept := others entry List.mem_cons_self
      rw [dropped] at kept
      cases kept
  · rintro ⟨others, alike⟩
    exact .inr ⟨[], entry, rest, rfl, dropped, others, alike⟩

/-- The right sides of the kept entries are the right column without its last element. -/
theorem map_filter_eq_dropLast_iff (keep : α → Bool) (entries : List (α × β)) :
    (entries.map Prod.snd).dropLast = (entries.filter fun entry => keep entry.1).map Prod.snd ↔
      EndsAlike keep entries := by
  induction entries with
  | nil => simp [EndsAlike]
  | cons entry rest inductionHypothesis =>
      cases kept : keep entry.1 with
      | true =>
          rw [List.filter_cons_of_pos (by exact kept)]
          rw [endsAlike_cons_of_kept kept, ← inductionHypothesis]
          cases rest with
          | nil => simp
          | cons next rest =>
              simp only [List.map_cons, List.dropLast_cons_cons, List.cons_eq_cons, true_and,
                ne_eq, reduceCtorEq, not_false_eq_true]
      | false =>
          rw [List.filter_cons_of_neg (by simp [kept]), endsAlike_cons_of_dropped kept]
          constructor
          · intro same
            have count := congrArg List.length same
            simp only [List.length_dropLast, List.length_map, List.length_cons,
              Nat.add_sub_cancel] at count
            have all := List.length_filter_eq_length_iff.mp count.symm
            rw [List.filter_eq_self.mpr all, eq_comm, List.map_cons, eq_dropLast_cons_iff] at same
            exact ⟨all, fun other within => same _ (List.mem_map_of_mem within)⟩
          · rintro ⟨all, alike⟩
            rw [List.filter_eq_self.mpr all, eq_comm, List.map_cons, eq_dropLast_cons_iff]
            intro right within
            obtain ⟨other, inRest, rfl⟩ := List.mem_map.mp within
            exact alike other inRest

/-- Columns from which a key and the last element are dropped are those of the kept
entries only when the entries end alike. -/
theorem filter_dropLast_iff (columns : Columns entries left right) (keep : α → Bool) :
    Columns (entries.filter fun entry => keep entry.1) (left.filter keep) right.dropLast ↔
      EndsAlike keep entries := by
  rw [← map_filter_eq_dropLast_iff, ← columns.right_eq]
  constructor
  · exact fun dropped => dropped.right_eq
  · exact fun same => ⟨by rw [columns.left_eq, List.filter_map]; rfl, same⟩

end Columns

end HederaSdk.Library
