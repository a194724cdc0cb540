import Mathlib.Data.List.Basic

/-!
# Lines

A text of lines that are joined by an ending. What has no character of the ending lies inside a
line, and splitting at the last character of the ending leaves the others on the lines.
-/

namespace HederaSdk.Library.Lines

variable {α : Type*} {c : α} {pattern ending : List α}

theorem prefix_append_cons_iff (free : c ∉ pattern) (line rest : List α) :
    pattern <+: line ++ c :: rest ↔ pattern <+: line := by
  constructor
  · intro atFront
    rcases List.prefix_or_prefix_of_prefix atFront (List.prefix_append line (c :: rest)) with inside | beyond
    · exact inside
    · obtain ⟨more, rfl⟩ := beyond
      cases more with
      | nil => simp
      | cons d more =>
          have same := (List.prefix_append_right_inj line).mp atFront
          obtain ⟨rfl, -⟩ := List.cons_prefix_cons.mp same
          exact absurd (List.mem_append_right line List.mem_cons_self) free
  · exact fun inside => inside.trans (List.prefix_append _ _)

theorem infix_append_cons_iff (free : c ∉ pattern) (line rest : List α) :
    pattern <:+: line ++ c :: rest ↔ pattern <:+: line ∨ pattern <:+: rest := by
  induction line with
  | nil =>
      rw [List.nil_append, List.infix_cons_iff, List.infix_nil]
      have front := prefix_append_cons_iff free [] rest
      rw [List.nil_append, List.prefix_nil] at front
      rw [front]
  | cons d line inductionHypothesis =>
      have front := prefix_append_cons_iff free (d :: line) rest
      rw [List.cons_append] at front ⊢
      rw [List.infix_cons_iff, List.infix_cons_iff, inductionHypothesis, front, or_assoc]

theorem infix_append_iff (free : ∀ c ∈ ending, c ∉ pattern) (nonempty : pattern ≠ []) (rest : List α) :
    pattern <:+: ending ++ rest ↔ pattern <:+: rest := by
  induction ending with
  | nil => rfl
  | cons c ending inductionHypothesis =>
      have here := infix_append_cons_iff (free c List.mem_cons_self) [] (ending ++ rest)
      rw [List.nil_append, List.infix_nil] at here
      rw [List.cons_append, here, inductionHypothesis fun d member => free d (List.mem_cons_of_mem c member)]
      simp [nonempty]

/-- A pattern is found in the text exactly when it is in one of its lines. -/
theorem infix_intercalate_iff (free : ∀ c ∈ ending, c ∉ pattern) (ended : ending ≠ []) (nonempty : pattern ≠ [])
    (lines : List (List α)) : pattern <:+: ending.intercalate lines ↔ ∃ line ∈ lines, pattern <:+: line := by
  induction lines with
  | nil => simp [nonempty]
  | cons line rest inductionHypothesis =>
      cases rest with
      | nil => simp
      | cons next rest =>
          obtain ⟨c, ending, rfl⟩ := List.exists_cons_of_ne_nil ended
          have inside := infix_append_cons_iff (free c List.mem_cons_self) line
            (ending ++ (c :: ending).intercalate (next :: rest))
          rw [infix_append_iff (fun d member => free d (List.mem_cons_of_mem c member)) nonempty,
            inductionHypothesis] at inside
          rw [List.intercalate_cons_cons, List.append_assoc, List.cons_append, inside]
          simp only [List.exists_mem_cons_iff]

/-- Every line but the last one gets the ending. -/
def endLines (ending : List α) : List (List α) → List (List α)
  | [] => []
  | [line] => [line]
  | line :: rest => (line ++ ending) :: endLines ending rest

theorem endLines_eq (ending : List α) (lines : List (List α)) (last : List α) :
    endLines ending (lines ++ [last]) = lines.map (· ++ ending) ++ [last] := by
  induction lines with
  | nil => rfl
  | cons line rest inductionHypothesis =>
      rw [List.cons_append, List.map_cons, List.cons_append, ← inductionHypothesis]
      cases rest <;> rfl

theorem intercalate_endLines (c : α) (ending : List α) (lines : List (List α)) :
    [c].intercalate (endLines ending lines) = (ending ++ [c]).intercalate lines := by
  induction lines with
  | nil => rfl
  | cons line rest inductionHypothesis =>
      cases rest with
      | nil => rfl
      | cons next rest =>
          have more : endLines ending (next :: rest) ≠ [] := by cases rest <;> exact List.cons_ne_nil _ _
          have first : endLines ending (line :: next :: rest) = (line ++ ending) :: endLines ending (next :: rest) := rfl
          rw [List.intercalate_cons_cons, ← inductionHypothesis, first, List.intercalate_cons_of_ne_nil more,
            List.append_assoc line]

/-- Splitting at the last character of the ending gives the lines with the rest of it. -/
theorem splitOn_intercalate [BEq α] [LawfulBEq α] {lines : List (List α)} (nonempty : lines ≠ [])
    (free : ∀ line ∈ lines, c ∉ line) (other : c ∉ ending) :
    ((ending ++ [c]).intercalate lines).splitOn c = endLines ending lines := by
  have without : ∀ line ∈ endLines ending lines, c ∉ line := by
    rw [← List.dropLast_append_getLast nonempty, endLines_eq]
    intro line member
    rcases List.mem_append.mp member with before | last
    · obtain ⟨old, among, rfl⟩ := List.mem_map.mp before
      rw [List.mem_append, not_or]
      exact ⟨free old (List.dropLast_subset lines among), other⟩
    · rw [List.mem_singleton.mp last]
      exact free _ (List.getLast_mem nonempty)
  rw [← intercalate_endLines]
  apply List.splitOn_intercalate c without
  rw [← List.dropLast_append_getLast nonempty, endLines_eq]
  exact List.append_ne_nil_of_right_ne_nil _ (List.cons_ne_nil _ _)

end HederaSdk.Library.Lines
