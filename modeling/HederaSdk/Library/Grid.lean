import Mathlib.Data.List.Nodup

/-!
# Grids in a flat list

A grid is kept as the list of its cells, row by row. Taking each text only the
first time it is seen gives the rows back from a list with one entry for each
cell, and the columns as well.
-/

namespace HederaSdk.Library

universe u v w

variable {α : Type u} {β : Type v} {γ : Type w}

/-- The cells of a grid, row by row. -/
def grid (cell : α → β → γ) (rows : List α) (columns : List β) : List γ :=
  rows.flatMap fun a => columns.map (cell a)

namespace Grid

@[simp] theorem grid_nil (cell : α → β → γ) (columns : List β) : grid cell [] columns = [] := rfl

@[simp] theorem grid_cons (cell : α → β → γ) (a : α) (rows : List α) (columns : List β) :
    grid cell (a :: rows) columns = columns.map (cell a) ++ grid cell rows columns := rfl

theorem length_grid (cell : α → β → γ) (rows : List α) (columns : List β) :
    (grid cell rows columns).length = rows.length * columns.length := by
  induction rows with
  | nil => simp
  | cons a rest inductionHypothesis =>
      rw [grid_cons, List.length_append, List.length_map, inductionHypothesis, List.length_cons,
        Nat.succ_mul, Nat.add_comm]

theorem mem_grid {cell : α → β → γ} {rows : List α} {columns : List β} {c : γ} :
    c ∈ grid cell rows columns ↔ ∃ a ∈ rows, ∃ b ∈ columns, cell a b = c := by
  simp [grid]

theorem map_grid {δ : Type*} (f : γ → δ) (cell : α → β → γ) (rows : List α) (columns : List β) :
    (grid cell rows columns).map f = grid (fun a b => f (cell a b)) rows columns := by
  simp [grid, List.map_flatMap, Function.comp_def]

theorem grid_map_rows {δ : Type*} (f : δ → α) (cell : α → β → γ) (rows : List δ) (columns : List β) :
    grid cell (rows.map f) columns = grid (fun d b => cell (f d) b) rows columns := by
  simp [grid, List.flatMap_map]

theorem grid_map_columns {δ : Type*} (f : δ → β) (cell : α → β → γ) (rows : List α) (columns : List δ) :
    grid cell rows (columns.map f) = grid (fun a d => cell a (f d)) rows columns := by
  simp [grid, Function.comp_def]

/-- What is read from the row of a cell fills the rows that have it. -/
theorem filterMap_grid_rows {δ : Type*} {read : γ → Option δ} {cell : α → β → γ} (of : α → Option δ)
    (same : ∀ a b, read (cell a b) = of a) (rows : List α) (columns : List β) :
    (grid cell rows columns).filterMap read = grid (fun d _ => d) (rows.filterMap of) columns := by
  induction rows with
  | nil => rfl
  | cons a rest inductionHypothesis =>
      have row : (columns.map (cell a)).filterMap read = columns.filterMap fun _ => of a := by
        rw [List.filterMap_map]
        exact List.filterMap_congr fun b _ => same a b
      rw [grid_cons, List.filterMap_append, row, inductionHypothesis, List.filterMap_cons]
      cases of a with
      | none => simp
      | some d => simp

/-- What is read from the column of a cell fills the columns that have it. -/
theorem filterMap_grid_columns {δ : Type*} {read : γ → Option δ} {cell : α → β → γ} (of : β → Option δ)
    (same : ∀ a b, read (cell a b) = of b) (rows : List α) (columns : List β) :
    (grid cell rows columns).filterMap read = grid (fun _ d => d) rows (columns.filterMap of) := by
  induction rows with
  | nil => rfl
  | cons a rest inductionHypothesis =>
      have row : (columns.map (cell a)).filterMap read = columns.filterMap of := by
        rw [List.filterMap_map]
        exact List.filterMap_congr fun b _ => same a b
      rw [grid_cons, List.filterMap_append, row, inductionHypothesis, grid_cons, List.map_id']

/-- The cell of a row and a column. -/
theorem grid_at (cell : α → β → γ) {rows : List α} {columns : List β} {i j : Nat} {a : α} {b : β}
    (inRow : rows[i]? = some a) (inColumn : columns[j]? = some b) :
    (grid cell rows columns)[i * columns.length + j]? = some (cell a b) := by
  have inside : j < columns.length := (List.getElem?_eq_some_iff.mp inColumn).1
  induction rows generalizing i with
  | nil => simp at inRow
  | cons first rest inductionHypothesis =>
      rw [grid_cons]
      cases i with
      | zero =>
          simp only [List.getElem?_cons_zero, Option.some.injEq] at inRow
          rw [inRow, Nat.zero_mul, Nat.zero_add, List.getElem?_append_left (by simpa using inside)]
          simp [inColumn]
      | succ i =>
          rw [List.getElem?_append_right (by rw [List.length_map, Nat.succ_mul]; omega),
            List.length_map, Nat.succ_mul, Nat.add_right_comm, Nat.add_sub_cancel]
          exact inductionHypothesis (by simpa using inRow)

/-- Every position within a grid is that of a row and a column. -/
theorem exists_cell {rows : List α} {columns : List β} {p : Nat}
    (inside : p < rows.length * columns.length) :
    ∃ a b, rows[p / columns.length]? = some a ∧ columns[p % columns.length]? = some b := by
  have wide : 0 < columns.length := by
    by_contra none
    simp [Nat.eq_zero_of_not_pos none] at inside
  have inRow : p / columns.length < rows.length :=
    Nat.div_lt_of_lt_mul (by rwa [Nat.mul_comm])
  exact ⟨_, _, List.getElem?_eq_getElem inRow, List.getElem?_eq_getElem (Nat.mod_lt p wide)⟩

end Grid

/-! ## First occurrences -/

section Distinct

variable {τ : Type w} [DecidableEq τ] (text : α → τ)

/-- Add an element unless one with the same text was seen. -/
def note (seen : List α) (a : α) : List α := if text a ∈ seen.map text then seen else seen ++ [a]

/-- The elements whose texts are seen for the first time. -/
def distinct (items : List α) : List α := items.foldl (note text) []

variable {text}

theorem foldl_note_seen {seen items : List α} (known : ∀ a ∈ items, text a ∈ seen.map text) :
    items.foldl (note text) seen = seen := by
  induction items with
  | nil => rfl
  | cons a rest inductionHypothesis =>
      rw [List.foldl_cons, note, if_pos (known a List.mem_cons_self)]
      exact inductionHypothesis fun b inRest => known b (List.mem_cons_of_mem _ inRest)

theorem foldl_note_new {seen items : List α} (different : ((seen ++ items).map text).Nodup) :
    items.foldl (note text) seen = seen ++ items := by
  induction items generalizing seen with
  | nil => simp
  | cons a rest inductionHypothesis =>
      have fresh : text a ∉ seen.map text := by
        rw [List.map_append, List.map_cons] at different
        exact fun member => (List.nodup_append.mp different).2.2 _ member _ List.mem_cons_self rfl
      rw [List.append_cons] at different
      rw [List.foldl_cons, note, if_neg fresh, inductionHypothesis different, List.append_assoc,
        List.singleton_append]

theorem length_foldl_note_le (seen items : List α) :
    (items.foldl (note text) seen).length ≤ seen.length + items.length := by
  induction items generalizing seen with
  | nil => simp
  | cons a rest inductionHypothesis =>
      have one : (note text seen a).length ≤ seen.length + 1 := by
        unfold note
        split <;> simp
      have more := inductionHypothesis (note text seen a)
      rw [List.foldl_cons, List.length_cons]
      omega

theorem length_distinct_le (items : List α) : (distinct text items).length ≤ items.length := by
  simpa [distinct] using length_foldl_note_le [] items

theorem distinct_of_nodup {items : List α} (different : (items.map text).Nodup) :
    distinct text items = items := @foldl_note_new _ _ _ _ [] items different

theorem mem_of_mem_foldl_note {seen items : List α} {a : α} (member : a ∈ items.foldl (note text) seen) :
    a ∈ seen ∨ a ∈ items := by
  induction items generalizing seen with
  | nil => exact .inl member
  | cons b rest inductionHypothesis =>
      rcases inductionHypothesis member with inNote | inRest
      · unfold note at inNote
        split at inNote
        · exact .inl inNote
        · rcases List.mem_append.mp inNote with inSeen | here
          · exact .inl inSeen
          · exact .inr (List.mem_cons.mpr (.inl (List.mem_singleton.mp here)))
      · exact .inr (List.mem_cons_of_mem b inRest)

theorem mem_of_mem_distinct {items : List α} {a : α} (member : a ∈ distinct text items) : a ∈ items :=
  (mem_of_mem_foldl_note member).resolve_left List.not_mem_nil

/-- What was seen stays in front. -/
theorem prefix_foldl_note (seen items : List α) : seen <+: items.foldl (note text) seen := by
  induction items generalizing seen with
  | nil => exact List.prefix_rfl
  | cons a rest inductionHypothesis =>
      refine List.IsPrefix.trans ?_ (inductionHypothesis (note text seen a))
      unfold note
      split
      · exact List.prefix_rfl
      · exact List.prefix_append seen [a]

/-- Two first entries that differ stay the first two. -/
theorem distinct_cons_cons {a b : α} (apart : text a ≠ text b) (rest : List α) :
    ∃ more, distinct text (a :: b :: rest) = a :: b :: more := by
  have first : note text (note text [] a) b = [a, b] := by simp [note, apart.symm]
  obtain ⟨more, behind⟩ : [a, b] <+: rest.foldl (note text) [a, b] := prefix_foldl_note _ _
  refine ⟨more, ?_⟩
  rw [distinct, List.foldl_cons, List.foldl_cons, first, ← behind]
  rfl

theorem distinct_of_same {a : α} {rest : List α} (same : ∀ b ∈ rest, text b = text a) :
    distinct text (a :: rest) = [a] := by
  have seen : rest.foldl (note text) [a] = [a] :=
    foldl_note_seen fun b inRest => by simp [same b inRest]
  rw [distinct, List.foldl_cons]
  simpa [note] using seen

theorem mem_note (seen : List α) (a : α) : text a ∈ (note text seen a).map text := by
  unfold note
  split
  · assumption
  · simp

/-- Equal entries along a row count as one. -/
theorem foldl_note_row (seen : List α) (a : α) {columns : List β} (nonempty : columns ≠ []) :
    (columns.map fun _ => a).foldl (note text) seen = note text seen a := by
  obtain ⟨b, rest, rfl⟩ := List.exists_cons_of_ne_nil nonempty
  rw [List.map_cons, List.foldl_cons]
  refine foldl_note_seen fun a' member => ?_
  obtain ⟨_, _, rfl⟩ := List.mem_map.mp member
  exact mem_note seen a

theorem foldl_note_grid (seen rows : List α) {columns : List β} (nonempty : columns ≠ []) :
    (grid (fun a _ => a) rows columns).foldl (note text) seen = rows.foldl (note text) seen := by
  induction rows generalizing seen with
  | nil => rfl
  | cons a rest inductionHypothesis =>
      rw [Grid.grid_cons, List.foldl_append, foldl_note_row seen a nonempty, inductionHypothesis,
        List.foldl_cons]

/-- The different rows of a grid are the different entries of its cells. -/
theorem distinct_rows (rows : List α) {columns : List β} (nonempty : columns ≠ []) :
    distinct text (grid (fun a _ => a) rows columns) = distinct text rows :=
  foldl_note_grid [] rows nonempty

/-- The columns of a grid are the different entries of its cells. -/
theorem distinct_columns {rows : List β} {columns : List α} (different : (columns.map text).Nodup)
    (nonempty : rows ≠ []) : distinct text (grid (fun _ b => b) rows columns) = columns := by
  obtain ⟨a, rest, rfl⟩ := List.exists_cons_of_ne_nil nonempty
  have first : columns.foldl (note text) [] = columns := distinct_of_nodup different
  rw [distinct, Grid.grid_cons, List.map_id', List.foldl_append, first]
  refine foldl_note_seen fun b member => ?_
  obtain ⟨_, _, _, inColumns, rfl⟩ := Grid.mem_grid.mp member
  exact List.mem_map_of_mem inColumns

end Distinct

end HederaSdk.Library
