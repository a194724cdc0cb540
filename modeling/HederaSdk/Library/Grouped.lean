import HederaSdk.Library.OrderedMap

/-!
# Groups under the text of a key

A map from keys to lists that compares its keys by a text and keeps the first key
of each text. Values that come group by group, with a text of its own for each group,
are kept group by group.
-/

namespace HederaSdk.Library.OrderedMap

universe u v w

variable {κ : Type u} {α : Type v} {τ : Type w} [DecidableEq τ]

/-- The values, each with the key of its group. -/
def ungroup (groups : List (κ × List α)) : List (κ × α) :=
  groups.flatMap fun group => group.2.map fun a => (group.1, a)

variable (text : κ → τ)

/-- Add a value to the group of a key, or a group with the value. -/
def file (m : OrderedMap τ (κ × List α)) (key : κ) (a : α) : OrderedMap τ (κ × List α) :=
  match m.get? (text key) with
  | none => m.set (text key) (key, [a])
  | some (first, filed) => m.set (text key) (first, filed ++ [a])

def fileAll (m : OrderedMap τ (κ × List α)) (pairs : List (κ × α)) : OrderedMap τ (κ × List α) :=
  pairs.foldl (fun m pair => m.file text pair.1 pair.2) m

variable {text}

@[simp] theorem fileAll_nil (m : OrderedMap τ (κ × List α)) : m.fileAll text [] = m := rfl

theorem fileAll_append (m : OrderedMap τ (κ × List α)) (first second : List (κ × α)) :
    m.fileAll text (first ++ second) = (m.fileAll text first).fileAll text second :=
  List.foldl_append

theorem entries_set_new {β : Type v} {m : OrderedMap τ β} {k : τ} (new : k ∉ m.keys) (b : β) :
    (m.set k b).entries = m.entries ++ [(k, b)] := by
  simp only [set, if_neg new]

theorem entries_set_last {β : Type v} {m : OrderedMap τ β} {before : List (τ × β)} {k : τ} {b : β}
    (last : m.entries = before ++ [(k, b)]) (b' : β) :
    (m.set k b').entries = before ++ [(k, b')] := by
  have nodup := m.nodup
  rw [last, List.map_append, List.nodup_append] at nodup
  have present : k ∈ m.keys := by
    rw [keys, last]
    simp
  have kept : replace before k b' = before := by
    rw [replace]
    conv_rhs => rw [← List.map_id before]
    apply List.map_congr_left
    intro entry member
    have other : entry.1 ≠ k := nodup.2.2 entry.1 (List.mem_map_of_mem member) k (by simp)
    rw [if_neg other, id]
  simp only [set, if_pos present, last]
  rw [replace, List.map_append, ← replace, kept]
  simp

theorem entries_file_last {m : OrderedMap τ (κ × List α)} {before : List (τ × κ × List α)} {key : κ}
    {filed : List α} (last : m.entries = before ++ [(text key, key, filed)]) (a : α) :
    (m.file text key a).entries = before ++ [(text key, key, filed ++ [a])] := by
  have found : m.get? (text key) = some (key, filed) := by
    rw [← mem_entries_iff, last]
    simp
  rw [file, found]
  exact entries_set_last last _

theorem entries_fileAll_last {m : OrderedMap τ (κ × List α)} {before : List (τ × κ × List α)}
    {key : κ} {filed : List α} (last : m.entries = before ++ [(text key, key, filed)])
    (items : List α) :
    (m.fileAll text (items.map fun a => (key, a))).entries =
      before ++ [(text key, key, filed ++ items)] := by
  induction items generalizing m filed with
  | nil => simpa [fileAll] using last
  | cons a rest inductionHypothesis =>
      rw [List.map_cons, fileAll, List.foldl_cons, ← fileAll,
        inductionHypothesis (entries_file_last last a), List.append_assoc, List.singleton_append]

/-- A group with a new text comes last. -/
theorem entries_fileAll_new {m : OrderedMap τ (κ × List α)} {key : κ} (new : text key ∉ m.keys)
    {items : List α} (filled : items ≠ []) :
    (m.fileAll text (items.map fun a => (key, a))).entries = m.entries ++ [(text key, key, items)] := by
  cases items with
  | nil => exact absurd rfl filled
  | cons a rest =>
      have started : (m.file text key a).entries = m.entries ++ [(text key, key, [a])] := by
        rw [file, get?_eq_none.mpr new]
        exact entries_set_new new _
      rw [List.map_cons, fileAll, List.foldl_cons, ← fileAll, entries_fileAll_last started,
        List.singleton_append]

/-- Groups with different texts are kept as they come, but for empty ones. -/
theorem entries_fileAll_ungroup {m : OrderedMap τ (κ × List α)} {groups : List (κ × List α)}
    (different : (m.keys ++ groups.map fun group => text group.1).Nodup) :
    (m.fileAll text (ungroup groups)).entries =
      m.entries ++ (groups.filter fun group => !group.2.isEmpty).map fun group =>
        (text group.1, group) := by
  induction groups generalizing m with
  | nil => simp [ungroup, fileAll]
  | cons group rest inductionHypothesis =>
      rw [ungroup, List.flatMap_cons, ← ungroup, fileAll_append]
      by_cases bare : group.2 = []
      · have fewer : (m.keys ++ rest.map fun group => text group.1).Nodup :=
          different.sublist (List.Sublist.append_left (List.sublist_cons_self _ _) _)
        rw [bare, List.map_nil, fileAll_nil, inductionHypothesis fewer]
        simp [bare]
      · have new : text group.1 ∉ m.keys := by
          intro present
          exact (List.nodup_append.mp different).2.2 _ present _ (by simp) rfl
        have added := entries_fileAll_new new bare
        have rekeyed : (m.fileAll text (group.2.map fun a => (group.1, a))).keys =
            m.keys ++ [text group.1] := by
          rw [keys, added, List.map_append]
          rfl
        rw [inductionHypothesis (by simpa [rekeyed] using different), added]
        simp [bare]

theorem values_fileAll_ungroup {groups : List (κ × List α)}
    (different : (groups.map fun group => text group.1).Nodup) :
    ((empty : OrderedMap τ (κ × List α)).fileAll text (ungroup groups)).values =
      groups.filter fun group => !group.2.isEmpty := by
  rw [values, entries_fileAll_ungroup (by simpa [keys, empty] using different)]
  simp [empty, Function.comp_def]

end HederaSdk.Library.OrderedMap
