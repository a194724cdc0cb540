import Mathlib.Data.List.Nodup
import Mathlib.Data.List.Perm.Basic

/-!
# Maps that remember insertion order

A finite map whose keys are listed in the order in which they were first set,
as iteration over a script-language map sees them. Setting a key again keeps
its place; deleting it and setting it moves it to the end.

`push` uses such a map as an index: it files a value in the bucket of a key.
-/

namespace HederaSdk.Library

universe u v

structure OrderedMap (κ : Type u) (β : Type v) where
  entries : List (κ × β)
  nodup : (entries.map Prod.fst).Nodup

namespace OrderedMap

variable {κ : Type u} {β : Type v} [DecidableEq κ]

section Entries

/-- The value of the first entry with the key. -/
def find (entries : List (κ × β)) (k : κ) : Option β :=
  (entries.find? fun e => decide (e.1 = k)).map Prod.snd

def replace (entries : List (κ × β)) (k : κ) (v : β) : List (κ × β) :=
  entries.map fun e => if e.1 = k then (k, v) else e

@[simp] theorem find_nil (k : κ) : find ([] : List (κ × β)) k = none := rfl

@[simp] theorem find_cons (e : κ × β) (rest : List (κ × β)) (k : κ) :
    find (e :: rest) k = if e.1 = k then some e.2 else find rest k := by
  by_cases same : e.1 = k <;> simp [find, same]

theorem find_append (first second : List (κ × β)) (k : κ) :
    find (first ++ second) k = (find first k).or (find second k) := by
  induction first with
  | nil => simp
  | cons e rest inductionHypothesis => by_cases same : e.1 = k <;> simp [same, inductionHypothesis]

theorem find_eq_none {entries : List (κ × β)} {k : κ} :
    find entries k = none ↔ k ∉ entries.map Prod.fst := by
  induction entries with
  | nil => simp
  | cons e rest inductionHypothesis =>
      by_cases same : e.1 = k
      · simp [same]
      · simp only [find_cons, same, if_false, inductionHypothesis, List.map_cons, List.mem_cons,
          not_or]
        exact ⟨fun absent => ⟨fun h => same h.symm, absent⟩, fun h => h.2⟩

theorem find_replace (entries : List (κ × β)) (k k' : κ) (v : β) :
    find (replace entries k v) k' =
      if k = k' then (find entries k').map fun _ => v else find entries k' := by
  induction entries with
  | nil => simp [replace]
  | cons e rest inductionHypothesis =>
      simp only [replace, List.map_cons] at inductionHypothesis ⊢
      by_cases found : e.1 = k
      · by_cases same : k = k' <;> simp [found, same, inductionHypothesis]
      · by_cases same : k = k'
        · subst same
          simp [found, inductionHypothesis]
        · simp only [found, if_false, find_cons, inductionHypothesis, same]

theorem find_filter_ne (entries : List (κ × β)) (k k' : κ) :
    find (entries.filter fun e => decide (e.1 ≠ k)) k' = if k = k' then none else find entries k' := by
  induction entries with
  | nil => simp
  | cons e rest inductionHypothesis =>
      by_cases found : e.1 = k
      · by_cases same : k = k' <;> simp_all
      · by_cases same : k = k'
        · subst same
          simp_all
        · by_cases other : e.1 = k' <;> simp_all

theorem mem_of_find {entries : List (κ × β)} {k : κ} {v : β} (found : find entries k = some v) :
    (k, v) ∈ entries := by
  induction entries with
  | nil => simp at found
  | cons e rest inductionHypothesis =>
      by_cases same : e.1 = k
      · simp only [find_cons, same, if_true, Option.some.injEq] at found
        subst same found
        exact List.mem_cons_self
      · simp only [find_cons, same, if_false] at found
        exact List.mem_cons_of_mem _ (inductionHypothesis found)

theorem find_of_mem {entries : List (κ × β)} {k : κ} {v : β}
    (nodup : (entries.map Prod.fst).Nodup) (member : (k, v) ∈ entries) :
    find entries k = some v := by
  induction entries with
  | nil => simp at member
  | cons e rest inductionHypothesis =>
      simp only [List.map_cons, List.nodup_cons] at nodup
      rcases List.mem_cons.mp member with rfl | inRest
      · simp
      · have other : e.1 ≠ k := fun same =>
          nodup.1 (same ▸ List.mem_map.mpr ⟨(k, v), inRest, rfl⟩)
        simp [other, inductionHypothesis nodup.2 inRest]

end Entries

def empty : OrderedMap κ β := ⟨[], List.nodup_nil⟩

def get? (m : OrderedMap κ β) (k : κ) : Option β := find m.entries k

def keys (m : OrderedMap κ β) : List κ := m.entries.map Prod.fst

def values (m : OrderedMap κ β) : List β := m.entries.map Prod.snd

def has (m : OrderedMap κ β) (k : κ) : Bool := (m.get? k).isSome

theorem replace_keys (entries : List (κ × β)) (k : κ) (v : β) :
    (replace entries k v).map Prod.fst = entries.map Prod.fst := by
  rw [replace, List.map_map]
  apply List.map_congr_left
  intro e _
  by_cases same : e.1 = k <;> simp [same]

def set (m : OrderedMap κ β) (k : κ) (v : β) : OrderedMap κ β where
  entries := if k ∈ m.keys then replace m.entries k v else m.entries ++ [(k, v)]
  nodup := by
    by_cases present : k ∈ m.keys
    · simp only [if_pos present, replace_keys]
      exact m.nodup
    · simp only [if_neg present, List.map_append, List.map_cons, List.map_nil]
      exact m.nodup.append (List.nodup_singleton k) (List.disjoint_singleton.mpr present)

def delete (m : OrderedMap κ β) (k : κ) : OrderedMap κ β where
  entries := m.entries.filter fun e => decide (e.1 ≠ k)
  nodup := m.nodup.sublist (List.filter_sublist.map Prod.fst)

@[simp] theorem get?_empty (k : κ) : (empty : OrderedMap κ β).get? k = none := rfl

theorem get?_eq_none {m : OrderedMap κ β} {k : κ} : m.get? k = none ↔ k ∉ m.keys := find_eq_none

theorem mem_entries_iff {m : OrderedMap κ β} {k : κ} {v : β} :
    (k, v) ∈ m.entries ↔ m.get? k = some v := ⟨find_of_mem m.nodup, mem_of_find⟩

@[simp] theorem get?_set (m : OrderedMap κ β) (k k' : κ) (v : β) :
    (m.set k v).get? k' = if k = k' then some v else m.get? k' := by
  by_cases present : k ∈ m.keys
  · simp only [get?, set, if_pos present, find_replace]
    by_cases same : k = k'
    · subst same
      have found : find m.entries k ≠ none := fun h => find_eq_none.mp h present
      obtain ⟨w, hw⟩ := Option.ne_none_iff_exists'.mp found
      simp [hw]
    · simp [same]
  · simp only [get?, set, if_neg present, find_append, find_cons, find_nil]
    by_cases same : k = k'
    · subst same
      simp [find_eq_none.mpr present]
    · simp [same]

/-- Where each value is set from its item and what was there, a key has what its own items make of it. -/
theorem getD_foldl_set {α : Type*} (key : α → κ) (f : β → α → β) (start : β) (items : List α)
    (m : OrderedMap κ β) (k : κ) :
    ((items.foldl (fun m a => m.set (key a) (f ((m.get? (key a)).getD start) a)) m).get? k).getD start =
      (items.filter fun a => key a = k).foldl f ((m.get? k).getD start) := by
  induction items generalizing m with
  | nil => rfl
  | cons a rest inductionHypothesis =>
      rw [List.foldl_cons, inductionHypothesis, get?_set]
      by_cases same : key a = k
      · rw [if_pos same, List.filter_cons_of_pos (by simp [same]), List.foldl_cons, Option.getD_some, same]
      · rw [if_neg same, List.filter_cons_of_neg (by simp [same])]

@[simp] theorem get?_delete (m : OrderedMap κ β) (k k' : κ) :
    (m.delete k).get? k' = if k = k' then none else m.get? k' := find_filter_ne ..

theorem keys_ne_nil_of_get? {m : OrderedMap κ β} {k : κ} {v : β} (found : m.get? k = some v) :
    m.keys ≠ [] :=
  List.ne_nil_of_mem (List.mem_map.mpr ⟨(k, v), mem_entries_iff.mpr found, rfl⟩)

theorem exists_get?_of_mem_keys {m : OrderedMap κ β} {k : κ} (member : k ∈ m.keys) :
    ∃ v, m.get? k = some v := by
  obtain ⟨e, inEntries, rfl⟩ := List.mem_map.mp member
  exact ⟨e.2, mem_entries_iff.mp inEntries⟩

end OrderedMap

/-! ## Buckets -/

namespace OrderedMap

variable {κ : Type u} {α : Type v} [DecidableEq κ]

/-- The bucket of a key, empty when the key has none. -/
def bucket (m : OrderedMap κ (List α)) (k : κ) : List α := (m.get? k).getD []

/-- File a value at the end of the bucket of its key. -/
def push (m : OrderedMap κ (List α)) (k : κ) (a : α) : OrderedMap κ (List α) :=
  m.set k (m.bucket k ++ [a])

/-- File the values of a list, each under its own key. -/
def pushAll (key : α → κ) (m : OrderedMap κ (List α)) (items : List α) : OrderedMap κ (List α) :=
  items.foldl (fun m a => m.push (key a) a) m

@[simp] theorem bucket_empty (k : κ) : (empty : OrderedMap κ (List α)).bucket k = [] := rfl

theorem bucket_push (m : OrderedMap κ (List α)) (k k' : κ) (a : α) :
    (m.push k a).bucket k' = if k = k' then m.bucket k' ++ [a] else m.bucket k' := by
  by_cases same : k = k'
  · subst same
    simp [push, bucket]
  · simp [push, bucket, same]

theorem bucket_pushAll (key : α → κ) (m : OrderedMap κ (List α)) (items : List α) (k : κ) :
    (pushAll key m items).bucket k = m.bucket k ++ items.filter fun a => decide (key a = k) := by
  induction items generalizing m with
  | nil => simp [pushAll]
  | cons a rest inductionHypothesis =>
      have step := inductionHypothesis (m.push (key a) a)
      simp only [pushAll, List.foldl_cons] at step ⊢
      rw [step, bucket_push]
      by_cases same : key a = k <;> simp [same]

/-- No key is kept with an empty bucket. -/
def Tight (m : OrderedMap κ (List α)) : Prop := ∀ k, m.get? k ≠ some []

theorem tight_empty : (empty : OrderedMap κ (List α)).Tight := by
  intro k
  simp

theorem Tight.push {m : OrderedMap κ (List α)} (h : m.Tight) (k : κ) (a : α) :
    (m.push k a).Tight := by
  intro k'
  by_cases same : k = k'
  · simp [OrderedMap.push, same]
  · simpa [OrderedMap.push, same] using h k'

theorem Tight.pushAll {m : OrderedMap κ (List α)} (h : m.Tight) (key : α → κ) (items : List α) :
    (pushAll key m items).Tight := by
  induction items generalizing m with
  | nil => exact h
  | cons a rest inductionHypothesis => exact inductionHypothesis (h.push (key a) a)

/-- Take a value out of the bucket of a key; the key goes with its last value. -/
def pull [DecidableEq α] (m : OrderedMap κ (List α)) (k : κ) (a : α) : OrderedMap κ (List α) :=
  let rest := (m.bucket k).erase a
  if rest = [] then m.delete k else m.set k rest

theorem get?_pull [DecidableEq α] (m : OrderedMap κ (List α)) (k k' : κ) (a : α) :
    (m.pull k a).get? k' =
      if k = k' then
        if (m.bucket k).erase a = [] then none else some ((m.bucket k).erase a)
      else m.get? k' := by
  by_cases last : (m.bucket k).erase a = []
  · simp only [pull, last, if_true, get?_delete]
  · simp only [pull, last, if_false, get?_set]

theorem bucket_pull [DecidableEq α] (m : OrderedMap κ (List α)) (k k' : κ) (a : α) :
    (m.pull k a).bucket k' = if k = k' then (m.bucket k').erase a else m.bucket k' := by
  rw [bucket, get?_pull]
  by_cases same : k = k'
  · subst same
    by_cases last : (m.bucket k).erase a = []
    · simp only [last, if_true, Option.getD_none]
    · simp only [last, if_true, if_false, Option.getD_some]
  · simp only [same, if_false, bucket]

theorem Tight.pull [DecidableEq α] {m : OrderedMap κ (List α)} (h : m.Tight) (k : κ) (a : α) :
    (m.pull k a).Tight := by
  intro k'
  rw [get?_pull]
  by_cases same : k = k'
  · rw [if_pos same]
    split
    · simp
    · rename_i more
      exact fun empty => more (Option.some.inj empty)
  · simpa only [same, if_false] using h k'

theorem get?_of_mem_bucket {m : OrderedMap κ (List α)} {k : κ} {a : α} (member : a ∈ m.bucket k) :
    m.get? k = some (m.bucket k) := by
  cases found : m.get? k with
  | none => simp [bucket, found] at member
  | some bucket => simp [OrderedMap.bucket, found]

/-- A value is in some bucket exactly when it is in the bucket of some key. -/
theorem mem_values_flatten {m : OrderedMap κ (List α)} {a : α} :
    a ∈ m.values.flatten ↔ ∃ k, a ∈ m.bucket k := by
  constructor
  · intro member
    obtain ⟨bucket, inValues, inBucket⟩ := List.mem_flatten.mp member
    obtain ⟨⟨k, _⟩, inEntries, rfl⟩ := List.mem_map.mp inValues
    exact ⟨k, by simpa [OrderedMap.bucket, mem_entries_iff.mp inEntries] using inBucket⟩
  · rintro ⟨k, member⟩
    refine List.mem_flatten.mpr ⟨m.bucket k, List.mem_map.mpr ⟨(k, m.bucket k), ?_, rfl⟩, member⟩
    exact mem_entries_iff.mpr (get?_of_mem_bucket member)

/-- When a value is only in the bucket of its own key, it occurs in the whole
index as often as it occurs there. -/
theorem count_values_flatten [DecidableEq α] {m : OrderedMap κ (List α)} {a : α} {k : κ}
    (only : ∀ k', a ∈ m.bucket k' → k' = k) :
    m.values.flatten.count a = (m.bucket k).count a := by
  have general : ∀ entries : List (κ × List α), (entries.map Prod.fst).Nodup →
      (∀ e ∈ entries, a ∈ e.2 → e.1 = k) →
      (entries.map Prod.snd).flatten.count a = ((find entries k).getD []).count a := by
    intro entries nodup only
    induction entries with
    | nil => simp
    | cons e rest inductionHypothesis =>
        simp only [List.map_cons, List.nodup_cons] at nodup
        have inRest := inductionHypothesis nodup.2 fun e' member =>
          only e' (List.mem_cons_of_mem _ member)
        simp only [List.map_cons, List.flatten_cons, List.count_append, inRest, find_cons]
        by_cases same : e.1 = k
        · have absent : find rest k = none := find_eq_none.mpr (same ▸ nodup.1)
          simp [same, absent]
        · have zero : e.2.count a = 0 :=
            List.count_eq_zero.mpr fun member => same (only e List.mem_cons_self member)
          simp [same, zero]
  refine general m.entries m.nodup ?_
  rintro ⟨k', bucket⟩ inEntries member
  exact only k' (by simpa [OrderedMap.bucket, mem_entries_iff.mp inEntries] using member)

end OrderedMap

end HederaSdk.Library
