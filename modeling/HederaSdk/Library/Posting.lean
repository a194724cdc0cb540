import HederaSdk.Library.Ledger
import Mathlib.Data.List.Nodup
import Mathlib.Logic.Function.Basic

/-!
# Entries by their keys

Posts are entered in a list with one entry for each key: the first post of a key opens
the entry, and the later ones change it. What stands under the keys is a map. Posts of
one key that may be exchanged leave the same map, and so the same entries in some order,
in whatever order they come.
-/

namespace HederaSdk.Library

universe u

variable {ε ι κ V : Type u}

/-- How posts change entries, and what it does to the values under the keys. -/
structure Posting (ε ι κ V : Type u) where
  wanted : ι → ε → Bool
  change : ι → ε → ε
  fresh : ι → ε
  key : ε → κ
  value : ε → V
  target : ι → κ
  first : ι → V
  more : ι → V → V
  /-- The entries and posts that occur. -/
  Entry : ε → Prop
  Post : ι → Prop
  entry_fresh : ∀ i, Post i → Entry (fresh i)
  entry_change : ∀ i e, Post i → Entry e → Entry (change i e)
  wanted_iff : ∀ i e, Post i → Entry e → (wanted i e = true ↔ key e = target i)
  key_fresh : ∀ i, key (fresh i) = target i
  key_change : ∀ i e, key (change i e) = key e
  value_fresh : ∀ i, value (fresh i) = first i
  value_change : ∀ i e, value (change i e) = more i (value e)
  exchange_first : ∀ i j, more j (first i) = more i (first j)
  exchange_more : ∀ i j v, more j (more i v) = more i (more j v)

namespace Posting

variable (posting : Posting ε ι κ V)

def post (entries : List ε) (i : ι) : List ε :=
  upsert (posting.wanted i) (posting.change i) (posting.fresh i) entries

def postAll (entries : List ε) (posts : List ι) : List ε := posts.foldl posting.post entries

/-- The value under a key. -/
def under [DecidableEq κ] : List ε → κ → Option V
  | [], _ => none
  | e :: rest, k => if posting.key e = k then some (posting.value e) else under rest k

/-- What a post does to the values. -/
def enter [DecidableEq κ] (values : κ → Option V) (i : ι) : κ → Option V :=
  Function.update values (posting.target i)
    (some ((values (posting.target i)).elim (posting.first i) (posting.more i)))

variable {posting} {entries : List ε} {posts : List ι} {i : ι}

theorem entry_post (present : posting.Post i) (all : ∀ e ∈ entries, posting.Entry e) :
    ∀ e ∈ posting.post entries i, posting.Entry e := by
  intro e member
  rw [post] at member
  cases found : entries.find? (posting.wanted i) with
  | none =>
      rw [upsert_of_none found] at member
      rcases List.mem_append.mp member with old | new
      · exact all e old
      · rw [List.mem_singleton.mp new]
        exact posting.entry_fresh i present
  | some a =>
      obtain ⟨before, after, rfl, changed⟩ :=
        upsert_of_some (posting.change i) (posting.fresh i) found
      rw [changed] at member
      rcases List.mem_append.mp member with inBefore | later
      · exact all e (List.mem_append_left _ inBefore)
      · rcases List.mem_cons.mp later with rfl | inAfter
        · apply posting.entry_change i a present
          exact all a (List.mem_append_right _ List.mem_cons_self)
        · exact all e (List.mem_append_right _ (List.mem_cons_of_mem _ inAfter))

/-- No key gets a second entry. -/
theorem nodup_post (present : posting.Post i) (all : ∀ e ∈ entries, posting.Entry e)
    (nodup : (entries.map posting.key).Nodup) : ((posting.post entries i).map posting.key).Nodup := by
  rw [post]
  cases found : entries.find? (posting.wanted i) with
  | none =>
      rw [upsert_of_none found, List.map_append, List.map_singleton, posting.key_fresh]
      refine nodup.append (List.nodup_singleton _) (List.disjoint_singleton.mpr fun member => ?_)
      obtain ⟨e, inEntries, own⟩ := List.mem_map.mp member
      have wanted := (posting.wanted_iff i e present (all e inEntries)).mpr own
      exact absurd wanted (List.find?_eq_none.mp found e inEntries)
  | some a =>
      obtain ⟨before, after, rfl, changed⟩ :=
        upsert_of_some (posting.change i) (posting.fresh i) found
      rw [changed]
      simpa [posting.key_change] using nodup

variable [DecidableEq κ]

theorem under_post (present : posting.Post i) (all : ∀ e ∈ entries, posting.Entry e) :
    posting.under (posting.post entries i) = posting.enter (posting.under entries) i := by
  induction entries with
  | nil =>
      funext k
      by_cases own : posting.target i = k
      · subst own
        simp [post, upsert, under, enter, posting.key_fresh, posting.value_fresh]
      · simp [post, upsert, under, enter, posting.key_fresh, own, Function.update_of_ne (Ne.symm own)]
  | cons e rest inductionHypothesis =>
      obtain ⟨here, others⟩ := List.forall_mem_cons.mp all
      have wanted := posting.wanted_iff i e present here
      funext k
      by_cases own : posting.key e = posting.target i
      · have posted : posting.post (e :: rest) i = posting.change i e :: rest := by
          rw [post, upsert, if_pos (wanted.mpr own)]
        rw [posted]
        by_cases same : posting.target i = k
        · subst same
          simp [under, enter, posting.key_change, posting.value_change, own]
        · simp [under, enter, posting.key_change, own, same, Function.update_of_ne (Ne.symm same)]
      · have posted : posting.post (e :: rest) i = e :: posting.post rest i := by
          rw [post, upsert, if_neg (fun is => own (wanted.mp is)), ← post]
        rw [posted, under, inductionHypothesis others]
        by_cases same : posting.target i = k
        · subst same
          simp [under, enter, own]
        · simp [under, enter, Function.update_of_ne (Ne.symm same)]

/-- What is known of the entries after posts. -/
structure Posted (posting : Posting ε ι κ V) (entries : List ε) (posts : List ι) (after : List ε) :
    Prop where
  all : ∀ e ∈ after, posting.Entry e
  nodup : (after.map posting.key).Nodup
  under : posting.under after = posts.foldl posting.enter (posting.under entries)

theorem posted_postAll (all : ∀ e ∈ entries, posting.Entry e)
    (nodup : (entries.map posting.key).Nodup) (present : ∀ i ∈ posts, posting.Post i) :
    Posted posting entries posts (posting.postAll entries posts) := by
  induction posts generalizing entries with
  | nil => exact ⟨all, nodup, rfl⟩
  | cons i rest inductionHypothesis =>
      obtain ⟨now, later⟩ := List.forall_mem_cons.mp present
      obtain ⟨all', nodup', under'⟩ :=
        inductionHypothesis (entry_post now all) (nodup_post now all nodup) later
      rw [under_post now all] at under'
      exact ⟨all', nodup', under'⟩

theorem enter_comm (values : κ → Option V) (i j : ι) :
    posting.enter (posting.enter values i) j = posting.enter (posting.enter values j) i := by
  by_cases same : posting.target i = posting.target j
  · simp only [enter, same, Function.update_self, Function.update_idem, Option.elim_some]
    cases values (posting.target j) with
    | none => exact congrArg _ (congrArg some (posting.exchange_first i j))
    | some v => exact congrArg _ (congrArg some (posting.exchange_more i j v))
  · simp only [enter, Function.update_of_ne same, Function.update_of_ne (Ne.symm same)]
    exact Function.update_comm same _ _ _

/-- The value under a key is that of its entry. -/
theorem under_eq_some_iff (nodup : (entries.map posting.key).Nodup) {k : κ} {v : V} :
    posting.under entries k = some v ↔ ∃ e ∈ entries, (posting.key e, posting.value e) = (k, v) := by
  induction entries with
  | nil => simp [under]
  | cons e rest inductionHypothesis =>
      obtain ⟨new, nodup⟩ := List.nodup_cons.mp nodup
      by_cases own : posting.key e = k
      · have others : ¬ ∃ e ∈ rest, (posting.key e, posting.value e) = (k, v) := by
          rintro ⟨other, inRest, same⟩
          apply new
          rw [own, ← (Prod.mk.inj same).1]
          exact List.mem_map_of_mem inRest
        rw [under, if_pos own, List.exists_mem_cons_iff, or_iff_left others, own, Option.some_inj,
          Prod.mk_right_inj]
      · simp only [under, own, if_false, List.exists_mem_cons_iff, inductionHypothesis nodup,
          Prod.mk.injEq, false_and, false_or]

/-- The same posts in another order leave the same entries in some order. -/
theorem perm_postAll {posts' : List ι} (present : ∀ i ∈ posts, posting.Post i)
    (perm : posts.Perm posts') :
    ((posting.postAll [] posts).map fun e => (posting.key e, posting.value e)).Perm
      ((posting.postAll [] posts').map fun e => (posting.key e, posting.value e)) := by
  have none : ∀ e ∈ ([] : List ε), posting.Entry e := fun _ member => absurd member List.not_mem_nil
  have one := posted_postAll none List.nodup_nil present
  have other := posted_postAll none List.nodup_nil fun i member => present i (perm.mem_iff.mpr member)
  have same : posting.under (posting.postAll [] posts) = posting.under (posting.postAll [] posts') := by
    rw [one.under, other.under]
    exact perm.foldl_eq' (fun i _ j _ values => (enter_comm values i j)) _
  have pairs {entries : List ε} (nodup : (entries.map posting.key).Nodup) :
      (entries.map fun e => (posting.key e, posting.value e)).Nodup := by
    apply List.Nodup.of_map Prod.fst
    rwa [List.map_map]
  refine (List.perm_ext_iff_of_nodup (pairs one.nodup) (pairs other.nodup)).mpr ?_
  rintro ⟨k, v⟩
  rw [List.mem_map, List.mem_map, ← under_eq_some_iff one.nodup, ← under_eq_some_iff other.nodup, same]

end Posting

/-! ## The entry of a key -/

section Entering

variable {α ι κ : Type u}

/-- What the items of one key make: the first opens an entry and the others change it. -/
def opened (change : ι → α → α) (fresh : ι → α) : List ι → List α
  | [] => []
  | i :: rest => [rest.foldl (fun a j => change j a) (fresh i)]

theorem opened_concat (change : ι → α → α) (fresh : ι → α) (items : List ι) (i : ι) :
    opened change fresh (items ++ [i]) = changeHead (change i) [fresh i] (opened change fresh items) := by
  cases items with
  | nil => rfl
  | cons j rest => simp [opened, changeHead]

variable (wanted : ι → α → Bool) (change : ι → α → α) (fresh : ι → α)

def enterAll (items : List ι) : List α :=
  items.foldl (fun entries i => upsert (wanted i) (change i) (fresh i) entries) []

variable {wanted change fresh}

theorem enterAll_concat (items : List ι) (i : ι) : enterAll wanted change fresh (items ++ [i]) =
    upsert (wanted i) (change i) (fresh i) (enterAll wanted change fresh items) := by
  rw [enterAll, List.foldl_append]
  rfl

variable {P : α → Prop} {key : α → κ} {target : ι → κ} {items : List ι}

theorem forall_enterAll (fresh_keeps : ∀ i ∈ items, P (fresh i))
    (change_keeps : ∀ i a, P a → P (change i a)) : ∀ a ∈ enterAll wanted change fresh items, P a := by
  induction items using List.reverseRecOn with
  | nil => exact List.forall_mem_nil _
  | append_singleton items i inductionHypothesis =>
      rw [List.forall_mem_append, List.forall_mem_singleton] at fresh_keeps
      rw [enterAll_concat]
      exact forall_upsert (change_keeps i) fresh_keeps.2 (inductionHypothesis fresh_keeps.1)

/-- Items of different keys are entered one behind the other. -/
theorem enterAll_of_nodup (key_fresh : ∀ i, key (fresh i) = target i) (fresh_keeps : ∀ i, P (fresh i))
    (wants : ∀ i a, P a → (wanted i a = true ↔ key a = target i)) (differ : (items.map target).Nodup) :
    enterAll wanted change fresh items = items.map fresh := by
  induction items using List.reverseRecOn with
  | nil => rfl
  | append_singleton items i inductionHypothesis =>
      rw [List.map_append, List.map_singleton, List.nodup_append] at differ
      obtain ⟨before, -, apart⟩ := differ
      have new : (items.map fresh).find? (wanted i) = none := by
        refine List.find?_eq_none.mpr (List.forall_mem_map.mpr fun j member isWanted => ?_)
        have same := (wants i (fresh j) (fresh_keeps j)).mp isWanted
        rw [key_fresh] at same
        exact apart _ (List.mem_map_of_mem member) _ (List.mem_singleton_self _) same
      rw [enterAll_concat, inductionHypothesis before, upsert_of_none new, List.map_append, List.map_singleton]

variable [DecidableEq κ]

/-- The items of each key make one entry. -/
theorem filter_enterAll (key_fresh : ∀ i, key (fresh i) = target i) (key_change : ∀ i a, key (change i a) = key a)
    (fresh_keeps : ∀ i ∈ items, P (fresh i)) (change_keeps : ∀ i a, P a → P (change i a))
    (wants : ∀ i ∈ items, ∀ a, P a → (wanted i a = true ↔ key a = target i)) (k : κ) :
    (enterAll wanted change fresh items).filter (fun a => key a = k) =
      opened change fresh (items.filter fun i => target i = k) := by
  induction items using List.reverseRecOn with
  | nil => rfl
  | append_singleton items i inductionHypothesis =>
      rw [List.forall_mem_append, List.forall_mem_singleton] at fresh_keeps wants
      have before := inductionHypothesis fresh_keeps.1 wants.1
      have present := @forall_enterAll α ι wanted change fresh P items fresh_keeps.1 change_keeps
      rw [enterAll_concat, List.filter_append]
      by_cases own : target i = k
      · have opens : [fresh i].filter (fun a => key a = k) = [fresh i] := by simp [key_fresh, own]
        have mine : [i].filter (fun i => target i = k) = [i] := by simp [own]
        rw [filter_upsert_of_alike (fun a => by rw [key_change]) fun a member => ?_, before, opens, mine,
          opened_concat]
        rw [Bool.eq_iff_iff, wants.2 a (present a member), own, decide_eq_true_iff]
      · have mine : [i].filter (fun i => target i = k) = [] := by simp [own]
        have another : decide (key (fresh i) = k) = false := by simp [key_fresh, own]
        rw [mine, List.append_nil, ← before]
        refine filter_upsert_of_apart another fun a member isWanted => ?_
        have other : key a ≠ k := fun same => own (((wants.2 a (present a member)).mp isWanted).symm.trans same)
        exact ⟨decide_eq_false other, decide_eq_false (key_change i a ▸ other)⟩

theorem length_opened_le_one (items : List ι) : (opened change fresh items).length ≤ 1 := by
  cases items with
  | nil => exact Nat.zero_le 1
  | cons i rest => exact le_refl 1

theorem nodup_enterAll (key_fresh : ∀ i, key (fresh i) = target i) (key_change : ∀ i a, key (change i a) = key a)
    (fresh_keeps : ∀ i ∈ items, P (fresh i)) (change_keeps : ∀ i a, P a → P (change i a))
    (wants : ∀ i ∈ items, ∀ a, P a → (wanted i a = true ↔ key a = target i)) :
    ((enterAll wanted change fresh items).map key).Nodup := by
  refine (nodup_map_iff_filter key _).mpr fun k => ?_
  rw [filter_enterAll key_fresh key_change fresh_keeps change_keeps wants]
  exact length_opened_le_one _

end Entering

end HederaSdk.Library
