import HederaSdk.Library.Runs
import Mathlib.Algebra.BigOperators.Group.List.Basic
import Mathlib.Algebra.Ring.Int.Defs
import Mathlib.Data.List.Basic
import Mathlib.Data.Multiset.Bind
import Mathlib.Tactic.Abel

/-!
# Ledgers

A ledger is a list whose elements weigh something. It is searched for the first
element that is wanted, which is changed in its place, and when there is none a fresh
element is put at the end. What the elements weigh together then grows by what was
added, exactly when the change adds that much. A run of such steps adds up.
-/

namespace HederaSdk.Library

universe u v w

variable {α : Type u} {M : Type v} {wanted : α → Bool} {change : α → α} {fresh : α}

def upsert (wanted : α → Bool) (change : α → α) (fresh : α) : List α → List α
  | [] => [fresh]
  | a :: rest => if wanted a then change a :: rest else a :: upsert wanted change fresh rest

theorem upsert_of_none {items : List α} (none : items.find? wanted = none) :
    upsert wanted change fresh items = items ++ [fresh] := by
  induction items with
  | nil => rfl
  | cons a rest inductionHypothesis =>
      cases here : wanted a with
      | true => simp [here] at none
      | false =>
          rw [List.find?_cons_of_neg (by simp [here])] at none
          simp [upsert, here, inductionHypothesis none]

/-- Two ledgers that look alike still look alike after alike changes. -/
theorem map_upsert_eq {β : Type*} {look : α → β} {change' : α → α} {items others : List α}
    (same : items.map look = others.map look)
    (wantedBoth : ∀ a b, look a = look b → wanted a = wanted b)
    (changed : ∀ a b, look a = look b → look (change a) = look (change' b)) :
    (upsert wanted change fresh items).map look = (upsert wanted change' fresh others).map look := by
  induction items generalizing others with
  | nil =>
      obtain rfl := List.map_eq_nil_iff.mp same.symm
      rfl
  | cons a rest inductionHypothesis =>
      cases others with
      | nil => cases same
      | cons b others =>
          obtain ⟨heads, tails⟩ := List.cons.inj same
          rw [upsert, upsert, ← wantedBoth a b heads]
          cases wanted a with
          | true => simp [changed a b heads, tails]
          | false => simp [heads, inductionHypothesis tails]

variable (change fresh) in
theorem upsert_of_some {items : List α} {a : α} (found : items.find? wanted = some a) :
    ∃ before after, items = before ++ a :: after ∧
      upsert wanted change fresh items = before ++ change a :: after := by
  induction items with
  | nil => cases found
  | cons b rest inductionHypothesis =>
      cases here : wanted b with
      | true =>
          rw [List.find?_cons_of_pos here] at found
          cases found
          exact ⟨[], rest, rfl, by simp [upsert, here]⟩
      | false =>
          rw [List.find?_cons_of_neg (by simp [here])] at found
          obtain ⟨before, after, shape, changed⟩ := inductionHypothesis found
          refine ⟨b :: before, after, ?_, ?_⟩
          · rw [shape, List.cons_append]
          · simp [upsert, here, changed]

variable (wanted change fresh) in
/-- Nothing goes, and something is there. -/
theorem length_upsert (items : List α) :
    items.length ≤ (upsert wanted change fresh items).length ∧
      0 < (upsert wanted change fresh items).length := by
  cases found : items.find? wanted with
  | none => simp [upsert_of_none found]
  | some a =>
      obtain ⟨before, after, rfl, changed⟩ := upsert_of_some change fresh found
      simp only [changed, List.length_append, List.length_cons]
      omega

theorem forall_upsert {P : α → Prop} (changes : ∀ a, P a → P (change a)) (new : P fresh) {items : List α}
    (all : ∀ a ∈ items, P a) : ∀ a ∈ upsert wanted change fresh items, P a := by
  cases found : items.find? wanted with
  | none =>
      rw [upsert_of_none found]
      exact List.forall_mem_append.mpr ⟨all, List.forall_mem_singleton.mpr new⟩
  | some b =>
      obtain ⟨before, after, rfl, changed⟩ := upsert_of_some change fresh found
      rw [changed]
      rw [List.forall_mem_append, List.forall_mem_cons] at all ⊢
      exact ⟨all.1, changes b all.2.1, all.2.2⟩

theorem filter_upsert_of_apart {p : α → Bool} {items : List α} (new : p fresh = false)
    (apart : ∀ a ∈ items, wanted a = true → p a = false ∧ p (change a) = false) :
    (upsert wanted change fresh items).filter p = items.filter p := by
  induction items with
  | nil => simp [upsert, new]
  | cons a rest inductionHypothesis =>
      obtain ⟨here, later⟩ := List.forall_mem_cons.mp apart
      rw [upsert]
      cases found : wanted a with
      | true =>
          obtain ⟨before, after⟩ := here found
          simp [before, after]
      | false => simp [List.filter_cons, inductionHypothesis later]

/-- The first element changes; where there is none it is put there. -/
def changeHead (change : α → α) (none : List α) : List α → List α
  | [] => none
  | a :: rest => change a :: rest

theorem filter_upsert_of_alike {p : α → Bool} {items : List α} (keeps : ∀ a, p (change a) = p a)
    (alike : ∀ a ∈ items, wanted a = p a) :
    (upsert wanted change fresh items).filter p = changeHead change ([fresh].filter p) (items.filter p) := by
  induction items with
  | nil => rfl
  | cons a rest inductionHypothesis =>
      obtain ⟨here, later⟩ := List.forall_mem_cons.mp alike
      rw [upsert, here]
      cases found : p a with
      | true => simp [keeps, found, changeHead]
      | false => simp [found, inductionHypothesis later]

section Weight

variable [AddCommMonoid M] {weight : α → M} {added : M}

theorem sum_upsert (ofFresh : weight fresh = added) {items : List α}
    (changes : ∀ a, items.find? wanted = some a → weight (change a) = weight a + added) :
    ((upsert wanted change fresh items).map weight).sum = (items.map weight).sum + added := by
  cases found : items.find? wanted with
  | none => simp [upsert_of_none found, ofFresh]
  | some a =>
      obtain ⟨before, after, rfl, changed⟩ := upsert_of_some change fresh found
      have grows := changes a found
      rw [changed]
      simp only [List.map_append, List.map_cons, List.sum_append, List.sum_cons, grows]
      abel

theorem sum_upsert_iff [IsLeftCancelAdd M] (ofFresh : weight fresh = added) {items : List α} :
    ((upsert wanted change fresh items).map weight).sum = (items.map weight).sum + added ↔
      ∀ a, items.find? wanted = some a → weight (change a) = weight a + added := by
  refine ⟨fun grown a found => ?_, sum_upsert ofFresh⟩
  obtain ⟨before, after, rfl, changed⟩ := upsert_of_some change fresh found
  rw [changed] at grown
  simp only [List.map_append, List.map_cons, List.sum_append, List.sum_cons] at grown
  apply add_left_cancel (a := (before.map weight).sum + (after.map weight).sum)
  calc (before.map weight).sum + (after.map weight).sum + weight (change a)
      = (before.map weight).sum + (weight (change a) + (after.map weight).sum) := by abel
    _ = (before.map weight).sum + (weight a + (after.map weight).sum) + added := grown
    _ = (before.map weight).sum + (after.map weight).sum + (weight a + added) := by abel

end Weight

section Multiset

variable {β : Type v}

/-- A list of lists, flattened, is what they weigh together. -/
theorem coe_flatMap (f : α → List β) (items : List α) :
    (items.flatMap f : Multiset β) = (items.map fun a => (f a : Multiset β)).sum := by
  rw [← Multiset.coe_bind, Multiset.bind, Multiset.join, Multiset.map_coe, Multiset.sum_coe]

theorem sum_map_singleton (f : α → β) (items : List α) :
    (items.map fun a => ({f a} : Multiset β)).sum = (items.map f : Multiset β) := by
  have single := Multiset.sum_map_singleton (items.map f : Multiset β)
  rwa [Multiset.map_coe, Multiset.sum_coe, List.map_map] at single

end Multiset

/-! ## The last weight -/

section Last

variable [AddMonoid M] (weight : α → M)

/-- What the last element weighs. -/
def lastWeight (items : List α) : M := items.foldl (fun _ a => weight a) 0

theorem lastWeight_append_singleton (items : List α) (a : α) : lastWeight weight (items ++ [a]) = weight a := by
  rw [lastWeight, List.foldl_append]
  rfl

theorem lastWeight_eq_sum {items : List α} (single : items.length ≤ 1) :
    lastWeight weight items = (items.map weight).sum := by
  match items with
  | [] => rfl
  | [a] => exact (add_zero (weight a)).symm
  | a :: b :: rest => simp at single

/-- Several elements do not weigh as much as the last of them both before and after the first of them changes. -/
theorem length_filter_of_lastWeight [IsRightCancelAdd M] {items : List α}
    (keeps : ∀ a, wanted (change a) = wanted a) (changes : ∀ a, weight (change a) ≠ weight a)
    (same : lastWeight weight (items.filter wanted) = ((items.filter wanted).map weight).sum)
    (again : lastWeight weight ((upsert wanted change fresh items).filter wanted) =
      (((upsert wanted change fresh items).filter wanted).map weight).sum) :
    (items.filter wanted).length ≤ 1 := by
  match found : items.filter wanted with
  | [] => exact Nat.zero_le 1
  | [_] => exact le_refl 1
  | a :: b :: rest =>
      have changed : (upsert wanted change fresh items).filter wanted = change a :: b :: rest := by
        rw [filter_upsert_of_alike keeps fun _ _ => rfl, found, changeHead]
      rw [changed] at again
      rw [found] at same
      obtain ⟨before, last, split⟩ := List.eq_nil_or_concat (b :: rest) |>.resolve_left (List.cons_ne_nil b rest)
      rw [split, List.concat_eq_append, ← List.cons_append, lastWeight_append_singleton, List.cons_append,
        List.map_cons, List.sum_cons] at same again
      exact absurd (add_right_cancel (again.symm.trans same)) (changes a)

end Last

section Single

variable {κ : Type v} [DecidableEq κ]

theorem length_le_one_of_mem {items : List α} (each : ∀ a ∈ items, items.length ≤ 1) : items.length ≤ 1 := by
  cases items with
  | nil => exact Nat.zero_le 1
  | cons a rest => exact each a List.mem_cons_self

theorem nodup_map_iff_filter (key : α → κ) (items : List α) :
    (items.map key).Nodup ↔ ∀ k, (items.filter fun a => key a = k).length ≤ 1 := by
  rw [List.nodup_iff_count_le_one]
  refine forall_congr' fun k => ?_
  rw [List.count, List.countP_map, List.countP_eq_length_filter]
  rfl

/-- No two elements are of one key where each key has one element at most. -/
theorem pairwise_iff_filter (key : α → κ) {related : α → α → Prop} {items : List α}
    (alike : ∀ a ∈ items, ∀ b ∈ items, related a b ↔ key a = key b) :
    (items.Pairwise fun a b => ¬related a b) ↔
      ∀ a ∈ items, (items.filter fun b => key b = key a).length ≤ 1 := by
  have keys : (items.Pairwise fun a b => ¬related a b) ↔ (items.map key).Nodup := by
    rw [List.Nodup, List.pairwise_map]
    exact List.Pairwise.iff_of_mem fun {a b} first second => not_congr (alike a first b second)
  rw [keys, nodup_map_iff_filter]
  refine ⟨fun once a _ => once (key a), fun once k => ?_⟩
  refine length_le_one_of_mem fun a found => ?_
  obtain ⟨member, own⟩ := List.mem_filter.mp found
  rw [← of_decide_eq_true own]
  exact once a member

end Single

/-! ## One amount under several keys -/

section Accounts

variable {κ : Type u} [DecidableEq κ]

theorem single_eq_single_iff {k k' : κ} {v : ℤ} :
    (Pi.single k v : κ → ℤ) = Pi.single k' v ↔ v = 0 ∨ k = k' := by
  constructor
  · intro same
    by_cases keys : k = k'
    · exact .inr keys
    · have here := congrFun same k
      rw [Pi.single_eq_same, Pi.single_eq_of_ne keys] at here
      exact .inl here
  · rintro (rfl | rfl)
    · rw [Pi.single_zero, Pi.single_zero]
    · rfl

theorem sum_single_apply (keys : List κ) (v : ℤ) (k : κ) :
    ((keys.map fun key => (Pi.single key v : κ → ℤ)).sum) k = keys.count k * v := by
  induction keys with
  | nil => simp
  | cons key rest inductionHypothesis =>
      rw [List.map_cons, List.sum_cons, Pi.add_apply, inductionHypothesis, List.count_cons]
      by_cases same : key = k
      · subst same
        simp [add_mul, add_comm]
      · simp [same]

/-- One amount under several keys is nothing when the amount is, or there are no keys. -/
theorem sum_single_eq_zero {keys : List κ} {v : ℤ} :
    (keys.map fun key => (Pi.single key v : κ → ℤ)).sum = 0 ↔ v = 0 ∨ keys = [] := by
  constructor
  · intro zero
    by_cases amount : v = 0
    · exact .inl amount
    · refine .inr (List.eq_nil_iff_forall_not_mem.mpr fun k member => ?_)
      have here := congrFun zero k
      rw [sum_single_apply, Pi.zero_apply, mul_eq_zero, or_iff_left amount, Int.natCast_eq_zero] at here
      exact absurd member (List.count_eq_zero.mp here)
  · rintro (rfl | rfl)
    · funext k
      rw [sum_single_apply, mul_zero, Pi.zero_apply]
    · rfl

theorem sum_single_eq_single {keys : List κ} {k : κ} {v : ℤ} :
    (keys.map fun key => (Pi.single key v : κ → ℤ)).sum = Pi.single k v ↔ v = 0 ∨ keys = [k] := by
  constructor
  · intro same
    by_cases amount : v = 0
    · exact .inl amount
    · right
      have counts (x : κ) : keys.count x = if x = k then 1 else 0 := by
        have here := congrFun same x
        rw [sum_single_apply, Pi.single_apply] at here
        split at here
        · rename_i own
          rw [if_pos own]
          have one := mul_right_cancel₀ amount (here.trans (one_mul v).symm)
          exact_mod_cast one
        · rename_i other
          rw [if_neg other]
          have none := (mul_eq_zero.mp here).resolve_right amount
          exact_mod_cast none
      apply List.perm_singleton.mp
      rw [List.perm_iff_count]
      intro x
      rw [counts, List.count_singleton]
      grind
  · rintro (rfl | rfl)
    · funext x
      rw [sum_single_apply, mul_zero, Pi.single_zero, Pi.zero_apply]
    · simp

end Accounts

/-! ## Runs that add up -/

section Runs

variable {σ : Type u} {ι : Type w} {step : σ → ι → σ} {guard : σ → ι → Prop} {I : σ → Prop}
variable [AddCommMonoid M] {weight : σ → M} {added : ι → M}

/-- When a step meets the guard exactly when it adds what it should, a run is guarded
exactly when every part of it from the start has added what it should. -/
theorem guarded_iff_adds (keeps : ∀ s i, I s → I (step s i))
    (exact : ∀ s i, I s → (guard s i ↔ weight (step s i) = weight s + added i)) {s : σ}
    (start : I s) (inputs : List ι) :
    Guarded step guard s inputs ↔
      ∀ first, first <+: inputs →
        weight (runAll step s first) = weight s + (first.map added).sum := by
  induction inputs generalizing s with
  | nil =>
      constructor
      · intro _ first initial
        rw [List.prefix_nil.mp initial]
        simp
      · exact fun _ => trivial
  | cons i rest inductionHypothesis =>
      constructor
      · rintro ⟨met, guarded⟩ first initial
        rcases List.prefix_cons_iff.mp initial with rfl | ⟨first, rfl, within⟩
        · simp
        · have later := (inductionHypothesis (keeps s i start)).mp guarded first within
          rw [runAll_cons, later, (exact s i start).mp met, List.map_cons, List.sum_cons, add_assoc]
      · intro adds
        have now : weight (step s i) = weight s + added i := by
          have := adds [i] (by simp)
          simpa using this
        refine ⟨(exact s i start).mpr now, ?_⟩
        apply (inductionHypothesis (keeps s i start)).mpr
        intro first initial
        have later := adds (i :: first) (List.cons_prefix_cons.mpr ⟨rfl, initial⟩)
        rw [runAll_cons, List.map_cons, List.sum_cons, ← add_assoc, ← now] at later
        exact later

end Runs

end HederaSdk.Library
