import Mathlib.Data.List.Nodup
import Mathlib.Order.Lattice

/-!
# Grouping two sequences in one walk

Two sequences of keys are walked at once and give a sequence of groups. While both have
keys left, a key joins the last group or opens a new one, the smaller key first; behind
the end of one of them a key joins its group wherever that is. When the first sequence is
sorted, no group is opened twice exactly when the second one is `Orderly`.
-/

namespace HederaSdk.Library

universe u

variable {κ : Type u} [LinearOrder κ]

/-- Open a group for a key that has none. -/
def addKey (keys : List κ) (k : κ) : List κ := if k ∈ keys then keys else keys ++ [k]

def mergeKeys : List κ → List κ → List κ → List κ
  | [], ns, keys => ns.foldl addKey keys
  | f :: fs, [], keys => (f :: fs).foldl addKey keys
  | f :: fs, n :: ns, keys =>
      if keys.getLast? = some f then mergeKeys fs (n :: ns) keys
      else if keys.getLast? = some n then mergeKeys (f :: fs) ns keys
      else if f = n then mergeKeys fs ns (keys ++ [f])
      else if f < n then mergeKeys fs (n :: ns) (keys ++ [f])
      else mergeKeys (f :: fs) ns (keys ++ [n])
termination_by fs ns _ => fs.length + ns.length

/-- While the first sequence still goes beyond the keys seen, a key of the second one goes
beyond them too, repeats the one before it, or is in neither sequence so far. -/
def Orderly (left : List κ) : List κ → List κ → Prop
  | _, [] => True
  | seen, n :: rest =>
      ((∃ f ∈ left, ∀ k ∈ seen, k < f) →
        (∀ k ∈ seen, k < n) ∨ seen.getLast? = some n ∨ (n ∉ seen ∧ n ∉ left)) ∧
      Orderly left (seen ++ [n]) rest

instance Orderly.decidable (left : List κ) : ∀ seen rest, Decidable (Orderly left seen rest)
  | _, [] => inferInstanceAs (Decidable True)
  | seen, n :: rest =>
      have := Orderly.decidable left (seen ++ [n]) rest
      inferInstanceAs (Decidable (((∃ f ∈ left, ∀ k ∈ seen, k < f) →
        (∀ k ∈ seen, k < n) ∨ seen.getLast? = some n ∨ (n ∉ seen ∧ n ∉ left)) ∧
      Orderly left (seen ++ [n]) rest))

/-- Only what is in the first sequence counts. -/
theorem orderly_congr {left left' seen rest : List κ} (same : ∀ k, k ∈ left ↔ k ∈ left') :
    Orderly left seen rest ↔ Orderly left' seen rest := by
  induction rest generalizing seen with
  | nil => exact Iff.rfl
  | cons n rest inductionHypothesis => simp only [Orderly, same, inductionHypothesis]

/-! ## Joining groups wherever they are -/

theorem nodup_addKey {keys : List κ} {k : κ} : (addKey keys k).Nodup ↔ keys.Nodup := by
  unfold addKey
  split
  · rfl
  · rename_i new
    refine ⟨fun nodup => (List.nodup_append.mp nodup).1, fun nodup => ?_⟩
    exact nodup.append (List.nodup_singleton k) (List.disjoint_singleton.mpr new)

theorem nodup_foldl_addKey {ks keys : List κ} : (ks.foldl addKey keys).Nodup ↔ keys.Nodup := by
  induction ks generalizing keys with
  | nil => rfl
  | cons k ks inductionHypothesis =>
      rw [List.foldl_cons, inductionHypothesis, nodup_addKey]

theorem mem_addKey {keys : List κ} {k k' : κ} : k' ∈ addKey keys k ↔ k' ∈ keys ∨ k' = k := by
  unfold addKey
  split
  · rename_i old
    refine ⟨.inl, fun h => ?_⟩
    rcases h with member | rfl
    · exact member
    · exact old
  · simp

theorem mem_foldl_addKey {ks keys : List κ} {k : κ} :
    k ∈ ks.foldl addKey keys ↔ k ∈ keys ∨ k ∈ ks := by
  induction ks generalizing keys with
  | nil => simp
  | cons k' ks inductionHypothesis =>
      rw [List.foldl_cons, inductionHypothesis, mem_addKey, List.mem_cons, or_assoc]

/-- Every key has a group, and no other. -/
theorem mem_mergeKeys {fs ns keys : List κ} {k : κ} :
    k ∈ mergeKeys fs ns keys ↔ k ∈ keys ∨ k ∈ fs ∨ k ∈ ns := by
  have last {keys : List κ} {k : κ} (last : keys.getLast? = some k) : k ∈ keys :=
    List.mem_of_getLast? last
  fun_induction mergeKeys fs ns keys with
  | case1 => simp [mem_foldl_addKey]
  | case2 => simp [mem_foldl_addKey, mem_addKey, or_assoc]
  | case3 _ _ _ _ _ joins inductionHypothesis =>
      have := last joins
      grind
  | case4 _ _ _ _ _ _ joins inductionHypothesis =>
      have := last joins
      grind
  | case5 => grind
  | case6 => grind
  | case7 => grind

/-! ## The walk -/

/-- What is known in the middle of the walk, where `seen` and `taken` are the keys of the
second and the first sequence behind it. -/
structure Walked (seen taken fs ns keys : List κ) : Prop where
  mem : ∀ k, k ∈ keys ↔ k ∈ seen ∨ k ∈ taken
  below : ∀ k ∈ keys, ∀ f ∈ fs, k ≤ f
  sorted : fs.Pairwise (· ≤ ·)
  /-- The next key of the first sequence has no group but the last one. -/
  own : ∀ f, fs.head? = some f → f ∈ keys → keys.getLast? = some f
  /-- The last group is that of the last key seen, or was opened by the first sequence
  before the next key. -/
  last : (seen.getLast? = keys.getLast? ∧ ∀ q ∈ taken, ∃ p ∈ seen, q ≤ p) ∨
    ∃ l, keys.getLast? = some l ∧ (∀ k ∈ seen, k < l) ∧ (∀ q ∈ taken, q ≤ l) ∧
      ∀ n, ns.head? = some n → l < n

namespace Walked

variable {left seen taken fs ns keys : List κ} {f n : κ}

theorem start (sorted : fs.Pairwise (· ≤ ·)) (ns : List κ) : Walked [] [] fs ns [] where
  mem := by simp
  below := by simp
  sorted := sorted
  own := by simp
  last := .inl (by simp)

theorem notMem (walked : Walked seen taken (f :: fs) ns keys) (other : keys.getLast? ≠ some f) :
    f ∉ keys := fun member => other (walked.own f rfl member)

theorem lt_of_mem (walked : Walked seen taken (f :: fs) ns keys) (other : keys.getLast? ≠ some f)
    {k : κ} (member : k ∈ keys) : k < f :=
  lt_of_le_of_ne (walked.below k member f List.mem_cons_self) fun same =>
    walked.notMem other (same ▸ member)

theorem below_concat (walked : Walked seen taken (f :: fs) ns keys) {k : κ} (small : k ≤ f) :
    ∀ k' ∈ keys ++ [k], ∀ f' ∈ fs, k' ≤ f' := by
  have sorted := List.pairwise_cons.mp walked.sorted
  intro k' member f' inRest
  rcases List.mem_append.mp member with old | new
  · exact walked.below k' old f' (List.mem_cons_of_mem _ inRest)
  · exact List.mem_singleton.mp new ▸ small.trans (sorted.1 f' inRest)

/-- The next key of the first sequence joins the last group. -/
theorem joinLeft (walked : Walked seen taken (f :: fs) ns keys) (joins : keys.getLast? = some f) :
    Walked seen (taken ++ [f]) fs ns keys := by
  have sorted := List.pairwise_cons.mp walked.sorted
  have member : f ∈ keys := List.mem_of_getLast? joins
  refine ⟨fun k => ?_, fun k old f' inRest => ?_, sorted.2, fun f' next old => ?_, ?_⟩
  · rw [walked.mem, List.mem_append, List.mem_singleton]
    refine ⟨fun h => h.imp_right .inl, fun h => ?_⟩
    rcases h with inSeen | inTaken | rfl
    · exact .inl inSeen
    · exact .inr inTaken
    · exact (walked.mem k).mp member
  · exact walked.below k old f' (List.mem_cons_of_mem _ inRest)
  · have low := walked.below f' old f List.mem_cons_self
    have high := sorted.1 f' (List.mem_of_head? next)
    rw [le_antisymm low high]
    exact joins
  · rcases walked.last with ⟨same, reached⟩ | ⟨l, isLast, above, atMost, before⟩
    · refine .inl ⟨same, fun q inTaken => ?_⟩
      rcases List.mem_append.mp inTaken with old | new
      · exact reached q old
      · exact ⟨f, List.mem_of_getLast? (same.trans joins), (List.mem_singleton.mp new).le⟩
    · refine .inr ⟨l, isLast, above, fun q inTaken => ?_, before⟩
      rcases List.mem_append.mp inTaken with old | new
      · exact atMost q old
      · rw [List.mem_singleton.mp new]
        exact (Option.some.inj (joins.symm.trans isLast)).le

/-- The next key of the second sequence joins the last group, which was that of the key
before it. -/
theorem joinRight (walked : Walked seen taken (f :: fs) (n :: ns) keys)
    (joins : keys.getLast? = some n) :
    seen.getLast? = some n ∧ Walked (seen ++ [n]) taken (f :: fs) ns keys := by
  obtain ⟨same, reached⟩ : seen.getLast? = keys.getLast? ∧ ∀ q ∈ taken, ∃ p ∈ seen, q ≤ p := by
    rcases walked.last with own | ⟨l, isLast, -, -, before⟩
    · exact own
    · have equal : l = n := Option.some.inj (isLast.symm.trans joins)
      exact absurd (before n rfl) (equal ▸ lt_irrefl l)
  refine ⟨same.trans joins, fun k => ?_, walked.below, walked.sorted, walked.own, .inl ⟨?_, ?_⟩⟩
  · have member : n ∈ keys := List.mem_of_getLast? joins
    rw [walked.mem, List.mem_append, List.mem_singleton]
    refine ⟨fun h => h.imp_left .inl, fun h => ?_⟩
    rcases h with (inSeen | rfl) | inTaken
    · exact .inl inSeen
    · exact (walked.mem k).mp member
    · exact .inr inTaken
  · rw [List.getLast?_concat, joins]
  · intro q inTaken
    obtain ⟨p, inSeen, order⟩ := reached q inTaken
    exact ⟨p, List.mem_append_left _ inSeen, order⟩

/-- Both next keys open a group together. -/
theorem openBoth (walked : Walked seen taken (f :: fs) (f :: ns) keys)
    (other : keys.getLast? ≠ some f) :
    Walked (seen ++ [f]) (taken ++ [f]) fs ns (keys ++ [f]) := by
  have sorted := List.pairwise_cons.mp walked.sorted
  refine ⟨fun k => ?_, walked.below_concat le_rfl, sorted.2, fun f' next old => ?_, .inl ⟨?_, ?_⟩⟩
  · simp only [List.mem_append, List.mem_singleton, walked.mem]
    tauto
  · have high := sorted.1 f' (List.mem_of_head? next)
    rw [List.getLast?_concat]
    rcases List.mem_append.mp old with inKeys | new
    · exact absurd (walked.lt_of_mem other inKeys) (not_lt.mpr high)
    · rw [List.mem_singleton.mp new]
  · rw [List.getLast?_concat, List.getLast?_concat]
  · intro q inTaken
    refine ⟨f, by simp, ?_⟩
    rcases List.mem_append.mp inTaken with old | new
    · exact (walked.lt_of_mem other ((walked.mem q).mpr (.inr old))).le
    · exact (List.mem_singleton.mp new).le

/-- The smaller key, of the first sequence, opens a group. -/
theorem openLeft (walked : Walked seen taken (f :: fs) (n :: ns) keys)
    (other : keys.getLast? ≠ some f) (less : f < n) :
    Walked seen (taken ++ [f]) fs (n :: ns) (keys ++ [f]) := by
  have sorted := List.pairwise_cons.mp walked.sorted
  refine ⟨fun k => ?_, walked.below_concat le_rfl, sorted.2, fun f' next old => ?_,
    .inr ⟨f, by simp, fun k inSeen => ?_, fun q inTaken => ?_, fun n' next => ?_⟩⟩
  · simp only [List.mem_append, List.mem_singleton, walked.mem, or_assoc]
  · have high := sorted.1 f' (List.mem_of_head? next)
    rw [List.getLast?_concat]
    rcases List.mem_append.mp old with inKeys | new
    · exact absurd (walked.lt_of_mem other inKeys) (not_lt.mpr high)
    · rw [List.mem_singleton.mp new]
  · exact walked.lt_of_mem other ((walked.mem k).mpr (.inl inSeen))
  · rcases List.mem_append.mp inTaken with old | new
    · exact (walked.lt_of_mem other ((walked.mem q).mpr (.inr old))).le
    · exact (List.mem_singleton.mp new).le
  · exact Option.some.inj next ▸ less

/-- The smaller key, of the second sequence, opens a group. -/
theorem openRight (walked : Walked seen taken (f :: fs) (n :: ns) keys)
    (other : keys.getLast? ≠ some f) (less : n < f) :
    Walked (seen ++ [n]) taken (f :: fs) ns (keys ++ [n]) := by
  refine ⟨fun k => ?_, fun k member f' inRest => ?_, walked.sorted, fun f' next old => ?_,
    .inl ⟨?_, fun q inTaken => ?_⟩⟩
  · simp only [List.mem_append, List.mem_singleton, walked.mem]
    tauto
  · rcases List.mem_append.mp member with old | new
    · exact walked.below k old f' inRest
    · rw [List.mem_singleton.mp new]
      rcases List.mem_cons.mp inRest with rfl | later
      · exact less.le
      · exact less.le.trans ((List.pairwise_cons.mp walked.sorted).1 f' later)
  · cases next
    rcases List.mem_append.mp old with inKeys | new
    · exact absurd inKeys (walked.notMem other)
    · exact absurd (List.mem_singleton.mp new) less.ne'
  · rw [List.getLast?_concat, List.getLast?_concat]
  · rcases walked.last with ⟨-, reached⟩ | ⟨l, -, -, atMost, before⟩
    · obtain ⟨p, inSeen, order⟩ := reached q inTaken
      exact ⟨p, List.mem_append_left _ inSeen, order⟩
    · exact ⟨n, by simp, (atMost q inTaken).trans (before n rfl).le⟩

/-- The smaller key of the second sequence has no group exactly when it is in order. -/
theorem notMem_iff (walked : Walked seen taken (f :: fs) (n :: ns) keys)
    (other : keys.getLast? ≠ some f) (another : keys.getLast? ≠ some n) (less : n < f)
    (whole : left = taken ++ f :: fs) :
    n ∉ keys ↔ ((∃ f ∈ left, ∀ k ∈ seen, k < f) →
      (∀ k ∈ seen, k < n) ∨ seen.getLast? = some n ∨ (n ∉ seen ∧ n ∉ left)) := by
  have beyond : ∃ f ∈ left, ∀ k ∈ seen, k < f :=
    ⟨f, by simp [whole], fun k inSeen => walked.lt_of_mem other ((walked.mem k).mpr (.inl inSeen))⟩
  have later : n ∉ f :: fs := by
    intro member
    rcases List.mem_cons.mp member with rfl | inRest
    · exact lt_irrefl n less
    · exact not_lt.mpr ((List.pairwise_cons.mp walked.sorted).1 n inRest) less
  rw [walked.mem, not_or]
  constructor
  · rintro ⟨notSeen, notTaken⟩ -
    refine .inr (.inr ⟨notSeen, ?_⟩)
    rw [whole, List.mem_append, not_or]
    exact ⟨notTaken, later⟩
  · intro inOrder
    rcases walked.last with ⟨same, reached⟩ | ⟨l, -, above, atMost, before⟩
    · rcases inOrder beyond with greater | repeated | ⟨notSeen, notLeft⟩
      · refine ⟨fun inSeen => lt_irrefl n (greater n inSeen), fun inTaken => ?_⟩
        obtain ⟨p, inSeen, order⟩ := reached n inTaken
        exact not_lt.mpr order (greater p inSeen)
      · exact absurd (same.symm.trans repeated) another
      · exact ⟨notSeen, fun inTaken => notLeft (whole ▸ List.mem_append_left _ inTaken)⟩
    · have bound : l < n := before n rfl
      exact ⟨fun inSeen => lt_asymm bound (above n inSeen),
        fun inTaken => not_lt.mpr (atMost n inTaken) bound⟩

end Walked

/-- Nothing is asked of the second sequence beyond the first one. -/
theorem orderly_of_reached {left seen ns : List κ} (reached : ∀ f ∈ left, ∃ k ∈ seen, f ≤ k) :
    Orderly left seen ns := by
  induction ns generalizing seen with
  | nil => trivial
  | cons n rest inductionHypothesis =>
      constructor
      · rintro ⟨f, inLeft, beyond⟩
        obtain ⟨k, inSeen, order⟩ := reached f inLeft
        exact absurd (beyond k inSeen) (not_lt.mpr order)
      · refine inductionHypothesis fun f inLeft => ?_
        obtain ⟨k, inSeen, order⟩ := reached f inLeft
        exact ⟨k, List.mem_append_left _ inSeen, order⟩

/-- At the end of the first sequence the rest of the second one is in order. -/
theorem Walked.orderly {seen taken ns keys : List κ} (walked : Walked seen taken [] ns keys) :
    Orderly taken seen ns := by
  rcases walked.last with ⟨-, reached⟩ | ⟨l, -, above, atMost, before⟩
  · exact orderly_of_reached reached
  · cases ns with
    | nil => trivial
    | cons n rest =>
        have bound : l < n := before n rfl
        refine ⟨fun _ => .inl fun k inSeen => (above k inSeen).trans bound, ?_⟩
        exact orderly_of_reached fun q inTaken => ⟨n, by simp, (atMost q inTaken).trans bound.le⟩

omit [LinearOrder κ] in
theorem nodup_concat_iff {keys : List κ} {k : κ} : (keys ++ [k]).Nodup ↔ keys.Nodup ∧ k ∉ keys := by
  rw [List.nodup_append_comm, List.singleton_append, List.nodup_cons, and_comm]

theorem nodup_mergeKeys {left seen taken fs ns keys : List κ} (walked : Walked seen taken fs ns keys)
    (whole : left = taken ++ fs) :
    (mergeKeys fs ns keys).Nodup ↔ keys.Nodup ∧ Orderly left seen ns := by
  fun_induction mergeKeys fs ns keys generalizing seen taken with
  | case1 ns keys =>
      rw [List.append_nil] at whole
      rw [nodup_foldl_addKey, whole]
      exact (and_iff_left walked.orderly).symm
  | case2 f fs keys =>
      rw [nodup_foldl_addKey]
      exact (and_iff_left trivial).symm
  | case3 f fs n ns keys joins inductionHypothesis =>
      exact inductionHypothesis (walked.joinLeft joins) (by simp [whole])
  | case4 f fs n ns keys other joins inductionHypothesis =>
      obtain ⟨repeated, walked'⟩ := walked.joinRight joins
      rw [inductionHypothesis walked' whole, Orderly]
      exact and_congr_right fun _ => (and_iff_right fun _ => .inr (.inl repeated)).symm
  | case5 fs n ns keys other _ inductionHypothesis =>
      have new := walked.notMem other
      rw [inductionHypothesis (walked.openBoth other) (by simp [whole]), nodup_concat_iff,
        and_iff_left new, Orderly]
      refine and_congr_right fun _ => (and_iff_right fun _ => .inl fun k inSeen => ?_).symm
      exact walked.lt_of_mem other ((walked.mem k).mpr (.inl inSeen))
  | case6 f fs n ns keys other another different less inductionHypothesis =>
      have new := walked.notMem other
      rw [inductionHypothesis (walked.openLeft other less) (by simp [whole]), nodup_concat_iff,
        and_iff_left new]
  | case7 f fs n ns keys other another different notLess inductionHypothesis =>
      have less : n < f := lt_of_le_of_ne (not_lt.mp notLess) (Ne.symm different)
      rw [inductionHypothesis (walked.openRight other less) whole, nodup_concat_iff,
        walked.notMem_iff other another less whole, Orderly, and_assoc]

/-- No group is opened twice exactly when the second sequence is in order. -/
theorem nodup_mergeKeys_iff {left right : List κ} (sorted : left.Pairwise (· ≤ ·)) :
    (mergeKeys left right []).Nodup ↔ Orderly left [] right := by
  rw [nodup_mergeKeys (Walked.start sorted right) (List.nil_append left).symm]
  exact and_iff_right List.nodup_nil

end HederaSdk.Library
