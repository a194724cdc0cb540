import HederaSdk.Network.HealthyNodes
import Mathlib.Order.Bounds.Basic

/-!
# The next readmission

A scan readmits the nodes whose time has come and looks for the time of the next scan
among the others. The search ends at the first node that is not listed as healthy, and
it makes no comparison when no node is listed. What it found, a point in time, is then
clamped between the two periods, which are durations.
-/

namespace HederaSdk.Network

open Library

variable {heap : NodeRef → Node} {now : ℚ}

/-! ## The nodes behind a scan -/

/-- The outer loop lists every node whose time has come. -/
theorem mem_healthyNodes_foldl (nodes : List NodeRef) (acc : Readmission) (r : NodeRef) :
    r ∈ (nodes.foldl (readmitNode heap now) acc).healthyNodes ↔
      r ∈ acc.healthyNodes ∨ r ∈ nodes ∧ (heap r).readmitTime ≤ now := by
  induction nodes generalizing acc with
  | nil => simp
  | cons head rest inductionHypothesis =>
      rw [List.foldl_cons, inductionHypothesis, healthyNodes_readmitNode]
      by_cases same : r = head
      · subst same
        by_cases passed : (heap r).readmitTime ≤ now <;> by_cases listed : r ∈ acc.healthyNodes <;>
          simp [passed, listed]
      · split <;> simp [same]

theorem mem_healthyNodes_readmitNodes {net : Network} (due : net.earliestReadmitTime ≤ now)
    (r : NodeRef) :
    r ∈ (net.readmitNodes now).healthyNodes ↔
      r ∈ net.healthyNodes ∨ r ∈ net.nodes ∧ (net.heap r).readmitTime ≤ now := by
  rw [Network.readmitNodes, if_pos due]
  exact mem_healthyNodes_foldl net.nodes _ r

/-! ## The search -/

/-- A comparison changes nothing when the time found so far is not later. -/
theorem scanHealthy_fst_of_le {search : Bool} {readmitTime next : ℚ} (r : NodeRef)
    (nodes : List NodeRef) (settled : search = true → now < readmitTime → next ≤ readmitTime) :
    (scanHealthy search readmitTime now r nodes next).1 = next := by
  induction nodes with
  | nil => rfl
  | cons head rest inductionHypothesis =>
      have stays : (if search && decide (now < readmitTime) then min readmitTime next else next) =
          next := by
        split
        · rename_i compared
          obtain ⟨searching, later⟩ := Bool.and_eq_true_iff.mp compared
          exact min_eq_right (settled searching (of_decide_eq_true later))
        · rfl
      rw [scanHealthy, stays]
      split
      · rfl
      · exact inductionHypothesis

/-- The search of one node compares its time when there is a node to compare it with. -/
theorem scanHealthy_fst (readmitTime : ℚ) (r : NodeRef) {nodes : List NodeRef} (nonempty : nodes ≠ [])
    (next : ℚ) :
    (scanHealthy true readmitTime now r nodes next).1 =
      if now < readmitTime then min readmitTime next else next := by
  cases nodes with
  | nil => exact absurd rfl nonempty
  | cons head rest =>
      rw [scanHealthy]
      simp only [Bool.true_and, decide_eq_true_eq]
      split
      · rfl
      · apply scanHealthy_fst_of_le
        intro _ later
        rw [if_pos later]
        exact min_le_left _ _

/-- One turn of the outer loop. -/
theorem readmitNode_eq (acc : Readmission) (r : NodeRef) :
    readmitNode heap now acc r =
      let next := (scanHealthy acc.searchForNextEarliestReadmitTime (heap r).readmitTime now r
        acc.healthyNodes acc.nextEarliestReadmitTime).1
      if r ∈ acc.healthyNodes then { acc with nextEarliestReadmitTime := next }
      else
        { healthyNodes :=
            if (heap r).readmitTime ≤ now then acc.healthyNodes ++ [r] else acc.healthyNodes
          nextEarliestReadmitTime := next
          searchForNextEarliestReadmitTime := false } := by
  have found := scanHealthy_snd acc.searchForNextEarliestReadmitTime (heap r).readmitTime now r
    acc.healthyNodes acc.nextEarliestReadmitTime
  unfold readmitNode
  split <;> rename_i scanned <;> rw [scanned] at found
  · have listed : r ∈ acc.healthyNodes := by simpa using found
    simp only [if_pos listed]
    rw [scanned]
  · have unlisted : r ∉ acc.healthyNodes := by simpa using found
    simp only [if_neg unlisted]
    rw [scanned]

/-- When the search is over, the time it found stays. -/
theorem next_foldl_of_found (nodes : List NodeRef) {acc : Readmission}
    (found : acc.searchForNextEarliestReadmitTime = false) :
    (nodes.foldl (readmitNode heap now) acc).nextEarliestReadmitTime =
      acc.nextEarliestReadmitTime := by
  induction nodes generalizing acc with
  | nil => rfl
  | cons head rest inductionHypothesis =>
      rw [List.foldl_cons]
      have step : (readmitNode heap now acc head).nextEarliestReadmitTime =
            acc.nextEarliestReadmitTime ∧
          (readmitNode heap now acc head).searchForNextEarliestReadmitTime = false := by
        have same : (scanHealthy acc.searchForNextEarliestReadmitTime (heap head).readmitTime now head
            acc.healthyNodes acc.nextEarliestReadmitTime).1 = acc.nextEarliestReadmitTime := by
          apply scanHealthy_fst_of_le
          intro searching
          exact absurd searching (found ▸ Bool.false_ne_true)
        rw [readmitNode_eq]
        split
        · exact ⟨same, found⟩
        · exact ⟨same, rfl⟩
      rw [inductionHypothesis step.2, step.1]

/-- The nodes up to the first one that is not listed. -/
def upToUnlisted (healthyNodes : List NodeRef) : List NodeRef → List NodeRef
  | [] => []
  | r :: rest => if r ∈ healthyNodes then r :: upToUnlisted healthyNodes rest else [r]

/-- The times behind `now` of some nodes. -/
def laterTimes (heap : NodeRef → Node) (now : ℚ) (nodes : List NodeRef) : Set ℚ :=
  {t | ∃ r ∈ nodes, now < (heap r).readmitTime ∧ (heap r).readmitTime = t}

theorem mem_laterTimes_cons {r : NodeRef} {nodes : List NodeRef} {t : ℚ} :
    t ∈ laterTimes heap now (r :: nodes) ↔
      (now < (heap r).readmitTime ∧ (heap r).readmitTime = t) ∨ t ∈ laterTimes heap now nodes := by
  simp [laterTimes]

/-- The search compares one more time. -/
theorem isLeast_compare {r : NodeRef} {nodes : List NodeRef} {next least : ℚ}
    (rest : IsLeast (insert
      (if now < (heap r).readmitTime then min (heap r).readmitTime next else next)
      (laterTimes heap now nodes)) least) :
    IsLeast (insert next (laterTimes heap now (r :: nodes))) least := by
  obtain ⟨member, lower⟩ := rest
  split at member
  · rename_i later
    rw [if_pos later] at lower
    constructor
    · rcases member with rfl | member
      · rcases min_choice (heap r).readmitTime next with own | earlier
        · exact .inr (mem_laterTimes_cons.mpr (.inl ⟨later, own.symm⟩))
        · exact .inl earlier
      · exact .inr (mem_laterTimes_cons.mpr (.inr member))
    · have bound := lower (Set.mem_insert _ _)
      rintro t (rfl | member)
      · exact bound.trans (min_le_right _ _)
      · rcases mem_laterTimes_cons.mp member with ⟨-, rfl⟩ | member
        · exact bound.trans (min_le_left _ _)
        · exact lower (.inr member)
  · rename_i passed
    rw [if_neg passed] at lower
    constructor
    · rcases member with rfl | member
      · exact .inl rfl
      · exact .inr (mem_laterTimes_cons.mpr (.inr member))
    · rintro t (rfl | member)
      · exact lower (.inl rfl)
      · rcases mem_laterTimes_cons.mp member with ⟨later, -⟩ | member
        · exact absurd later passed
        · exact lower (.inr member)

/-- The search finds the least of the times it compares. -/
theorem isLeast_foldl (nodes : List NodeRef) {acc : Readmission} (nonempty : acc.healthyNodes ≠ [])
    (searching : acc.searchForNextEarliestReadmitTime = true) :
    IsLeast (insert acc.nextEarliestReadmitTime
        (laterTimes heap now (upToUnlisted acc.healthyNodes nodes)))
      (nodes.foldl (readmitNode heap now) acc).nextEarliestReadmitTime := by
  induction nodes generalizing acc with
  | nil => simp [upToUnlisted, laterTimes]
  | cons head rest inductionHypothesis =>
      rw [List.foldl_cons, readmitNode_eq, searching, scanHealthy_fst _ _ nonempty, upToUnlisted]
      by_cases listed : head ∈ acc.healthyNodes
      · simp only [if_pos listed]
        apply isLeast_compare
        exact inductionHypothesis nonempty rfl
      · simp only [if_neg listed]
        rw [next_foldl_of_found rest rfl]
        apply isLeast_compare
        simp [laterTimes]

/-- The nodes that the search looks at: none when none is listed as healthy. -/
def lookedAt (net : Network) : List NodeRef :=
  if net.healthyNodes = [] then [] else upToUnlisted net.healthyNodes net.nodes

theorem isLeast_next (net : Network) (now : ℚ) :
    IsLeast (insert maxSafeInteger (laterTimes net.heap now (lookedAt net)))
      (net.nodes.foldl (readmitNode net.heap now)
        ⟨net.healthyNodes, maxSafeInteger, true⟩).nextEarliestReadmitTime := by
  by_cases empty : net.healthyNodes = []
  · have nothing : (net.nodes.foldl (readmitNode net.heap now)
        ⟨net.healthyNodes, maxSafeInteger, true⟩).nextEarliestReadmitTime = maxSafeInteger := by
      cases net.nodes with
      | nil => rfl
      | cons head rest =>
          rw [List.foldl_cons, next_foldl_of_found rest (by rw [readmitNode_eq]; simp [empty]),
            readmitNode_eq]
          simp [empty, scanHealthy]
    rw [nothing, lookedAt, if_pos empty]
    simp [laterTimes]
  · rw [lookedAt, if_neg empty]
    exact @isLeast_foldl net.heap now net.nodes ⟨net.healthyNodes, maxSafeInteger, true⟩ empty rfl

/-! ## The time of the next scan -/

/-- What the time of the next scan is the least of, when the shorter period is over by then. -/
def candidates (net : Network) (now : ℚ) : Set ℚ :=
  insert net.nodeMaxReadmitPeriod (insert maxSafeInteger (laterTimes net.heap now (lookedAt net)))

/-- The readmit times of the nodes that are not listed behind the scan. -/
def waitingTimes (net : Network) (now : ℚ) : Set ℚ :=
  laterTimes net.heap now (net.nodes.filter fun r => r ∉ net.healthyNodes)

/-- The next scan of `after`, which a scan of `net` left, is due when it is expected. -/
structure DueInPeriod (net after : Network) (now : ℚ) : Prop where
  between : after.earliestReadmitTime ∈
    Set.Icc (now + net.nodeMinReadmitPeriod) (now + net.nodeMaxReadmitPeriod)
  earliest : ∀ t, IsLeast
      {t | ∃ r ∈ after.nodes, r ∉ after.healthyNodes ∧ (after.heap r).readmitTime = t} t →
    t ∈ Set.Icc (now + net.nodeMinReadmitPeriod) (now + net.nodeMaxReadmitPeriod) →
      after.earliestReadmitTime = t

/-- The periods and times of a network whose next scan will be due when it is expected. -/
structure Timely (net : Network) (now : ℚ) : Prop where
  between : now + net.nodeMinReadmitPeriod ∈ lowerBounds (candidates net now)
  earliest : ∀ t, IsLeast (waitingTimes net now) t →
    t ∈ Set.Icc (now + net.nodeMinReadmitPeriod) (now + net.nodeMaxReadmitPeriod) →
      IsLeast (candidates net now) t

theorem waitingTimes_eq {net : Network} (due : net.earliestReadmitTime ≤ now) :
    {t | ∃ r ∈ (net.readmitNodes now).nodes, r ∉ (net.readmitNodes now).healthyNodes ∧
      ((net.readmitNodes now).heap r).readmitTime = t} = waitingTimes net now := by
  have same := sameFiling_readmitNodes main now net
  have heap : (net.readmitNodes now).heap = net.heap := by
    rw [Network.readmitNodes, if_pos due]
  apply Set.ext
  intro t
  simp only [Set.mem_ofPred_eq, waitingTimes, laterTimes, List.mem_filter, decide_eq_true_eq,
    same.nodes, heap, mem_healthyNodes_readmitNodes due]
  constructor
  · rintro ⟨r, member, unlisted, rfl⟩
    refine ⟨r, ⟨member, fun listed => unlisted (.inl listed)⟩, ?_, rfl⟩
    exact not_le.mp fun passed => unlisted (.inr ⟨member, passed⟩)
  · rintro ⟨r, ⟨member, unlisted⟩, later, rfl⟩
    refine ⟨r, member, ?_, rfl⟩
    rintro (listed | ⟨-, passed⟩)
    · exact unlisted listed
    · exact absurd passed (not_le.mpr later)

/-- The time found is clamped between the periods. -/
theorem earliestReadmitTime_eq {net : Network} (due : net.earliestReadmitTime ≤ now) :
    ∃ next, IsLeast (insert maxSafeInteger (laterTimes net.heap now (lookedAt net))) next ∧
      (net.readmitNodes now).earliestReadmitTime =
        min (max next net.nodeMinReadmitPeriod) net.nodeMaxReadmitPeriod := by
  refine ⟨_, isLeast_next net now, ?_⟩
  rw [Network.readmitNodes, if_pos due]

/-- Under the condition the smaller period has no effect on the time. -/
theorem isLeast_earliestReadmitTime {net : Network} (positive : 0 < now)
    (due : net.earliestReadmitTime ≤ now)
    (between : now + net.nodeMinReadmitPeriod ∈ lowerBounds (candidates net now)) :
    IsLeast (candidates net now) (net.readmitNodes now).earliestReadmitTime := by
  obtain ⟨next, ⟨member, lower⟩, same⟩ := earliestReadmitTime_eq due
  have behind : now + net.nodeMinReadmitPeriod ≤ next := between (.inr member)
  have unclamped : max next net.nodeMinReadmitPeriod = next := max_eq_left (by linarith)
  rw [same, unclamped]
  constructor
  · rcases min_choice next net.nodeMaxReadmitPeriod with found | longest
    · rw [found]
      exact .inr member
    · exact .inl longest
  · rintro t (rfl | compared)
    · exact min_le_right _ _
    · exact (min_le_left _ _).trans (lower compared)

theorem mem_lowerBounds_of_due {net : Network} (positive : 0 < now)
    (due : net.earliestReadmitTime ≤ now)
    (between : now + net.nodeMinReadmitPeriod ≤ (net.readmitNodes now).earliestReadmitTime) :
    now + net.nodeMinReadmitPeriod ∈ lowerBounds (candidates net now) := by
  obtain ⟨next, ⟨-, lower⟩, same⟩ := earliestReadmitTime_eq due
  rw [same] at between
  obtain ⟨clamped, longest⟩ := le_min_iff.mp between
  rcases le_max_iff.mp clamped with behind | shortest
  · rintro t (rfl | compared)
    · exact longest
    · exact behind.trans (lower compared)
  · linarith

/-- Behind a scan the time of the next one is as expected exactly under the condition. -/
theorem dueInPeriod_iff {net : Network} (positive : 0 < now) (due : net.earliestReadmitTime ≤ now) :
    DueInPeriod net (net.readmitNodes now) now ↔ Timely net now := by
  constructor
  · intro expected
    have between := mem_lowerBounds_of_due positive due expected.between.1
    refine ⟨between, fun t least inPeriod => ?_⟩
    rw [← expected.earliest t (waitingTimes_eq due ▸ least) inPeriod]
    exact isLeast_earliestReadmitTime positive due between
  · intro timely
    have found := isLeast_earliestReadmitTime positive due timely.between
    refine ⟨⟨timely.between found.1, ?_⟩, fun t least inPeriod => ?_⟩
    · have longest : (net.readmitNodes now).earliestReadmitTime ≤ net.nodeMaxReadmitPeriod :=
        found.2 (Set.mem_insert _ _)
      linarith
    · rw [waitingTimes_eq due] at least
      exact found.unique (timely.earliest t least inPeriod)

end HederaSdk.Network
