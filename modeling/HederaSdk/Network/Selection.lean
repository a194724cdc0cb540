import HederaSdk.Library.Picking
import HederaSdk.Network.Readmission

/-!
# Selecting nodes for a request

`getNumberOfMostHealthyNodes` picks random healthy nodes, each of another account. How
often it picks is bounded by the number of nodes and not by that of accounts; the loop
ends early when the pool is empty, so this makes no difference.
-/

namespace HederaSdk.Network

open Library

variable {V : Type} {cls : NetworkClass V}

variable (cls) in
/-- The loop makes picks until it has enough or the pool is empty. -/
theorem picks_pickNodes (net : Network) (ω : Nat → Nat) (count : Nat) (pool : List NodeRef) :
    let nodes := pickNodes cls net.heap ω count pool
    ∃ left, Picks (keyOf cls net) pool nodes left ∧
      (nodes.length = count ∨ nodes.length ≤ count ∧ left = []) := by
  induction count generalizing pool with
  | zero => exact ⟨pool, .none pool, .inl rfl⟩
  | succ count inductionHypothesis =>
      simp only [pickNodes]
      cases picked : randomElement (ω count) pool with
      | none =>
          have empty : pool = [] := by
            by_contra nonempty
            obtain ⟨r, some⟩ := exists_randomElement (ω count) nonempty
            cases picked.symm.trans some
          exact ⟨pool, .none pool, .inr ⟨Nat.zero_le _, empty⟩⟩
      | some selected =>
          obtain ⟨left, picks, stops⟩ :=
            inductionHypothesis (leave (keyOf cls net) selected pool)
          refine ⟨left, .pick (randomElement_mem picked) picks, ?_⟩
          rcases stops with reached | ⟨atMost, empty⟩
          · exact .inl (congrArg Nat.succ reached)
          · exact .inr ⟨Nat.succ_le_succ atMost, empty⟩

/-- What is returned of the healthy nodes of `before`, which a readmission turned into
those of `after`. -/
structure Selection (cls : NetworkClass V) (count : Nat) (now : ℚ) (before after : Network)
    (nodes : List NodeRef) : Prop where
  length : nodes.length = min count (after.healthyNodes.map (keyOf cls after)).toFinset.card
  healthy : ∀ r ∈ nodes, r ∈ after.healthyNodes
  admitted : ∀ r ∈ nodes, r ∈ before.healthyNodes ∨ (before.heap r).isHealthy now = true
  distinct : (nodes.map (keyOf cls after)).Nodup

/-- A readmission adds nodes whose time has come. -/
theorem healthy_of_mem_readmitNodes {net : Network} {now : ℚ} {r : NodeRef}
    (member : r ∈ (net.readmitNodes now).healthyNodes) :
    r ∈ net.healthyNodes ∨ (net.heap r).isHealthy now = true := by
  by_cases due : net.earliestReadmitTime ≤ now
  · rcases (mem_healthyNodes_readmitNodes due r).mp member with old | ⟨-, passed⟩
    · exact .inl old
    · exact .inr (decide_eq_true passed)
  · rw [Network.readmitNodes, if_neg due] at member
    exact .inl member

theorem selection_pickNodes (count : Nat) (ω : Nat → Nat) (now : ℚ) (net : Network) :
    let after := net.readmitNodes now
    Selection cls count now net after
      (pickNodes cls after.heap ω (min count after.healthyNodes.length) after.healthyNodes) := by
  intro after
  obtain ⟨left, picks, stops⟩ :=
    picks_pickNodes cls after ω (min count after.healthyNodes.length) after.healthyNodes
  have fewer := card_keysOf_le (keyOf cls after) after.healthyNodes
  refine ⟨?_, picks.subset, fun r member => ?_, picks.nodup⟩
  · rw [picks.length_eq stops, min_assoc, min_eq_right fewer]
    rfl
  · exact healthy_of_mem_readmitNodes (picks.subset r member)

/-- Whenever the removal of dead nodes returns, a selection is made. -/
theorem run_getNumberOfMostHealthyNodes_selects {net left : Network}
    (removed : (removeDeadNodes cls).run net = (.ok (), left)) (count : Nat) (ω : Nat → Nat) (now : ℚ) :
    ∃ nodes, (getNumberOfMostHealthyNodes cls count ω now).run net =
        (.ok nodes, left.readmitNodes now) ∧
      Selection cls count now left (left.readmitNodes now) nodes := by
  refine ⟨_, ?_, selection_pickNodes count ω now left⟩
  rw [getNumberOfMostHealthyNodes, Method.run_bind_ok removed]
  rfl

theorem uncounted_mirror : HeldByNew mirror fun node => node.badGrpcStatusCount = 0 := by
  intro minBackoff now entry value node created
  change createMirrorNode minBackoff now entry value = .ok node at created
  unfold createMirrorNode at created
  split at created <;> cases created
  rfl

/-- In every state behind a selection is made from whatever is listed as healthy, and the
accounts for a request are different. -/
theorem mostHealthyNodes_selected (start : ℚ) (healthyNodes : List NodeRef) (count : Nat)
    (ω : Nat → Nat) (now : ℚ) :
    (∀ {V : Type} (cls : NetworkClass V) (net left : Network),
      (removeDeadNodes cls).run net = (.ok (), left) →
        ∃ nodes, (getNumberOfMostHealthyNodes cls count ω now).run net =
            (.ok nodes, left.readmitNodes now) ∧
          Selection cls count now left (left.readmitNodes now) nodes) ∧
      (∀ calls : List (Call MirrorOp),
        let net := { runAll mirrorStep (create start) calls with healthyNodes }
        ∃ nodes, (getNumberOfMostHealthyNodes mirror count ω now).run net =
            (.ok nodes, net.readmitNodes now) ∧
          Selection mirror count now net (net.readmitNodes now) nodes) ∧
      ∀ calls : List (Call MainOp),
        let net := { runAll mainStep (create start) calls with healthyNodes }
        (∃ nodes, (getNumberOfMostHealthyNodes main count ω now).run net =
            (.ok nodes, net.readmitNodes now) ∧
          Selection main count now net (net.readmitNodes now) nodes) ∧
        ∃ ids, (Network.getNodeAccountIdsForExecute ω now).run net =
            (.ok ids, net.readmitNodes now) ∧
          (ids.map AccountId.toString).Nodup := by
  refine ⟨?_, ?_, ?_⟩
  · intro V cls net left removed
    exact run_getNumberOfMostHealthyNodes_selects removed count ω now
  · intro calls net
    obtain ⟨-, uncounted⟩ := onNodes_runMirror uncounted_kept uncounted_mirror start calls
    apply run_getNumberOfMostHealthyNodes_selects
    exact run_removeDeadNodes_of_uncounted uncounted
  · intro calls net
    obtain ⟨-, uncounted⟩ := onNodes_runMain uncounted_kept uncounted_main uncounted_copy start calls
    have removed : (removeDeadNodes main).run net = (.ok (), net) :=
      run_removeDeadNodes_of_uncounted uncounted
    refine ⟨run_getNumberOfMostHealthyNodes_selects removed count ω now, ?_⟩
    obtain ⟨nodes, ran, selection⟩ :=
      run_getNumberOfMostHealthyNodes_selects removed net.getNumberOfNodesForTransaction ω now
    refine ⟨nodes.map fun r => ((net.readmitNodes now).heap r).accountId, ?_, ?_⟩
    · rw [Network.getNodeAccountIdsForExecute, Method.run_this_bind, Method.run_bind_ok ran]
      rfl
    · rw [List.map_map]
      exact selection.distinct

end HederaSdk.Network
