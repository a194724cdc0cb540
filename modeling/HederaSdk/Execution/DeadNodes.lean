import HederaSdk.Execution.Attempts
import HederaSdk.Network.NodeInvariants

/-!
# Dead nodes

Choosing nodes for a request is to remove those that failed too often. Every retryable
error of an attempt is a call of `increaseBackoff`, but nothing counts these calls, so
no node is ever removed. `Tallied` counts them beside the network.
-/

namespace HederaSdk.Network

open Library

/-- A network and how often each of its nodes has failed. -/
structure Tallied where
  network : Network
  errors : NodeRef → Nat

namespace Tallied

/-- A new node has not failed, a copy as often as its original. -/
def tally (s : Tallied) (op : MainOp) (net' : Network) (r : NodeRef) : Nat :=
  if r < s.network.allocated then
    match op with
    | .managed (.increaseBackoff node) => if node = r then s.errors r + 1 else s.errors r
    | _ => s.errors r
  else
    match op with
    | .setTransportSecurity _ => ((net'.nodes.zip s.network.nodes).lookup r).elim 0 s.errors
    | _ => 0

def step (s : Tallied) (call : Call MainOp) : Tallied where
  network := mainStep s.network call
  errors := s.tally call.op (mainStep s.network call)

end Tallied

/-- The node is closed and in no collection. -/
structure Removed (net : Network) (r : NodeRef) : Prop where
  nodes : r ∉ net.nodes
  network : ∀ key, r ∉ net.network.bucket key
  healthyNodes : r ∉ net.healthyNodes
  closed : (net.heap r).channel = none

theorem network_runAll (s : Tallied) (calls : List (Call MainOp)) :
    (runAll Tallied.step s calls).network = runAll mainStep s.network calls := by
  induction calls generalizing s with
  | nil => rfl
  | cons call rest inductionHypothesis => exact inductionHypothesis (s.step call)

/-- A node is not removed while it is chosen from. -/
theorem nodes_getNodeAccountIdsForExecute {net : Network} (ω : Nat → Nat) (now : ℚ)
    (uncounted : OnNodes (fun node => node.badGrpcStatusCount = 0) net) :
    ((Network.getNodeAccountIdsForExecute ω now).run net).2.nodes = net.nodes := by
  rw [run_getNodeAccountIdsForExecute_snd, run_getNumberOfMostHealthyNodes_of_uncounted main uncounted]
  exact (sameFiling_readmitNodes main now net).nodes

/-- An error that is retried is a failure of the node, and after any calls the choice of
nodes removes those that failed too often exactly when there are none. -/
theorem deadNodes_removed_iff (start : ℚ) (calls : List (Call MainOp)) (draws : Nat → Nat) (now : ℚ) :
    (∀ (σ Req Resp Out : Type) (r : NodeRef) (input : Attempt Resp) (e error : JsError)
        (run : Run σ Req), grpcServiceErrorFromResponse e = .ok error →
      ((ExecutableClass.judgeError r input e : RunMethod σ Req (Step Out)).run run).2.network =
        if isRetryable error then
          mainStep run.network ⟨.managed (.increaseBackoff r), input.draws, input.answeredAt⟩
        else run.network) ∧
      let s := runAll Tallied.step ⟨create start, fun _ => 0⟩ calls
      let net' := ((Network.getNodeAccountIdsForExecute draws now).run s.network).2
      0 < s.network.maxNodeAttempts →
        ((∀ r ∈ s.network.nodes, s.network.maxNodeAttempts ≤ s.errors r → Removed net' r) ↔
          ∀ r ∈ s.network.nodes, (s.errors r : Int) < s.network.maxNodeAttempts) := by
  constructor
  · intro σ Req Resp Out r input e error run read
    rw [ExecutableClass.judgeError, read, Method.run_bind_ok (Method.run_ofExcept_ok _ _)]
    by_cases retried : isRetryable error = true
    · simp only [if_pos retried]
      rfl
    · simp only [if_neg retried]
      rfl
  · intro s net' _
    have network : s.network = runAll mainStep (create start) calls := network_runAll _ calls
    obtain ⟨-, uncounted⟩ :=
      onNodes_runMain uncounted_kept uncounted_main uncounted_copy start calls
    have stays : net'.nodes = s.network.nodes :=
      nodes_getNodeAccountIdsForExecute draws now (network ▸ uncounted)
    constructor
    · intro removes r member
      by_contra dead
      exact (removes r member (not_lt.mp dead)).nodes (stays ▸ member)
    · intro alive r member dead
      exact absurd (alive r member) (not_lt.mpr dead)

/-- A node fails once, which is less than the two failures allowed. -/
def sampleFailures : List (Call MainOp) :=
  [⟨.managed (.setMaxNodeAttempts 2), id, 0⟩,
    ⟨.setNetwork (OrderedMap.empty.set "10.0.0.1:50211" (.ofNum 3)), id, 0⟩,
    ⟨.managed (.increaseBackoff 0), id, 1⟩]

/-- The node is not available. -/
def sampleAttempt : Attempt Unit where
  now := 1
  sentAt := 1
  outcome := .error (.channel 14 "unavailable")
  answeredAt := 1

theorem sampleFailures_removed :
    let s := runAll Tallied.step ⟨create 0, fun _ => 0⟩ sampleFailures
    ((ExecutableClass.judgeError 0 sampleAttempt (.channel 14 "unavailable") :
        RunMethod Unit Unit (Step Unit)).run ⟨(), s.network, [], none⟩).2.network =
      mainStep s.network ⟨.managed (.increaseBackoff 0), id, 1⟩ ∧
    ((∀ r ∈ s.network.nodes, s.network.maxNodeAttempts ≤ s.errors r →
        Removed ((Network.getNodeAccountIdsForExecute id 2).run s.network).2 r) ↔
      ∀ r ∈ s.network.nodes, (s.errors r : Int) < s.network.maxNodeAttempts) := by
  intro s
  constructor
  · have failed := (deadNodes_removed_iff 0 sampleFailures id 2).1 Unit Unit Unit Unit 0 sampleAttempt
      (.channel 14 "unavailable") _ ⟨(), s.network, [], none⟩ rfl
    exact failed.trans (if_pos (by decide +kernel))
  · exact (deadNodes_removed_iff 0 sampleFailures id 2).2 (by decide +kernel)

/-- One failure is allowed, and the node that failed twice is still there. -/
theorem dead_node_not_removed :
    let calls : List (Call MainOp) :=
      [⟨.managed (.setMaxNodeAttempts 1), id, 0⟩,
        ⟨.setNetwork (OrderedMap.empty.set "10.0.0.1:50211" (.ofNum 3)), id, 0⟩,
        ⟨.managed (.increaseBackoff 0), id, 1⟩, ⟨.managed (.increaseBackoff 0), id, 2⟩]
    let s := runAll Tallied.step ⟨create 0, fun _ => 0⟩ calls
    s.network.maxNodeAttempts = 1 ∧ 0 ∈ s.network.nodes ∧ s.errors 0 = 2 ∧
      ¬ Removed ((Network.getNodeAccountIdsForExecute id 3).run s.network).2 0 := by
  refine ⟨by decide +kernel, by decide +kernel, by decide +kernel, fun removed => ?_⟩
  have absent := removed.nodes
  revert absent
  decide +kernel

end HederaSdk.Network
