import HederaSdk.Network.HealthyNodes

/-!
# Readmitted nodes

The list of healthy nodes holds no node twice, whatever is called: splicing shortens it, a new map and
a change of the transport security replace it by nodes that are listed once, and a readmission appends
nodes it does not find in it.
-/

namespace HederaSdk.Network

open Library

variable {V : Type} {cls : NetworkClass V}

theorem spliceLoop_sublist (r : NodeRef) (nodes : List NodeRef) : (spliceLoop r nodes).Sublist nodes := by
  fun_induction spliceLoop r nodes with
  | case1 => exact .refl _
  | case2 => exact List.nil_sublist _
  | case3 => exact .refl _
  | case4 next rest inductionHypothesis => exact (inductionHypothesis.cons_cons next).cons _
  | case5 head next rest other inductionHypothesis => exact inductionHypothesis.cons_cons head

/-! ## One readmission -/

section Readmission

variable (heap : NodeRef → Node) (now : ℚ)

/-- What the loop over some nodes appends to the list of healthy ones. -/
structure Appended (nodes before after added : List NodeRef) : Prop where
  list : after = before ++ added
  nodup : before.Nodup → after.Nodup
  due : ∀ r ∈ added, r ∈ nodes ∧ (heap r).readmitTime ≤ now
  all : ∀ r ∈ nodes, (heap r).readmitTime ≤ now → r ∈ after

theorem appended_readmitNode (acc : Readmission) (r : NodeRef) :
    ∃ added, Appended heap now [r] acc.healthyNodes (readmitNode heap now acc r).healthyNodes added := by
  rw [healthyNodes_readmitNode]
  split
  · rename_i admitted
    obtain ⟨unlisted, passed⟩ := admitted
    refine ⟨[r], rfl, ?_, ?_, ?_⟩
    · intro nodup
      apply nodup.append (List.nodup_singleton r)
      exact List.disjoint_singleton.mpr unlisted
    · intro r' member
      exact ⟨member, List.mem_singleton.mp member ▸ passed⟩
    · intro r' member _
      exact List.mem_append_right _ member
  · rename_i kept
    refine ⟨[], (List.append_nil _).symm, id, fun r' member => absurd member List.not_mem_nil, ?_⟩
    intro r' member passed
    cases List.mem_singleton.mp member
    by_contra unlisted
    exact kept ⟨unlisted, passed⟩

theorem appended_foldl (nodes : List NodeRef) (acc : Readmission) :
    ∃ added, Appended heap now nodes acc.healthyNodes (nodes.foldl (readmitNode heap now) acc).healthyNodes added := by
  induction nodes generalizing acc with
  | nil =>
      exact ⟨[], (List.append_nil _).symm, id, fun r member => absurd member List.not_mem_nil,
        fun r member => absurd member List.not_mem_nil⟩
  | cons head rest inductionHypothesis =>
      obtain ⟨one, first⟩ := appended_readmitNode heap now acc head
      obtain ⟨more, second⟩ := inductionHypothesis (readmitNode heap now acc head)
      refine ⟨one ++ more, ?_, fun nodup => second.nodup (first.nodup nodup), ?_, ?_⟩
      · rw [List.foldl_cons, second.list, first.list, List.append_assoc]
      · intro r member
        rcases List.mem_append.mp member with inOne | inMore
        · obtain ⟨same, passed⟩ := first.due r inOne
          exact ⟨List.mem_singleton.mp same ▸ List.mem_cons_self, passed⟩
        · obtain ⟨inRest, passed⟩ := second.due r inMore
          exact ⟨List.mem_cons_of_mem _ inRest, passed⟩
      · intro r member passed
        rw [List.foldl_cons]
        rcases List.mem_cons.mp member with rfl | inRest
        · rw [second.list]
          exact List.mem_append_left _ (first.all r (List.mem_singleton_self r) passed)
        · exact second.all r inRest passed

end Readmission

/-- What a readmission makes of the list of healthy nodes. -/
structure Readmits (net after : Network) (now : ℚ) : Prop where
  /-- Every node whose time has come is listed, and listed once. -/
  once : ∀ r ∈ net.nodes, (net.heap r).readmitTime ≤ now → after.healthyNodes.count r = 1
  /-- The nodes stay in the list, and those that come to it are nodes whose time has come. -/
  appended : ∃ added, after.healthyNodes = net.healthyNodes ++ added ∧
    ∀ r ∈ added, r ∈ net.nodes ∧ (net.heap r).readmitTime ≤ now
  nodes : after.nodes = net.nodes
  heap : after.heap = net.heap

theorem readmits_readmitNodes {net : Network} {now : ℚ} (nodup : net.healthyNodes.Nodup)
    (due : net.earliestReadmitTime ≤ now) : Readmits net (net.readmitNodes now) now := by
  obtain ⟨added, appended⟩ := appended_foldl net.heap now net.nodes ⟨net.healthyNodes, maxSafeInteger, true⟩
  rw [Network.readmitNodes, if_pos due]
  refine ⟨?_, ⟨added, appended.list, appended.due⟩, rfl, rfl⟩
  intro r member passed
  exact List.count_eq_one_of_mem (appended.nodup nodup) (appended.all r member passed)

theorem nodup_readmitNodes {net : Network} (nodup : net.healthyNodes.Nodup) (now : ℚ) :
    (net.readmitNodes now).healthyNodes.Nodup := by
  unfold Network.readmitNodes
  split
  · obtain ⟨added, appended⟩ := appended_foldl net.heap now net.nodes ⟨net.healthyNodes, maxSafeInteger, true⟩
    exact appended.nodup nodup
  · exact nodup

/-! ## The other operations -/

theorem Trimmed.healthyNodes {net net' : Network} (trimmed : Trimmed net net') :
    net'.healthyNodes = net.healthyNodes := by
  rw [trimmed.rest]

theorem nodup_getNumberOfMostHealthyNodes {net : Network} (nodup : net.healthyNodes.Nodup) (count : Nat)
    (ω : Nat → Nat) (now : ℚ) : ((getNumberOfMostHealthyNodes cls count ω now).run net).2.healthyNodes.Nodup := by
  obtain ⟨left, trimmed, same | same⟩ := run_getNumberOfMostHealthyNodes_cases cls count ω now net
  · rw [same, trimmed.healthyNodes]
    exact nodup
  · rw [same]
    apply nodup_readmitNodes
    rw [trimmed.healthyNodes]
    exact nodup

theorem nodup_setNetwork {net : Network} (nodup : net.healthyNodes.Nodup)
    (keeps : ∀ map ω now, Keyed cls ((setNetwork cls map ω now).run net).2) (map : OrderedMap String V)
    (ω : Nat → Nat) (now : ℚ) : ((setNetwork cls map ω now).run net).2.healthyNodes.Nodup := by
  obtain ⟨left, trimmed, ⟨_, -, grown⟩ | ⟨-, fresh, refilled⟩⟩ := run_setNetwork_cases cls map ω now net
  · rw [grown.rest]
    change left.healthyNodes.Nodup
    rw [trimmed.healthyNodes]
    exact nodup
  · rw [refilled.healthyNodes]
    exact (keeps map ω now).listed.nodup.filter _

theorem nodup_managed {net : Network} (nodup : net.healthyNodes.Nodup) (op : ManagedOp) (ω : Nat → Nat)
    (now : ℚ) : ((op.method cls ω now).run net).2.healthyNodes.Nodup := by
  cases op with
  | increaseBackoff node => exact nodup.sublist (spliceLoop_sublist node net.healthyNodes)
  | getNode key =>
      change ((do let _ ← Network.getNode key ω now : NetworkMethod Unit).run net).2.healthyNodes.Nodup
      rw [Method.run_bind_snd _ _ fun _ _ => rfl, run_getNode_snd]
      exact nodup_readmitNodes nodup now
  | getNumberOfMostHealthyNodes count =>
      change ((do
        let _ ← Network.getNumberOfMostHealthyNodes cls count ω now : NetworkMethod Unit).run net).2.healthyNodes.Nodup
      rw [Method.run_bind_snd _ _ fun _ _ => rfl]
      exact nodup_getNumberOfMostHealthyNodes nodup count ω now
  | decreaseBackoff | getChannel | setMinBackoff | setMaxBackoff | setMaxNodeAttempts | setNodeMinReadmitPeriod
  | setNodeMaxReadmitPeriod | setLedgerId | close => exact nodup

theorem nodup_mainStep {net : Network} (nodup : net.healthyNodes.Nodup) (keyed : Keyed main net)
    (call : Call MainOp) : (mainStep net call).healthyNodes.Nodup := by
  obtain ⟨op, draws, now⟩ := call
  cases op with
  | managed op => exact nodup_managed nodup op draws now
  | setNetwork map =>
      exact nodup_setNetwork nodup (fun map ω now => keyed_mainStep net ⟨.setNetwork map, ω, now⟩ keyed) map
        draws now
  | getNodeAccountIdsForExecute =>
      change ((do
        let _ ← Network.getNodeAccountIdsForExecute draws now : NetworkMethod Unit).run net).2.healthyNodes.Nodup
      rw [Method.run_bind_snd _ _ fun _ _ => rfl, run_getNodeAccountIdsForExecute_snd]
      exact nodup_getNumberOfMostHealthyNodes nodup _ draws now
  | setTransportSecurity transportSecurity =>
      change ((Network.setTransportSecurity transportSecurity).run net).2.healthyNodes.Nodup
      by_cases same : net.transportSecurity = transportSecurity
      · simp only [Network.setTransportSecurity, Method.run_this_bind, if_pos same]
        exact nodup
      · obtain ⟨copies, net', ran, copied⟩ := run_setTransportSecurity keyed.listed same
        rw [ran]
        exact copied.nodup
  | setMaxNodesPerTransaction count => exact nodup

theorem nodup_mirrorStep {net : Network} (nodup : net.healthyNodes.Nodup) (keyed : Keyed mirror net)
    (call : Call MirrorOp) : (mirrorStep net call).healthyNodes.Nodup := by
  obtain ⟨op, draws, now⟩ := call
  cases op with
  | managed op => exact nodup_managed nodup op draws now
  | setNetwork network =>
      apply nodup_setNetwork nodup
      intro map ω now
      exact keyed_setNetwork map ω now net keyed
  | getNextMirrorNode =>
      change ((do
        let _ ← Network.getNextMirrorNode draws now : NetworkMethod Unit).run net).2.healthyNodes.Nodup
      rw [Method.run_bind_snd _ _ fun _ _ => rfl, getNextMirrorNode, Method.run_bind_snd _ _ fun _ _ => rfl]
      exact nodup_getNumberOfMostHealthyNodes nodup 1 draws now

/-- Behind any calls of the main or the mirror network, a readmission lists every node whose time has
come once, adds no other and takes none away. -/
theorem readmitNodes_run (start now : ℚ) :
    (∀ calls : List (Call MainOp),
      let net := runAll mainStep (create start) calls
      net.earliestReadmitTime ≤ now → Readmits net (net.readmitNodes now) now) ∧
    ∀ calls : List (Call MirrorOp),
      let net := runAll mirrorStep (create start) calls
      net.earliestReadmitTime ≤ now → Readmits net (net.readmitNodes now) now := by
  constructor
  · intro calls net due
    have reached : Keyed main net ∧ net.healthyNodes.Nodup :=
      runAll_invariant_all (I := fun net => Keyed main net ∧ net.healthyNodes.Nodup)
        (fun net call ⟨keyed, nodup⟩ => ⟨keyed_mainStep net call keyed, nodup_mainStep nodup keyed call⟩)
        calls ⟨(filed_create start).keyed, List.nodup_nil⟩
    exact readmits_readmitNodes reached.2 due
  · intro calls net due
    have reached : Keyed mirror net ∧ net.healthyNodes.Nodup :=
      runAll_invariant_all (I := fun net => Keyed mirror net ∧ net.healthyNodes.Nodup)
        (fun net call ⟨keyed, nodup⟩ => ⟨keyed_mirrorStep net call keyed, nodup_mirrorStep nodup keyed call⟩)
        calls ⟨(filed_create start).keyed, List.nodup_nil⟩
    exact readmits_readmitNodes reached.2 due

/-- A node that failed is back a minute later. -/
theorem failed_node_is_back :
    let net := runAll mainStep (create 0)
      [⟨.setNetwork (OrderedMap.empty.set "10.0.0.1:50211" (.ofNum 3)), id, 0⟩,
        ⟨.managed (.increaseBackoff 0), id, 1⟩]
    net.healthyNodes = [] ∧ (net.readmitNodes 60000).healthyNodes.count 0 = 1 :=
  ⟨by decide +kernel, ((readmitNodes_run 0 60000).1 _ (by decide +kernel)).once 0 (by decide +kernel)
    (by decide +kernel)⟩

end HederaSdk.Network
