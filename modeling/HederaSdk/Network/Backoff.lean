import HederaSdk.Network.Replacing

/-!
# The backoff of the nodes

The settings of a network reach its nodes by three routes: the setters change every
listed node, a new node is created with the minimal backoff only, and a change of the
transport security copies the nodes with their minimal backoff as the maximal one.
`Bounded` is what is expected of every node.
-/

namespace HederaSdk.Network

open Library

/-- A node with the settings of its network, whose backoff is between them. -/
structure Bounded (minBackoff maxBackoff : ℚ) (node : Node) : Prop where
  min : node.minBackoff = minBackoff
  max : node.maxBackoff = maxBackoff
  lower : minBackoff ≤ node.currentBackoff
  upper : node.currentBackoff ≤ maxBackoff

/-- The backoff stays positive, so doubling does not lower it. -/
def Backs (minBackoff maxBackoff : ℚ) (node : Node) : Prop :=
  Bounded minBackoff maxBackoff node ∧ 0 < node.currentBackoff

section Node

variable {minBackoff maxBackoff : ℚ} {node : Node}

theorem backs_increaseBackoff (order : minBackoff ≤ maxBackoff) (now : ℚ)
    (backs : Backs minBackoff maxBackoff node) :
    Backs minBackoff maxBackoff (node.increaseBackoff now) := by
  obtain ⟨bounded, positive⟩ := backs
  have limit : node.maxBackoff = maxBackoff := bounded.max
  have lower := bounded.lower
  have upper := bounded.upper
  have increased : (node.increaseBackoff now).currentBackoff =
      Min.min (node.currentBackoff * 2) node.maxBackoff := rfl
  refine ⟨⟨bounded.min, bounded.max, ?_, ?_⟩, ?_⟩ <;> rw [increased, limit]
  · exact le_min (by linarith) order
  · exact min_le_right _ _
  · exact lt_min (by linarith) (by linarith)

theorem backs_decreaseBackoff (order : minBackoff ≤ maxBackoff)
    (backs : Backs minBackoff maxBackoff node) :
    Backs minBackoff maxBackoff node.decreaseBackoff := by
  obtain ⟨bounded, positive⟩ := backs
  have limit : node.minBackoff = minBackoff := bounded.min
  have upper := bounded.upper
  have decreased : node.decreaseBackoff.currentBackoff =
      Max.max (node.currentBackoff / 2) node.minBackoff := rfl
  refine ⟨⟨bounded.min, bounded.max, ?_, ?_⟩, ?_⟩ <;> rw [decreased, limit]
  · exact le_max_right _ _
  · exact max_le (by linarith) order
  · exact lt_max_of_lt_left (by linarith)

theorem backs_setMinBackoff {lower : ℚ} (order : lower ≤ maxBackoff)
    (backs : Backs minBackoff maxBackoff node) :
    Backs lower maxBackoff (node.setMinBackoff lower) := by
  obtain ⟨bounded, positive⟩ := backs
  have changed : (node.setMinBackoff lower).currentBackoff =
      if node.currentBackoff ≤ lower then lower else node.currentBackoff := rfl
  refine ⟨⟨rfl, bounded.max, ?_, ?_⟩, ?_⟩ <;> rw [changed] <;> split
  · exact le_rfl
  · linarith
  · exact order
  · exact bounded.upper
  · linarith
  · exact positive

theorem backs_setMaxBackoff {upper : ℚ} (order : minBackoff ≤ upper)
    (below : node.currentBackoff ≤ upper) (backs : Backs minBackoff maxBackoff node) :
    Backs minBackoff upper (node.setMaxBackoff upper) := by
  obtain ⟨bounded, positive⟩ := backs
  have changed : (node.setMaxBackoff upper).currentBackoff = upper := if_pos below
  refine ⟨⟨bounded.min, rfl, ?_, ?_⟩, ?_⟩ <;> rw [changed]
  · exact order
  · linarith

/-- A new node has the maximal backoff of a new network. -/
theorem backs_created {now : ℚ} {entry : String} {accountId : AccountId}
    (order : minBackoff ≤ 1000 * 60 * 60)
    (created : createNodeFromNetworkEntry minBackoff now entry accountId = .ok node) :
    Backs minBackoff (1000 * 60 * 60) node := by
  unfold createNodeFromNetworkEntry at created
  split at created <;> cases created
  rename_i address _
  have fresh : ((Node.create address accountId now).setMinBackoff minBackoff).currentBackoff =
      if 8000 ≤ minBackoff then minBackoff else 8000 := rfl
  refine ⟨⟨rfl, rfl, ?_, ?_⟩, ?_⟩ <;> rw [fresh] <;> split <;> linarith

/-- A copy keeps its backoff when both settings are the same. -/
theorem backs_copy (same : minBackoff = maxBackoff) (transportSecurity : Bool)
    (backs : Backs minBackoff maxBackoff node) :
    Backs minBackoff maxBackoff (transportCopy transportSecurity node.close) := by
  obtain ⟨bounded, positive⟩ := backs
  have limit : node.minBackoff = maxBackoff := bounded.min.trans same
  cases transportSecurity <;> exact ⟨⟨bounded.min, limit, bounded.lower, bounded.upper⟩, positive⟩

end Node

/-! ## One call -/

/-- The settings are set with the minimum below the maximum. -/
def InOrder (net : Network) (call : Call MainOp) : Prop :=
  match call.op with
  | .managed (.setMinBackoff minBackoff) => minBackoff ≤ net.maxBackoff
  | .managed (.setMaxBackoff maxBackoff) => net.minBackoff ≤ maxBackoff
  | _ => True

/-- The condition on a call. A new maximum is not below the backoff of a node; a new map
brings no node unless the maximum is that of a new network; and nodes are copied only
when the minimum is the maximum. -/
def KeepsBounds (net : Network) (call : Call MainOp) : Prop :=
  match call.op with
  | .managed (.setMaxBackoff maxBackoff) => ∀ r ∈ net.nodes, (net.heap r).currentBackoff ≤ maxBackoff
  | .setNetwork map =>
      net.maxBackoff = 1000 * 60 * 60 ∨
        (∀ entry ∈ map.entries, ∃ r ∈ net.nodes,
          entryOf main net r = (entry.1, AccountId.toString entry.2)) ∨
        ¬ Closable main net (fun r => isObsolete map (net.heap r)) net.nodes ∨
        ∃ entry ∈ map.entries, ∃ e, ManagedNodeAddress.fromString entry.1 = .error e
  | .setTransportSecurity transportSecurity =>
      net.transportSecurity = transportSecurity ∨ net.nodes = [] ∨ net.minBackoff = net.maxBackoff
  | _ => True

/-- The invariant. -/
structure WithinBounds (net : Network) : Prop where
  order : net.minBackoff ≤ net.maxBackoff
  nodes : OnNodes (Backs net.minBackoff net.maxBackoff) net

/-- The settings are those of the first network. -/
structure SameSettings (net net' : Network) : Prop where
  min : net'.minBackoff = net.minBackoff
  max : net'.maxBackoff = net.maxBackoff

theorem WithinBounds.of_same {net net' : Network} (within : WithinBounds net)
    (same : SameSettings net net') (nodes : OnNodes (Backs net.minBackoff net.maxBackoff) net') :
    WithinBounds net' := by
  refine ⟨?_, ?_⟩ <;> rw [same.min, same.max]
  · exact within.order
  · exact nodes

theorem Trimmed.sameSettings {net net' : Network} (trimmed : Trimmed net net') :
    SameSettings net net' := by
  constructor <;> rw [trimmed.rest]

theorem Grown.sameSettings {net net' : Network} (grown : Grown net net') :
    SameSettings net net' := by
  constructor <;> rw [grown.rest]

theorem sameSettings_readmitNodes (net : Network) (now : ℚ) :
    SameSettings net (net.readmitNodes now) := by
  unfold readmitNodes
  split <;> exact ⟨rfl, rfl⟩

theorem WithinBounds.readmitNodes {net : Network} (within : WithinBounds net) (now : ℚ) :
    WithinBounds (net.readmitNodes now) :=
  within.of_same (sameSettings_readmitNodes net now) (within.nodes.readmitNodes now)

theorem backs_close {minBackoff maxBackoff : ℚ} (node : Node) (backs : Backs minBackoff maxBackoff node) :
    Backs minBackoff maxBackoff node.close :=
  ⟨⟨backs.1.min, backs.1.max, backs.1.lower, backs.1.upper⟩, backs.2⟩

theorem WithinBounds.trimmed {net net' : Network} (within : WithinBounds net)
    (trimmed : Trimmed net net') : WithinBounds net' :=
  within.of_same trimmed.sameSettings (within.nodes.trimmed trimmed backs_close)

theorem WithinBounds.getNumberOfMostHealthyNodes {net : Network} (within : WithinBounds net)
    (count : Nat) (ω : Nat → Nat) (now : ℚ) :
    WithinBounds ((Network.getNumberOfMostHealthyNodes main count ω now).run net).2 := by
  obtain ⟨left, trimmed, same | same⟩ := run_getNumberOfMostHealthyNodes_cases main count ω now net
  · rw [same]
    exact within.trimmed trimmed
  · rw [same]
    exact (within.trimmed trimmed).readmitNodes now

/-- A call of `setNetwork` that meets the condition and returns makes no node, or makes it
within the bounds. -/
theorem backs_of_keepsBounds {net left net' : Network} {map : OrderedMap String AccountId}
    {ω : Nat → Nat} {now : ℚ} {fresh : List NodeRef} (within : WithinBounds net)
    (wellFormed : OnNodes (fun node => node.address.WellFormed) net)
    (keeps : KeepsBounds net ⟨.setNetwork map, ω, now⟩)
    (closable : Closable main net (fun r => isObsolete map (net.heap r)) net.nodes)
    (emptied : Emptied main map net left) (refilled : Refilled main map now left net' fresh) :
    ∀ entry ∈ missingFrom main map left, ∀ node,
      main.createNodeFromNetworkEntry left.minBackoff now entry.1 entry.2 = .ok node →
        Backs net.minBackoff net.maxBackoff node := by
  intro entry isMissing node created
  rcases keeps with default | known | unclosable | ⟨unread, member, e, unreadable⟩
  · rw [emptied.trimmed.sameSettings.min] at created
    rw [default]
    exact backs_created (default ▸ within.order) created
  · obtain ⟨inMap, unknown⟩ := emptied.mem_missingFrom isMissing
    obtain ⟨r, inNodes, same⟩ := known entry inMap
    exact absurd (List.mem_map.mpr ⟨r, inNodes, same⟩) unknown
  · exact absurd closable unclosable
  · -- the node of this entry could not have been made
    have isMissing : unread ∈ missingFrom main map left := by
      refine (mem_missingFrom emptied.known).mpr ⟨member, fun inLeft => ?_⟩
      obtain ⟨r, inNodes, same⟩ := List.mem_map.mp inLeft
      have printed : (left.heap r).address.toString = unread.1 := congrArg Prod.fst same
      have own := ((emptied.nodes r).mp inNodes).1
      rw [emptied.kept r inNodes] at printed
      rw [← printed, ManagedNodeAddress.fromString_toString (wellFormed r own)] at unreadable
      cases unreadable
    obtain ⟨node, made⟩ := refilled.made.created isMissing
    change createNodeFromNetworkEntry _ now unread.1 unread.2 = _ at made
    rw [createNodeFromNetworkEntry, unreadable] at made
    cases made

theorem withinBounds_setNetwork {net : Network} {map : OrderedMap String AccountId} {ω : Nat → Nat}
    {now : ℚ} (within : WithinBounds net) (keyed : Keyed main net)
    (wellFormed : OnNodes (fun node => node.address.WellFormed) net)
    (keeps : KeepsBounds net ⟨.setNetwork map, ω, now⟩) :
    WithinBounds ((setNetwork main map ω now).run net).2 := by
  cases returned : ((setNetwork main map ω now).run net).1 with
  | error e =>
      obtain ⟨left, trimmed, ⟨_, -, grown⟩ | ⟨ok, -⟩⟩ := run_setNetwork_cases main map ω now net
      · have within' := within.trimmed trimmed
        exact within'.of_same grown.sameSettings
          (within'.nodes.grown grown (keyed.listed.trimmed trimmed))
      · rw [returned] at ok
        cases ok
  | ok _ =>
      have closable := closable_of_run_setNetwork keyed returned
      obtain ⟨left, emptied, ran⟩ := run_setNetwork_of_recognizes keyed (serves_main map) closable
        (recognizes_main map net) ω now
      have filled := run_fillNetwork_refilled main map ω now left
      rw [ran] at returned ⊢
      generalize (fillNetwork main map ω now).run left = outcome at filled returned ⊢
      obtain ⟨e | _, net'⟩ := outcome
      · cases returned
      · obtain ⟨fresh, refilled⟩ := filled
        have listed := keyed.listed.trimmed emptied.trimmed
        have within' := within.trimmed emptied.trimmed
        have settings := emptied.trimmed.sameSettings
        have same : SameSettings left net' := by
          constructor
          · exact refilled.made.grown.sameSettings.min
          · exact refilled.made.grown.sameSettings.max
        refine within'.of_same same (within'.nodes.refilled refilled listed ?_)
        intro entry isMissing node created
        rw [settings.min, settings.max]
        exact backs_of_keepsBounds within wellFormed keeps closable emptied refilled entry isMissing
          node created

theorem withinBounds_setTransportSecurity {net : Network} {transportSecurity : Bool} {ω : Nat → Nat}
    {now : ℚ} (within : WithinBounds net) (keyed : Keyed main net)
    (keeps : KeepsBounds net ⟨.setTransportSecurity transportSecurity, ω, now⟩) :
    WithinBounds ((setTransportSecurity transportSecurity).run net).2 := by
  by_cases same : net.transportSecurity = transportSecurity
  · simp only [setTransportSecurity, Method.run_this_bind, if_pos same]
    exact within
  · obtain ⟨copies, net', ran, copied⟩ := run_setTransportSecurity keyed.listed same
    have settings : SameSettings net
        { net' with nodes := copies, healthyNodes := copies, transportSecurity } := by
      constructor
      · exact (congrArg Network.minBackoff copied.rest :)
      · exact (congrArg Network.maxBackoff copied.rest :)
    rw [ran]
    refine within.of_same settings fun r member => ?_
    have isCopy : net'.heap r ∈ copies.map net'.heap := List.mem_map_of_mem member
    rw [copied.copied] at isCopy
    obtain ⟨original, inNodes, isCopyOf⟩ := List.mem_map.mp isCopy
    change Backs net.minBackoff net.maxBackoff (net'.heap r)
    rw [← isCopyOf]
    rcases keeps with unchanged | none | equal
    · exact absurd unchanged same
    · have inNone : original ∈ net.nodes := inNodes
      rw [none] at inNone
      cases inNone
    · exact backs_copy equal transportSecurity (within.nodes original inNodes)

theorem withinBounds_managed {net : Network} {op : ManagedOp} {ω : Nat → Nat} {now : ℚ}
    (within : WithinBounds net) (inOrder : InOrder net ⟨.managed op, ω, now⟩)
    (keeps : KeepsBounds net ⟨.managed op, ω, now⟩) :
    WithinBounds ((op.method main ω now).run net).2 := by
  cases op with
  | increaseBackoff node =>
      have nodes := within.nodes.updateNode
        (fun _ backs => backs_increaseBackoff within.order now backs) node
      exact within.of_same ⟨rfl, rfl⟩ nodes
  | decreaseBackoff node =>
      have nodes := within.nodes.updateNode
        (fun _ backs => backs_decreaseBackoff within.order backs) node
      exact within.of_same ⟨rfl, rfl⟩ nodes
  | getNode key =>
      change WithinBounds ((do let _ ← Network.getNode key ω now : NetworkMethod Unit).run net).2
      rw [Method.run_bind_snd _ _ fun _ _ => rfl, run_getNode_snd]
      exact within.readmitNodes now
  | getNumberOfMostHealthyNodes count =>
      change WithinBounds ((do
        let _ ← Network.getNumberOfMostHealthyNodes main count ω now : NetworkMethod Unit).run net).2
      rw [Method.run_bind_snd _ _ fun _ _ => rfl]
      exact within.getNumberOfMostHealthyNodes count ω now
  | getChannel node =>
      have nodes := within.nodes.updateNode (f := Node.getChannel)
        (fun _ backs => ⟨⟨backs.1.min, backs.1.max, backs.1.lower, backs.1.upper⟩, backs.2⟩) node
      exact within.of_same ⟨rfl, rfl⟩ nodes
  | setMinBackoff minBackoff =>
      refine ⟨inOrder, fun r member => ?_⟩
      have listed : r ∈ net.nodes := member
      change Backs minBackoff net.maxBackoff
        (if r ∈ net.nodes then (net.heap r).setMinBackoff minBackoff else net.heap r)
      rw [if_pos listed]
      exact backs_setMinBackoff inOrder (within.nodes r listed)
  | setMaxBackoff maxBackoff =>
      refine ⟨inOrder, fun r member => ?_⟩
      have listed : r ∈ net.nodes := member
      change Backs net.minBackoff maxBackoff
        (if r ∈ net.nodes then (net.heap r).setMaxBackoff maxBackoff else net.heap r)
      rw [if_pos listed]
      exact backs_setMaxBackoff inOrder (keeps r listed) (within.nodes r listed)
  | setMaxNodeAttempts count => exact within.of_same ⟨rfl, rfl⟩ within.nodes
  | setNodeMinReadmitPeriod period => exact within.of_same ⟨rfl, rfl⟩ within.nodes
  | setNodeMaxReadmitPeriod period => exact within.of_same ⟨rfl, rfl⟩ within.nodes
  | setLedgerId ledgerId => exact within.of_same ⟨rfl, rfl⟩ within.nodes
  | close => exact within.of_same ⟨rfl, rfl⟩ fun r member => absurd member List.not_mem_nil

/-- The invariant with what it needs of the nodes. -/
structure Settled (net : Network) : Prop where
  keyed : Keyed main net
  wellFormed : OnNodes (fun node => node.address.WellFormed) net
  within : WithinBounds net

theorem withinBounds_mainStep {net : Network} {call : Call MainOp} (settled : Settled net)
    (inOrder : InOrder net call) (keeps : KeepsBounds net call) : WithinBounds (mainStep net call) := by
  obtain ⟨keyed, wellFormed, within⟩ := settled
  obtain ⟨op, draws, now⟩ := call
  cases op with
  | managed op => exact withinBounds_managed within inOrder keeps
  | setNetwork map => exact withinBounds_setNetwork within keyed wellFormed keeps
  | getNodeAccountIdsForExecute =>
      change WithinBounds ((do
        let _ ← Network.getNodeAccountIdsForExecute draws now : NetworkMethod Unit).run net).2
      rw [Method.run_bind_snd _ _ fun _ _ => rfl, run_getNodeAccountIdsForExecute_snd]
      exact within.getNumberOfMostHealthyNodes _ draws now
  | setTransportSecurity transportSecurity =>
      exact withinBounds_setTransportSecurity within keyed keeps
  | setMaxNodesPerTransaction count => exact within.of_same ⟨rfl, rfl⟩ within.nodes

theorem settled_step {net : Network} {call : Call MainOp} (settled : Settled net)
    (meets : InOrder net call ∧ KeepsBounds net call) : Settled (mainStep net call) where
  keyed := keyed_mainStep net call settled.keyed
  wellFormed := settled.wellFormed.mainStep settled.keyed wellFormed_kept wellFormed_main
    wellFormed_copy call
  within := withinBounds_mainStep settled meets.1 meets.2

theorem settled_create (start : ℚ) : Settled (create start) where
  keyed := (filed_create start).keyed
  wellFormed := fun _ member => absurd member List.not_mem_nil
  within := by
    refine ⟨?_, fun _ member => absurd member List.not_mem_nil⟩
    change (8000 : ℚ) ≤ 1000 * 60 * 60
    norm_num

/-- In a run whose calls meet the condition every listed node has the settings of the
network, and its backoff is between them. -/
theorem bounded_run (start : ℚ) (calls : List (Call MainOp))
    (meets : Guarded mainStep (fun net call => InOrder net call ∧ KeepsBounds net call)
      (create start) calls) :
    let net := runAll mainStep (create start) calls
    ∀ r ∈ net.nodes, Bounded net.minBackoff net.maxBackoff (net.heap r) := by
  intro net r member
  have settled : Settled net :=
    runAll_invariant (fun _ _ settled meets => settled_step settled meets) (settled_create start) meets
  exact (settled.within.nodes r member).1

/-- A node fails and recovers, and the settings change around its backoff. -/
def sampleSettings : List (Call MainOp) :=
  [⟨.setNetwork (OrderedMap.empty.set "10.0.0.1:50211" (.ofNum 3)), id, 0⟩,
    ⟨.managed (.increaseBackoff 0), id, 1⟩, ⟨.managed (.setMinBackoff 1000), id, 2⟩,
    ⟨.managed (.setMaxBackoff 20000), id, 3⟩, ⟨.managed (.decreaseBackoff 0), id, 4⟩,
    ⟨.setNetwork (OrderedMap.empty.set "10.0.0.1:50211" (.ofNum 3)), id, 20000⟩]

theorem sampleSettings_meet :
    Guarded mainStep (fun net call => InOrder net call ∧ KeepsBounds net call) (create 0)
      sampleSettings := by
  refine ⟨⟨trivial, .inl rfl⟩, ⟨trivial, trivial⟩, ⟨?_, trivial⟩, ⟨?_, ?_⟩, ⟨trivial, trivial⟩,
    ⟨trivial, .inr (.inl ?_)⟩, trivial⟩
  · change (1000 : ℚ) ≤ _
    decide +kernel
  · change _ ≤ (20000 : ℚ)
    decide +kernel
  · change ∀ r ∈ _, _ ≤ (20000 : ℚ)
    decide +kernel
  · decide +kernel

theorem sampleSettings_bounded :
    let net := runAll mainStep (create 0) sampleSettings
    ∀ r ∈ net.nodes, Bounded net.minBackoff net.maxBackoff (net.heap r) :=
  bounded_run 0 sampleSettings sampleSettings_meet

/-- A lower maximum leaves the backoff of a node above it; a node that is made after the
maximum was set, and a copy of a node, have another maximum. -/
theorem unbounded_nodes :
    let map : OrderedMap String AccountId := OrderedMap.empty.set "10.0.0.1:50211" (.ofNum 3)
    let lowered : List (Call MainOp) := [⟨.setNetwork map, id, 0⟩,
      ⟨.managed (.increaseBackoff 0), id, 0⟩, ⟨.managed (.setMaxBackoff 10000), id, 0⟩]
    let created : List (Call MainOp) :=
      [⟨.managed (.setMaxBackoff 10000), id, 0⟩, ⟨.setNetwork map, id, 0⟩]
    let copied : List (Call MainOp) := [⟨.setNetwork map, id, 0⟩, ⟨.setTransportSecurity true, id, 0⟩]
    (Guarded mainStep InOrder (create 0) lowered ∧ Guarded mainStep InOrder (create 0) created ∧
        Guarded mainStep InOrder (create 0) copied) ∧
      (∃ r ∈ (runAll mainStep (create 0) lowered).nodes,
        10000 < ((runAll mainStep (create 0) lowered).heap r).currentBackoff) ∧
      (∃ r ∈ (runAll mainStep (create 0) created).nodes,
        ((runAll mainStep (create 0) created).heap r).maxBackoff ≠ 10000) ∧
      ∃ r ∈ (runAll mainStep (create 0) copied).nodes,
        ((runAll mainStep (create 0) copied).heap r).maxBackoff ≠
          (runAll mainStep (create 0) copied).maxBackoff := by
  intro map lowered created copied
  have inOrder : ∀ net : Network, net.minBackoff = 8000 →
      InOrder net ⟨.managed (.setMaxBackoff 10000), id, 0⟩ := by
    intro net default
    change net.minBackoff ≤ 10000
    rw [default]
    norm_num
  refine ⟨⟨⟨trivial, trivial, inOrder _ ?_, trivial⟩, ⟨inOrder _ rfl, trivial, trivial⟩,
    trivial, trivial, trivial⟩, ?_, ?_, ?_⟩
  · decide +kernel
  · decide +kernel
  · decide +kernel
  · decide +kernel

end HederaSdk.Network
