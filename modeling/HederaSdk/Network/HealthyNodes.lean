import HederaSdk.Network.NodeInvariants

/-!
# The healthy nodes

`healthyNodes` is what is handed out without a key. It is edited in six ways: rebuilt by
`setNetwork`, appended to by a readmission, spliced by `increaseBackoff`, overwritten with
all copies by `setTransportSecurity`, and left alone by `close` and by a call of
`setNetwork` that throws. `HealthyOnly` is what is expected of it at a time.
-/

namespace HederaSdk.Network

open Library

variable {V : Type} {cls : NetworkClass V}

/-- The list of healthy nodes, at a time. -/
structure HealthyOnly (net : Network) (now : ℚ) : Prop where
  nodup : net.healthyNodes.Nodup
  listed : ∀ r ∈ net.healthyNodes, r ∈ net.nodes
  passed : ∀ r ∈ net.healthyNodes, (net.heap r).readmitTime ≤ now

theorem HealthyOnly.mono {net : Network} {earlier later : ℚ} (healthy : HealthyOnly net earlier)
    (order : earlier ≤ later) : HealthyOnly net later :=
  ⟨healthy.nodup, healthy.listed, fun r member => (healthy.passed r member).trans order⟩

theorem HealthyOnly.congr {net net' : Network} {now : ℚ} (healthy : HealthyOnly net now)
    (same : net'.healthyNodes = net.healthyNodes) (nodes : ∀ r ∈ net.healthyNodes, r ∈ net'.nodes)
    (times : ∀ r ∈ net.healthyNodes, (net'.heap r).readmitTime = (net.heap r).readmitTime) :
    HealthyOnly net' now := by
  refine ⟨same ▸ healthy.nodup, same ▸ nodes, ?_⟩
  rw [same]
  intro r member
  rw [times r member]
  exact healthy.passed r member

/-! ## Splicing -/

/-- The loop removes the node when it is listed once. -/
theorem spliceLoop_eq_erase {r : NodeRef} {nodes : List NodeRef} (nodup : nodes.Nodup) :
    spliceLoop r nodes = nodes.erase r := by
  fun_induction spliceLoop r nodes with
  | case1 => rfl
  | case2 => simp
  | case3 head other => simp [other]
  | case4 next rest inductionHypothesis =>
      have unlisted : r ∉ next :: rest := (List.nodup_cons.mp nodup).1
      have kept := inductionHypothesis (List.nodup_cons.mp (List.nodup_cons.mp nodup).2).2
      rw [kept, List.erase_cons_head, List.erase_of_not_mem fun member => unlisted (.tail _ member)]
  | case5 head next rest other inductionHypothesis =>
      have kept := inductionHypothesis (List.nodup_cons.mp nodup).2
      rw [kept]
      exact (List.erase_cons_tail (by simpa using other)).symm

/-! ## Readmission -/

theorem scanHealthy_snd (search : Bool) (readmitTime now : ℚ) (r : NodeRef) (nodes : List NodeRef)
    (next : ℚ) : (scanHealthy search readmitTime now r nodes next).2 = decide (r ∈ nodes) := by
  induction nodes generalizing next with
  | nil => simp [scanHealthy]
  | cons head rest inductionHypothesis =>
      rw [scanHealthy]
      by_cases same : r = head
      · simp [same]
      · rw [if_neg same, inductionHypothesis]
        simp [same]

/-- A node is added when it is not listed as healthy and its time has come. -/
theorem healthyNodes_readmitNode (heap : NodeRef → Node) (now : ℚ) (acc : Readmission) (r : NodeRef) :
    (readmitNode heap now acc r).healthyNodes =
      if r ∉ acc.healthyNodes ∧ (heap r).readmitTime ≤ now then acc.healthyNodes ++ [r]
      else acc.healthyNodes := by
  have found := scanHealthy_snd acc.searchForNextEarliestReadmitTime (heap r).readmitTime now r
    acc.healthyNodes acc.nextEarliestReadmitTime
  unfold readmitNode
  split <;> rename_i scanned <;> rw [scanned] at found
  · have listed : r ∈ acc.healthyNodes := by simpa using found
    rw [if_neg fun h => h.1 listed]
  · have unlisted : r ∉ acc.healthyNodes := by simpa using found
    simp only [unlisted, not_false_eq_true, true_and]

theorem HealthyOnly.readmitNodes {net : Network} {now : ℚ} (healthy : HealthyOnly net now) :
    HealthyOnly (net.readmitNodes now) now := by
  have folds (nodes : List NodeRef) (inNodes : ∀ r ∈ nodes, r ∈ net.nodes) (acc : Readmission)
      (healthy : HealthyOnly { net with healthyNodes := acc.healthyNodes } now) :
      HealthyOnly { net with healthyNodes := (nodes.foldl (readmitNode net.heap now) acc).healthyNodes }
        now := by
    induction nodes generalizing acc with
    | nil => exact healthy
    | cons r rest inductionHypothesis =>
        refine inductionHypothesis (fun r' member => inNodes r' (.tail _ member)) _ ?_
        rw [healthyNodes_readmitNode]
        split
        · rename_i admitted
          obtain ⟨unlisted, passed⟩ := admitted
          refine ⟨?_, ?_, ?_⟩
          · exact List.nodup_append.mpr ⟨healthy.nodup, List.nodup_singleton r,
              fun r' member r'' single => (List.mem_singleton.mp single) ▸
                fun same => unlisted (same ▸ member)⟩
          · intro r' member
            rcases List.mem_append.mp member with old | new
            · exact healthy.listed r' old
            · exact List.mem_singleton.mp new ▸ inNodes r List.mem_cons_self
          · intro r' member
            rcases List.mem_append.mp member with old | new
            · exact healthy.passed r' old
            · exact List.mem_singleton.mp new ▸ passed
        · exact healthy
  have all := folds net.nodes (fun _ member => member) ⟨net.healthyNodes, maxSafeInteger, true⟩ healthy
  unfold Network.readmitNodes
  split
  · exact ⟨all.nodup, all.listed, all.passed⟩
  · exact healthy

/-! ## The other operations -/

theorem HealthyOnly.increaseBackoff {net : Network} {now : ℚ} (healthy : HealthyOnly net now)
    (r : NodeRef) : HealthyOnly (net.increaseBackoff r now) now := by
  have spliced : (net.increaseBackoff r now).healthyNodes = net.healthyNodes.erase r :=
    spliceLoop_eq_erase healthy.nodup
  refine ⟨spliced ▸ healthy.nodup.erase r, ?_, ?_⟩ <;> rw [spliced] <;> intro r' member
  · exact healthy.listed r' (List.mem_of_mem_erase member)
  · obtain ⟨other, old⟩ := healthy.nodup.mem_erase_iff.mp member
    change (Function.update net.heap r _ r').readmitTime ≤ now
    rw [Function.update_of_ne other]
    exact healthy.passed r' old

theorem HealthyOnly.updateNode {net : Network} {now : ℚ} (healthy : HealthyOnly net now)
    {f : Node → Node} (keeps : ∀ node, (f node).readmitTime = node.readmitTime) (r : NodeRef) :
    HealthyOnly (net.updateNode r f) now := by
  refine healthy.congr rfl healthy.listed fun r' _ => ?_
  by_cases same : r' = r
  · subst same
    change (Function.update net.heap r' (f (net.heap r')) r').readmitTime = _
    rw [Function.update_self, keeps]
  · change (Function.update net.heap r _ r').readmitTime = _
    rw [Function.update_of_ne same]

theorem HealthyOnly.updateNodes {net : Network} {now : ℚ} (healthy : HealthyOnly net now)
    {f : Node → Node} (keeps : ∀ node, (f node).readmitTime = node.readmitTime) :
    HealthyOnly (net.updateNodes f) now := by
  refine healthy.congr rfl healthy.listed fun r _ => ?_
  change (if r ∈ net.nodes then f (net.heap r) else net.heap r).readmitTime = _
  split
  · exact keeps _
  · rfl

theorem healthyOnly_of_refilled {map : OrderedMap String V} {now : ℚ} {net net' : Network}
    {fresh : List NodeRef} (refilled : Refilled cls map now net net' fresh)
    (nodup : net'.nodes.Nodup) : HealthyOnly net' now := by
  refine ⟨refilled.healthyNodes ▸ nodup.filter _, ?_, ?_⟩ <;> rw [refilled.healthyNodes] <;>
    intro r member
  · exact (List.mem_filter.mp member).1
  · exact of_decide_eq_true (List.mem_filter.mp member).2

/-! ## Open channels -/

/-- A node that is still listed was listed before, and has not lost an open channel. -/
structure StaysOpen (net net' : Network) : Prop where
  allocated : net.allocated ≤ net'.allocated
  kept : ∀ r ∈ net'.nodes, r < net.allocated → r ∈ net.nodes ∧
    ∀ channel, (net.heap r).channel = some channel → (net'.heap r).channel = some channel

theorem StaysOpen.refl (net : Network) : StaysOpen net net :=
  ⟨le_rfl, fun _ member _ => ⟨member, fun _ => id⟩⟩

theorem StaysOpen.trans {net net' net'' : Network} (first : StaysOpen net net')
    (second : StaysOpen net' net'') : StaysOpen net net'' where
  allocated := first.allocated.trans second.allocated
  kept := by
    intro r member old
    obtain ⟨member', open'⟩ := second.kept r member (old.trans_le first.allocated)
    obtain ⟨member'', open''⟩ := first.kept r member' old
    exact ⟨member'', fun channel was => open' channel (open'' channel was)⟩

theorem staysOpen_of_heap {net net' : Network} (allocated : net.allocated ≤ net'.allocated)
    (nodes : net'.nodes = net.nodes)
    (heap : ∀ r channel, (net.heap r).channel = some channel → (net'.heap r).channel = some channel) :
    StaysOpen net net' :=
  ⟨allocated, fun r member _ => ⟨nodes ▸ member, heap r⟩⟩

theorem staysOpen_updateNode {f : Node → Node}
    (keeps : ∀ node channel, node.channel = some channel → (f node).channel = some channel)
    (net : Network) (r : NodeRef) : StaysOpen net (net.updateNode r f) := by
  refine staysOpen_of_heap le_rfl rfl fun r' channel was => ?_
  by_cases same : r' = r
  · subst same
    change (Function.update net.heap r' (f (net.heap r')) r').channel = _
    rw [Function.update_self]
    exact keeps _ channel was
  · change (Function.update net.heap r _ r').channel = _
    rw [Function.update_of_ne same]
    exact was

theorem staysOpen_updateNodes {f : Node → Node}
    (keeps : ∀ node channel, node.channel = some channel → (f node).channel = some channel)
    (net : Network) : StaysOpen net (net.updateNodes f) := by
  refine staysOpen_of_heap le_rfl rfl fun r channel was => ?_
  change (if r ∈ net.nodes then f (net.heap r) else net.heap r).channel = _
  split
  · exact keeps _ channel was
  · exact was

theorem staysOpen_readmitNodes (net : Network) (now : ℚ) : StaysOpen net (net.readmitNodes now) := by
  unfold Network.readmitNodes
  split <;> exact staysOpen_of_heap le_rfl rfl fun _ _ => id

/-! ## One call -/

/-- The condition on a call: nothing is closed while nodes are listed as healthy; a change
of the transport security finds all nodes healthy; a new map finds the nodes it removes
filed, and when one of its addresses cannot be read it removes no healthy node. -/
def Harmless (net : Network) (call : Call MainOp) : Prop :=
  match call.op with
  | .managed .close => net.healthyNodes = []
  | .setTransportSecurity transportSecurity =>
      net.transportSecurity = transportSecurity ∨
        ∀ r ∈ net.nodes, (net.heap r).isHealthy call.now = true
  | .setNetwork map =>
      Closable main net (fun r => isObsolete map (net.heap r)) net.nodes ∧
        ((∀ entry ∈ map.entries, ∃ address, ManagedNodeAddress.fromString entry.1 = .ok address) ∨
          ∀ r ∈ net.healthyNodes, isObsolete map (net.heap r) = false)
  | _ => True

/-- A call that leaves the nodes and both lists alone. -/
theorem harmless_of_same {net net' : Network} {now : ℚ} (healthy : HealthyOnly net now)
    (heap : net'.heap = net.heap) (allocated : net'.allocated = net.allocated)
    (nodes : net'.nodes = net.nodes) (healthyNodes : net'.healthyNodes = net.healthyNodes) :
    HealthyOnly net' now ∧ StaysOpen net net' := by
  constructor
  · exact healthy.congr healthyNodes (nodes ▸ healthy.listed) fun r _ => by rw [heap]
  · exact staysOpen_of_heap allocated.ge nodes fun r channel was => by rw [heap]; exact was

theorem harmless_managed {net : Network} {now : ℚ} {op : ManagedOp} {ω : Nat → Nat} (healthy : HealthyOnly net now)
    (uncounted : OnNodes (fun node => node.badGrpcStatusCount = 0) net)
    (harmless : Harmless net ⟨.managed op, ω, now⟩) :
    HealthyOnly ((op.method main ω now).run net).2 now ∧
      StaysOpen net ((op.method main ω now).run net).2 := by
  cases op with
  | increaseBackoff node =>
      have staysOpen := staysOpen_updateNode (f := (·.increaseBackoff now)) (fun _ _ => id) net node
      exact ⟨healthy.increaseBackoff node, staysOpen.allocated, staysOpen.kept⟩
  | decreaseBackoff node =>
      exact ⟨healthy.updateNode (f := Node.decreaseBackoff) (fun _ => rfl) node,
        staysOpen_updateNode (f := Node.decreaseBackoff) (fun _ _ => id) net node⟩
  | getNode key =>
      change HealthyOnly ((do let _ ← Network.getNode key ω now : NetworkMethod Unit).run net).2 now ∧
        StaysOpen net ((do let _ ← Network.getNode key ω now : NetworkMethod Unit).run net).2
      rw [Method.run_bind_snd _ _ fun _ _ => rfl, run_getNode_snd]
      exact ⟨healthy.readmitNodes, staysOpen_readmitNodes net now⟩
  | getNumberOfMostHealthyNodes count =>
      change HealthyOnly ((do let _ ← Network.getNumberOfMostHealthyNodes main count ω now :
          NetworkMethod Unit).run net).2 now ∧ StaysOpen net ((do
        let _ ← Network.getNumberOfMostHealthyNodes main count ω now : NetworkMethod Unit).run net).2
      rw [Method.run_bind_snd _ _ fun _ _ => rfl,
        run_getNumberOfMostHealthyNodes_of_uncounted main uncounted]
      exact ⟨healthy.readmitNodes, staysOpen_readmitNodes net now⟩
  | getChannel node =>
      refine ⟨healthy.updateNode (f := Node.getChannel) (fun _ => rfl) node,
        staysOpen_updateNode (f := Node.getChannel) ?_ net node⟩
      intro node channel was
      rw [Node.getChannel, was]
      rfl
  | setMinBackoff minBackoff =>
      have same : HealthyOnly { net with minBackoff } now :=
        ⟨healthy.nodup, healthy.listed, healthy.passed⟩
      have staysOpen := staysOpen_updateNodes (f := (·.setMinBackoff minBackoff))
        (fun _ _ => id) { net with minBackoff }
      exact ⟨same.updateNodes (f := (·.setMinBackoff minBackoff)) fun _ => rfl,
        staysOpen.allocated, staysOpen.kept⟩
  | setMaxBackoff maxBackoff =>
      have same : HealthyOnly { net with maxBackoff } now :=
        ⟨healthy.nodup, healthy.listed, healthy.passed⟩
      have staysOpen := staysOpen_updateNodes (f := (·.setMaxBackoff maxBackoff))
        (fun _ _ => id) { net with maxBackoff }
      exact ⟨same.updateNodes (f := (·.setMaxBackoff maxBackoff)) fun _ => rfl,
        staysOpen.allocated, staysOpen.kept⟩
  | setMaxNodeAttempts count => exact harmless_of_same healthy rfl rfl rfl rfl
  | setNodeMinReadmitPeriod period => exact harmless_of_same healthy rfl rfl rfl rfl
  | setNodeMaxReadmitPeriod period => exact harmless_of_same healthy rfl rfl rfl rfl
  | setLedgerId ledgerId => exact harmless_of_same healthy rfl rfl rfl rfl
  | close =>
      have none : net.healthyNodes = [] := harmless
      refine ⟨⟨healthy.nodup, fun r member => ?_, fun r member => ?_⟩, le_rfl,
        fun r member => absurd member List.not_mem_nil⟩ <;>
      · have listed : r ∈ net.healthyNodes := member
        rw [none] at listed
        cases listed

section Call

variable {net : Network} {now : ℚ} (keyed : Keyed main net)
include keyed

/-- The network that a harmless call of `setNetwork` fills, and what comes of it. -/
theorem harmless_setNetwork {map : OrderedMap String AccountId} {ω : Nat → Nat}
    (healthy : HealthyOnly net now) (harmless : Harmless net ⟨.setNetwork map, ω, now⟩) :
    HealthyOnly ((setNetwork main map ω now).run net).2 now ∧
      StaysOpen net ((setNetwork main map ω now).run net).2 := by
  obtain ⟨closable, readable⟩ := harmless
  have keyed' := keyed_setNetwork map ω now net keyed
  obtain ⟨left, trimmed, nodes, heap, ran⟩ := run_setNetwork_of_closable keyed closable ω now
  have stays : ∀ r ∈ left.nodes, r ∈ net.nodes ∧ left.heap r = net.heap r := by
    intro r member
    rw [nodes, List.mem_filter] at member
    refine ⟨member.1, ?_⟩
    rw [heap, if_neg]
    rintro ⟨-, obsolete⟩
    rw [obsolete] at member
    cases member.2
  have filled := run_fillNetwork_refilled main map ω now left
  rw [ran] at keyed' ⊢
  generalize (fillNetwork main map ω now).run left = outcome at filled keyed' ⊢
  obtain ⟨e | _, net'⟩ := outcome
  · obtain ⟨grown, entry, isMissing, failed⟩ := filled
    have unreadable := error_of_createNodeFromNetworkEntry failed
    have kept := readable.resolve_left fun all => by
      obtain ⟨address, read⟩ := all entry (List.mem_of_mem_filter isMissing)
      rw [read] at unreadable
      cases unreadable
    have sameNodes : net'.nodes = left.nodes := by rw [grown.rest]
    have sameHeap : ∀ r ∈ left.nodes, net'.heap r = net.heap r := fun r member =>
      (grown.heap r (trimmed.allocated ▸ keyed.listed.allocated r (stays r member).1)).trans
        (stays r member).2
    have inLeft : ∀ r ∈ net.healthyNodes, r ∈ left.nodes := by
      intro r member
      rw [nodes, List.mem_filter]
      refine ⟨healthy.listed r member, ?_⟩
      rw [Bool.not_eq_true']
      exact kept r member
    constructor
    · refine healthy.congr ?_ ?_ fun r member => ?_
      · rw [grown.rest, trimmed.rest]
      · exact sameNodes ▸ inLeft
      · rw [sameHeap r (inLeft r member)]
    · refine ⟨trimmed.allocated ▸ grown.allocated, fun r member _ => ?_⟩
      have left := sameNodes ▸ member
      exact ⟨(stays r left).1, fun channel was => by rw [sameHeap r left]; exact was⟩
  · obtain ⟨fresh, refilled⟩ := filled
    refine ⟨healthyOnly_of_refilled refilled keyed'.listed.nodup, ?_⟩
    refine ⟨trimmed.allocated ▸ refilled.made.grown.allocated, fun r member old => ?_⟩
    rw [← trimmed.allocated] at old
    rcases List.mem_append.mp (refilled.nodes.mem_iff.mp member) with isLeft | isFresh
    · have sameHeap : net'.heap r = left.heap r := refilled.made.grown.heap r old
      obtain ⟨inNodes, same⟩ := stays r isLeft
      exact ⟨inNodes, fun channel was => by rw [sameHeap, same]; exact was⟩
    · exact absurd old (Nat.not_lt.mpr (refilled.made.new r isFresh).1)

theorem harmless_setTransportSecurity {transportSecurity : Bool} {ω : Nat → Nat}
    (healthy : HealthyOnly net now)
    (harmless : Harmless net ⟨.setTransportSecurity transportSecurity, ω, now⟩) :
    HealthyOnly ((setTransportSecurity transportSecurity).run net).2 now ∧
      StaysOpen net ((setTransportSecurity transportSecurity).run net).2 := by
  by_cases same : net.transportSecurity = transportSecurity
  · simp only [setTransportSecurity, Method.run_this_bind, if_pos same]
    exact ⟨healthy, .refl net⟩
  · obtain ⟨copies, net', ran, copied⟩ := run_setTransportSecurity keyed.listed same
    have all := harmless.resolve_left same
    rw [ran]
    refine ⟨⟨copied.nodup, fun _ => id, fun r member => ?_⟩, copied.allocated, fun r member old => ?_⟩
    · have isCopy : net'.heap r ∈ copies.map net'.heap := List.mem_map_of_mem member
      rw [copied.copied] at isCopy
      obtain ⟨original, inNodes, same⟩ := List.mem_map.mp isCopy
      have time : (net'.heap r).readmitTime = (net.heap original).readmitTime := by
        rw [← same]
        cases transportSecurity <;> rfl
      exact time.trans_le (of_decide_eq_true (all original inNodes))
    · exact absurd old (Nat.not_lt.mpr (copied.new r member).1)

theorem harmless_mainStep {call : Call MainOp} (healthy : HealthyOnly net call.now)
    (uncounted : OnNodes (fun node => node.badGrpcStatusCount = 0) net) (harmless : Harmless net call) :
    HealthyOnly (mainStep net call) call.now ∧ StaysOpen net (mainStep net call) := by
  obtain ⟨op, draws, now⟩ := call
  cases op with
  | managed op => exact harmless_managed healthy uncounted harmless
  | setNetwork map => exact harmless_setNetwork keyed healthy harmless
  | getNodeAccountIdsForExecute =>
      change HealthyOnly ((do let _ ← Network.getNodeAccountIdsForExecute draws now :
          NetworkMethod Unit).run net).2 now ∧ StaysOpen net ((do
        let _ ← Network.getNodeAccountIdsForExecute draws now : NetworkMethod Unit).run net).2
      rw [Method.run_bind_snd _ _ fun _ _ => rfl, run_getNodeAccountIdsForExecute_snd,
        run_getNumberOfMostHealthyNodes_of_uncounted main uncounted]
      exact ⟨healthy.readmitNodes, staysOpen_readmitNodes net now⟩
  | setTransportSecurity transportSecurity =>
      exact harmless_setTransportSecurity keyed healthy harmless
  | setMaxNodesPerTransaction count => exact harmless_of_same healthy rfl rfl rfl rfl

end Call

/-! ## Runs -/

/-- A network and the time of the last call. -/
structure Clocked where
  network : Network
  clock : ℚ

namespace Clocked

def step (s : Clocked) (call : Call MainOp) : Clocked := ⟨mainStep s.network call, call.now⟩

/-- Time does not go back, and the call does no harm. -/
def Meets (s : Clocked) (call : Call MainOp) : Prop :=
  s.clock ≤ call.now ∧ Harmless s.network call

structure Sound (s : Clocked) : Prop where
  keyed : Keyed main s.network
  uncounted : OnNodes (fun node => node.badGrpcStatusCount = 0) s.network
  healthy : HealthyOnly s.network s.clock

theorem Sound.step {s : Clocked} {call : Call MainOp} (sound : s.Sound) (meets : s.Meets call) :
    (s.step call).Sound ∧ StaysOpen s.network (s.step call).network := by
  obtain ⟨healthy, staysOpen⟩ :=
    harmless_mainStep sound.keyed (sound.healthy.mono meets.1) sound.uncounted meets.2
  refine ⟨⟨keyed_mainStep _ call sound.keyed, ?_, healthy⟩, staysOpen⟩
  exact sound.uncounted.mainStep sound.keyed uncounted_kept uncounted_main uncounted_copy call

theorem sound_create (start : ℚ) : Sound ⟨create start, start⟩ where
  keyed := (filed_create start).keyed
  uncounted := fun _ member => absurd member List.not_mem_nil
  healthy := ⟨List.nodup_nil, fun _ member => absurd member List.not_mem_nil,
    fun _ member => absurd member List.not_mem_nil⟩

theorem Sound.run {s : Clocked} {calls : List (Call MainOp)} (sound : s.Sound)
    (meets : Guarded Clocked.step Meets s calls) :
    (runAll Clocked.step s calls).Sound ∧
      StaysOpen s.network (runAll Clocked.step s calls).network := by
  induction calls generalizing s with
  | nil => exact ⟨sound, .refl _⟩
  | cons call rest inductionHypothesis =>
      obtain ⟨sound', first⟩ := sound.step meets.1
      obtain ⟨sound'', second⟩ := inductionHypothesis sound' meets.2
      exact ⟨sound'', first.trans second⟩

end Clocked

theorem mem_healthyNodes_of_getNode {net : Network} {ω : Nat → Nat} {now : ℚ} {r : NodeRef}
    (handed : ((Network.getNode none ω now).run net).1 = .ok (some r)) :
    r ∈ (net.readmitNodes now).healthyNodes := by
  simp only [Network.getNode, Method.run_update_bind, Method.run_this_bind] at handed
  split at handed
  · cases handed
  · have picked : randomElement (ω 0) (net.readmitNodes now).healthyNodes = some r :=
      Except.ok.inj handed
    exact randomElement_mem picked

theorem mem_of_mem_pickNodes {heap : NodeRef → Node} {ω : Nat → Nat} {count : Nat}
    {pool : List NodeRef} {r : NodeRef} (member : r ∈ pickNodes cls heap ω count pool) : r ∈ pool := by
  induction count generalizing pool with
  | zero => cases member
  | succ count inductionHypothesis =>
      rw [pickNodes] at member
      cases picked : randomElement (ω count) pool with
      | none =>
          rw [picked] at member
          cases member
      | some selected =>
          rw [picked] at member
          rcases List.mem_cons.mp member with rfl | later
          · exact randomElement_mem picked
          · exact List.mem_of_mem_filter (inductionHypothesis later)

theorem mem_healthyNodes_of_getNodeAccountIdsForExecute {net : Network} {ω : Nat → Nat} {now : ℚ}
    {ids : List AccountId} (uncounted : OnNodes (fun node => node.badGrpcStatusCount = 0) net)
    (handed : ((Network.getNodeAccountIdsForExecute ω now).run net).1 = .ok ids) {id : AccountId}
    (member : id ∈ ids) :
    ∃ r ∈ (net.readmitNodes now).healthyNodes, (net.heap r).accountId = id := by
  have heap : (net.readmitNodes now).heap = net.heap := by
    unfold Network.readmitNodes
    split <;> rfl
  have ran := run_getNumberOfMostHealthyNodes_of_uncounted main uncounted
    net.getNumberOfNodesForTransaction ω now
  rw [Network.getNodeAccountIdsForExecute, Method.run_this_bind, Method.run_bind_ok ran,
    Method.run_this_bind, Method.run_pure] at handed
  rw [← Except.ok.inj handed] at member
  obtain ⟨r, picked, rfl⟩ := List.mem_map.mp member
  exact ⟨r, mem_of_mem_pickNodes picked, by rw [heap]⟩

/-- In a run whose calls meet the condition the healthy nodes are different, listed, never
closed and not backing off, and only such nodes are handed out. -/
theorem healthyNodes_run (start : ℚ) (calls : List (Call MainOp))
    (meets : Guarded Clocked.step Clocked.Meets ⟨create start, start⟩ calls) :
    let s := runAll Clocked.step ⟨create start, start⟩ calls
    HealthyOnly s.network s.clock ∧
      (∀ first rest, calls = first ++ rest →
        let earlier := (runAll Clocked.step ⟨create start, start⟩ first).network
        ∀ r ∈ s.network.healthyNodes, r < earlier.allocated → ∀ channel,
          (earlier.heap r).channel = some channel → (s.network.heap r).channel = some channel) ∧
      ∀ draws now, s.clock ≤ now →
        (∀ r, ((Network.getNode none draws now).run s.network).1 = .ok (some r) →
          r ∈ s.network.nodes ∧ (s.network.heap r).readmitTime ≤ now) ∧
        (∀ ids, ((Network.getNodeAccountIdsForExecute draws now).run s.network).1 = .ok ids →
          ∀ id ∈ ids, ∃ r ∈ s.network.nodes,
            (s.network.heap r).accountId = id ∧ (s.network.heap r).readmitTime ≤ now) := by
  intro s
  obtain ⟨sound, -⟩ := (Clocked.sound_create start).run meets
  refine ⟨sound.healthy, ?_, fun draws now later => ?_⟩
  · rintro first rest rfl earlier r member old channel was
    obtain ⟨sound', -⟩ := (Clocked.sound_create start).run meets.initial
    obtain ⟨-, staysOpen⟩ := sound'.run meets.later
    change StaysOpen earlier _ at staysOpen
    rw [← runAll_append] at staysOpen
    exact (staysOpen.kept r (sound.healthy.listed r member) old).2 channel was
  · have healthy := (sound.healthy.mono later).readmitNodes
    have same : (s.network.readmitNodes now).nodes = s.network.nodes ∧
        (s.network.readmitNodes now).heap = s.network.heap := by
      unfold Network.readmitNodes
      split <;> exact ⟨rfl, rfl⟩
    have good : ∀ r ∈ (s.network.readmitNodes now).healthyNodes,
        r ∈ s.network.nodes ∧ (s.network.heap r).readmitTime ≤ now := fun r member =>
      ⟨same.1 ▸ healthy.listed r member, same.2 ▸ healthy.passed r member⟩
    refine ⟨fun r handed => good r (mem_healthyNodes_of_getNode handed), fun ids handed id member => ?_⟩
    obtain ⟨r, isHealthy, own⟩ :=
      mem_healthyNodes_of_getNodeAccountIdsForExecute sound.uncounted handed member
    exact ⟨r, (good r isHealthy).1, own, (good r isHealthy).2⟩

/-- One node, which fails, is readmitted and changes its port. -/
def sampleCalls : List (Call MainOp) :=
  [⟨.setNetwork (OrderedMap.empty.set "10.0.0.1:50211" (.ofNum 3)), id, 0⟩,
    ⟨.managed (.increaseBackoff 0), id, 1⟩, ⟨.getNodeAccountIdsForExecute, id, 20000⟩,
    ⟨.setTransportSecurity true, id, 20000⟩]

theorem sampleCalls_meet : Guarded Clocked.step Clocked.Meets ⟨create 0, 0⟩ sampleCalls := by
  refine ⟨⟨le_rfl, ?_, .inr ?_⟩, ⟨by decide +kernel, trivial⟩, ⟨by decide +kernel, trivial⟩,
    ⟨by decide +kernel, .inr ?_⟩, trivial⟩
  · intro before r after listed
    cases before <;> cases listed
  · intro r member
    cases member
  · decide +kernel

theorem sampleCalls_healthy :
    let s := runAll Clocked.step ⟨create 0, 0⟩ sampleCalls
    HealthyOnly s.network s.clock :=
  (healthyNodes_run 0 sampleCalls sampleCalls_meet).1

/-- Closing the network leaves its node among the healthy ones, and a change of the transport
security hands out a node that backs off. -/
theorem unhealthy_nodes_handed_out :
    let map : OrderedMap String AccountId := OrderedMap.empty.set "10.0.0.1:50211" (.ofNum 3)
    let closing : List (Call MainOp) := [⟨.setNetwork map, id, 0⟩, ⟨.managed .close, id, 1⟩]
    let changing : List (Call MainOp) := [⟨.setNetwork map, id, 0⟩,
      ⟨.managed (.increaseBackoff 0), id, 1⟩, ⟨.setTransportSecurity true, id, 2⟩]
    (closing.map Call.now).Pairwise (· ≤ ·) ∧ (changing.map Call.now).Pairwise (· ≤ ·) ∧
      (¬ ∀ r ∈ (runAll mainStep (create 0) closing).healthyNodes,
        r ∈ (runAll mainStep (create 0) closing).nodes) ∧
      ((Network.getNode none id 2).run (runAll mainStep (create 0) changing)).1 = .ok (some 1) ∧
      ¬ ((runAll mainStep (create 0) changing).heap 1).readmitTime ≤ 2 := by
  decide +kernel

end HederaSdk.Network
