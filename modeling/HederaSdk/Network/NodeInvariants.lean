import HederaSdk.Library.Text
import HederaSdk.Network.Closing

/-!
# Invariants of the nodes

A property that a new node has and that no method of a node breaks holds of every listed
node, whatever the calls. Two such properties: no failure of a node was ever counted, and
an address reads back as it is printed.
-/

namespace HederaSdk

open Library Library.Text

namespace ManagedNodeAddress

/-- What a host has to be, so that the address reads back. -/
def WellFormed (a : ManagedNodeAddress) : Prop :=
  a.address ≠ "" ∧ ∀ c ∈ a.address.toList, isJsWhitespace c = false

theorem wellFormed_of_fromString {text : String} {a : ManagedNodeAddress}
    (read : fromString text = .ok a) : a.WellFormed := by
  unfold fromString at read
  simp only at read
  split at read
  · rename_i host _
    split at read
    · rename_i shape
      obtain ⟨-, nonempty, printable⟩ := shape
      cases read
      constructor
      · simpa [String.ext_iff] using nonempty
      · simpa [List.all_eq_true] using printable
    · cases read
  · cases read

theorem fromString_toString {a : ManagedNodeAddress} (wellFormed : a.WellFormed) :
    fromString a.toString = .ok a := by
  obtain ⟨address, port⟩ := a
  obtain ⟨nonempty, printable⟩ := wellFormed
  have text : (toString ⟨address, port⟩).toList.reverse =
      (decimal port).reverse ++ ':' :: address.toList.reverse := by
    rw [decimal_eq, if_pos (Int.natCast_nonneg port)]
    simp only [toString, Nat.toString_eq_repr, String.toList_append, Nat.toList_repr, Int.toNat_natCast,
      List.reverse_append, List.append_assoc]
    rfl
  have digits : ∀ c ∈ (decimal port).reverse, c.isDigit = true := fun c member =>
    isDigit_of_mem_decimal (Int.natCast_nonneg port) (List.mem_reverse.mp member)
  have host : address.toList.reverse ≠ [] := by
    intro empty
    exact nonempty (String.toList_inj.mp (List.reverse_eq_nil_iff.mp empty))
  have value : (decimal port).foldl (fun n d => 10 * n + (d.toNat - 48)) 0 = port := by
    have read : Nat.ofDigitChars 10 (Nat.toDigits 10 port) 0 = port := by simp
    rw [decimal_eq, if_pos (Int.natCast_nonneg port)]
    exact read
  have colon : Char.isDigit ':' = false := rfl
  unfold fromString
  simp only [text, takeWhile_append_stop colon, dropWhile_append_stop colon, takeWhile_all digits,
    dropWhile_all digits, List.nil_append, List.reverse_reverse, value]
  rw [if_pos]
  · simp
  · refine ⟨decimal_ne_nil _, host, ?_⟩
    simpa [List.all_eq_true] using printable
end ManagedNodeAddress

namespace Network

variable {V : Type} {cls : NetworkClass V} {P : Node → Prop}

/-- No method of a node breaks the property. -/
structure KeptByMethods (P : Node → Prop) : Prop where
  increaseBackoff : ∀ node now, P node → P (node.increaseBackoff now)
  decreaseBackoff : ∀ node, P node → P node.decreaseBackoff
  getChannel : ∀ node, P node → P node.getChannel
  setMinBackoff : ∀ node minBackoff, P node → P (node.setMinBackoff minBackoff)
  setMaxBackoff : ∀ node maxBackoff, P node → P (node.setMaxBackoff maxBackoff)
  close : ∀ node, P node → P node.close

/-- Every new node has the property. -/
def HeldByNew (cls : NetworkClass V) (P : Node → Prop) : Prop :=
  ∀ minBackoff now entry value node,
    cls.createNodeFromNetworkEntry minBackoff now entry value = .ok node → P node

/-- Every listed node has the property. -/
def OnNodes (P : Node → Prop) (net : Network) : Prop := ∀ r ∈ net.nodes, P (net.heap r)

/-! ## The index -/

theorem sameFiling_updateNodes {net : Network} {f : Node → Node}
    (keeps : ∀ node, cls.getKey (f node) = cls.getKey node) :
    SameFiling cls net (net.updateNodes f) where
  nodes := rfl
  network := rfl
  allocated := le_rfl
  keys := by
    intro r _
    change cls.getKey (if r ∈ net.nodes then f (net.heap r) else net.heap r) = _
    split
    · exact keeps _
    · rfl

theorem keyed_close (net : Network) : Keyed cls net.close where
  listed := ⟨List.nodup_nil, by simp [Network.close]⟩
  tight := OrderedMap.tight_empty
  keyed := by simp [Network.close]

theorem keyed_managed (op : ManagedOp) (ω : Nat → Nat) (now : ℚ) :
    Method.Keeps (Keyed cls) (op.method cls ω now) := by
  cases op with
  | increaseBackoff node =>
      exact .update fun net keyed => keyed.congr (sameFiling_increaseBackoff node now net)
  | decreaseBackoff node =>
      exact .update fun net keyed => keyed.congr (sameFiling_decreaseBackoff node net)
  | getNode key => exact .bind (keyed_getNode key ω now) fun _ => .pure _
  | getNumberOfMostHealthyNodes count =>
      exact .bind (keyed_getNumberOfMostHealthyNodes count ω now) fun _ => .pure _
  | getChannel node =>
      exact .update fun net keyed => keyed.congr
        (sameFiling_updateNode (f := Node.getChannel) (fun _ => cls.getKey_congr _ _ rfl rfl) node)
  | setMinBackoff minBackoff =>
      refine .update fun net keyed => ?_
      have same : Keyed cls { net with minBackoff } :=
        keyed.congr ⟨rfl, rfl, le_rfl, fun _ _ => rfl⟩
      exact same.congr (sameFiling_updateNodes fun _ => cls.getKey_congr _ _ rfl rfl)
  | setMaxBackoff maxBackoff =>
      refine .update fun net keyed => ?_
      have same : Keyed cls { net with maxBackoff } :=
        keyed.congr ⟨rfl, rfl, le_rfl, fun _ _ => rfl⟩
      exact same.congr (sameFiling_updateNodes fun _ => cls.getKey_congr _ _ rfl rfl)
  | setMaxNodeAttempts count =>
      exact .update fun net keyed => keyed.congr ⟨rfl, rfl, le_rfl, fun _ _ => rfl⟩
  | setNodeMinReadmitPeriod period =>
      exact .update fun net keyed => keyed.congr ⟨rfl, rfl, le_rfl, fun _ _ => rfl⟩
  | setNodeMaxReadmitPeriod period =>
      exact .update fun net keyed => keyed.congr ⟨rfl, rfl, le_rfl, fun _ _ => rfl⟩
  | setLedgerId ledgerId =>
      exact .update fun net keyed => keyed.congr ⟨rfl, rfl, le_rfl, fun _ _ => rfl⟩
  | close => exact .update fun net _ => keyed_close net

theorem keyed_mainStep (net : Network) (call : Call MainOp) (keyed : Keyed main net) :
    Keyed main (mainStep net call) := by
  obtain ⟨op, draws, now⟩ := call
  cases op with
  | managed op => exact keyed_managed op draws now net keyed
  | setNetwork map => exact keyed_setNetwork map draws now net keyed
  | getNodeAccountIdsForExecute =>
      exact keyed_step net ⟨.getNodeAccountIdsForExecute, draws, now⟩ keyed
  | setTransportSecurity transportSecurity => exact keyed_setTransportSecurity _ net keyed
  | setMaxNodesPerTransaction count => exact keyed.congr ⟨rfl, rfl, le_rfl, fun _ _ => rfl⟩

theorem keyed_mirrorStep (net : Network) (call : Call MirrorOp) (keyed : Keyed mirror net) :
    Keyed mirror (mirrorStep net call) := by
  obtain ⟨op, draws, now⟩ := call
  cases op with
  | managed op => exact keyed_managed op draws now net keyed
  | setNetwork network => exact keyed_setNetwork _ draws now net keyed
  | getNextMirrorNode =>
      exact Method.Keeps.bind (.bind (keyed_getNumberOfMostHealthyNodes 1 draws now) fun _ => .pure _)
        (fun _ => .pure _) net keyed

/-! ## The operations -/

theorem OnNodes.updateNode {net : Network} {f : Node → Node} (on : OnNodes P net)
    (keeps : ∀ node, P node → P (f node)) (r : NodeRef) : OnNodes P (net.updateNode r f) := by
  intro r' member
  by_cases same : r' = r
  · subst same
    change P (Function.update net.heap r' (f (net.heap r')) r')
    rw [Function.update_self]
    exact keeps _ (on r' member)
  · change P (Function.update net.heap r _ r')
    rw [Function.update_of_ne same]
    exact on r' member

theorem OnNodes.updateNodes {net : Network} {f : Node → Node} (on : OnNodes P net)
    (keeps : ∀ node, P node → P (f node)) : OnNodes P (net.updateNodes f) := by
  intro r member
  have listed : r ∈ net.nodes := member
  change P (if r ∈ net.nodes then f (net.heap r) else net.heap r)
  rw [if_pos listed]
  exact keeps _ (on r listed)

theorem OnNodes.trimmed {net net' : Network} (on : OnNodes P net) (trimmed : Trimmed net net')
    (close : ∀ node, P node → P node.close) : OnNodes P net' := by
  intro r member
  have old := on r (trimmed.nodes.mem member)
  rcases trimmed.heap r with same | closed
  · exact same ▸ old
  · exact closed ▸ close _ old

theorem OnNodes.grown {net net' : Network} (on : OnNodes P net) (grown : Grown net net')
    (listed : Listed net net.nodes) : OnNodes P net' := by
  intro r member
  rw [grown.rest] at member
  rw [grown.heap r (listed.allocated r member)]
  exact on r member

theorem MadeFor.all_fresh {now : ℚ} {entries : List (String × V)} {net net' : Network}
    {fresh : List NodeRef} (made : MadeFor cls now entries net net' fresh)
    (new : ∀ entry ∈ entries, ∀ node,
      cls.createNodeFromNetworkEntry net.minBackoff now entry.1 entry.2 = .ok node → P node) :
    ∀ r ∈ fresh, P (net'.heap r) := by
  intro r member
  have created := made.made
  clear made
  induction created with
  | nil => cases member
  | cons created _ inductionHypothesis =>
      rcases List.mem_cons.mp member with rfl | later
      · exact new _ List.mem_cons_self _ created
      · exact inductionHypothesis (fun entry inRest => new entry (.tail _ inRest)) later

theorem MadeFor.created {now : ℚ} {entries : List (String × V)} {net net' : Network}
    {fresh : List NodeRef} (made : MadeFor cls now entries net net' fresh) {entry : String × V}
    (member : entry ∈ entries) :
    ∃ node, cls.createNodeFromNetworkEntry net.minBackoff now entry.1 entry.2 = .ok node := by
  have created := made.made
  clear made
  induction created with
  | nil => cases member
  | cons created _ inductionHypothesis =>
      rcases List.mem_cons.mp member with rfl | later
      · exact ⟨_, created⟩
      · exact inductionHypothesis later

theorem OnNodes.refilled {map : OrderedMap String V} {now : ℚ} {net net' : Network}
    {fresh : List NodeRef} (on : OnNodes P net) (refilled : Refilled cls map now net net' fresh)
    (listed : Listed net net.nodes)
    (new : ∀ entry ∈ missingFrom cls map net, ∀ node,
      cls.createNodeFromNetworkEntry net.minBackoff now entry.1 entry.2 = .ok node → P node) :
    OnNodes P net' := by
  intro r member
  rcases List.mem_append.mp (refilled.nodes.mem_iff.mp member) with old | isFresh
  · have same : net'.heap r = net.heap r := refilled.made.grown.heap r (listed.allocated r old)
    rw [same]
    exact on r old
  · exact refilled.made.all_fresh new r isFresh

theorem Listed.trimmed {net net' : Network} (listed : Listed net net.nodes)
    (trimmed : Trimmed net net') : Listed net' net'.nodes where
  nodup := listed.nodup.sublist trimmed.nodes
  allocated := fun r member => trimmed.allocated ▸ listed.allocated r (trimmed.nodes.mem member)

theorem OnNodes.setNetwork {net : Network} (on : OnNodes P net) (listed : Listed net net.nodes)
    (close : ∀ node, P node → P node.close) (new : HeldByNew cls P) (map : OrderedMap String V)
    (ω : Nat → Nat) (now : ℚ) : OnNodes P ((setNetwork cls map ω now).run net).2 := by
  obtain ⟨left, trimmed, ⟨_, -, grown⟩ | ⟨-, fresh, refilled⟩⟩ :=
    run_setNetwork_cases cls map ω now net
  · exact (on.trimmed trimmed close).grown grown (listed.trimmed trimmed)
  · exact (on.trimmed trimmed close).refilled refilled (listed.trimmed trimmed)
      fun _ _ _ created => new _ _ _ _ _ created

variable (cls) in
/-- Choosing nodes may close dead ones and readmit others. -/
theorem run_getNumberOfMostHealthyNodes_cases (count : Nat) (ω : Nat → Nat) (now : ℚ)
    (net : Network) :
    ∃ left, Trimmed net left ∧
      (((getNumberOfMostHealthyNodes cls count ω now).run net).2 = left ∨
        ((getNumberOfMostHealthyNodes cls count ω now).run net).2 = left.readmitNodes now) := by
  have trimmed : Trimmed net ((removeDeadNodes cls).run net).2 := by
    simp only [removeDeadNodes, Method.run_this_bind]
    split
    · exact trimmed_closeNodes cls net _
    · exact .refl net
  refine ⟨_, trimmed, ?_⟩
  rw [getNumberOfMostHealthyNodes]
  rcases ran : (removeDeadNodes cls).run net with ⟨e | _, left⟩
  · rw [Method.run_bind_error ran]
    exact .inl rfl
  · rw [Method.run_bind_ok ran]
    exact .inr rfl

theorem OnNodes.readmitNodes {net : Network} (on : OnNodes P net) (now : ℚ) :
    OnNodes P (net.readmitNodes now) := by
  unfold Network.readmitNodes
  split <;> exact on

theorem OnNodes.getNumberOfMostHealthyNodes {net : Network} (on : OnNodes P net)
    (close : ∀ node, P node → P node.close) (count : Nat) (ω : Nat → Nat) (now : ℚ) :
    OnNodes P ((getNumberOfMostHealthyNodes cls count ω now).run net).2 := by
  obtain ⟨left, trimmed, same | same⟩ :=
    run_getNumberOfMostHealthyNodes_cases cls count ω now net
  · rw [same]
    exact on.trimmed trimmed close
  · rw [same]
    exact (on.trimmed trimmed close).readmitNodes now

theorem OnNodes.setTransportSecurity {net : Network} (on : OnNodes P net)
    (listed : Listed net net.nodes) {transportSecurity : Bool}
    (copy : ∀ node, P node → P (transportCopy transportSecurity node.close)) :
    OnNodes P ((setTransportSecurity transportSecurity).run net).2 := by
  by_cases same : net.transportSecurity = transportSecurity
  · simp only [Network.setTransportSecurity, Method.run_this_bind, if_pos same]
    exact on
  · obtain ⟨copies, net', ran, copied⟩ := run_setTransportSecurity listed same
    rw [ran]
    intro r member
    have inCopies : net'.heap r ∈ copies.map net'.heap := List.mem_map_of_mem member
    rw [copied.copied] at inCopies
    obtain ⟨original, inNodes, isCopy⟩ := List.mem_map.mp inCopies
    change P (net'.heap r)
    rw [← isCopy]
    exact copy _ (on original inNodes)

theorem OnNodes.managed {net : Network} (on : OnNodes P net) (methods : KeptByMethods P)
    (op : ManagedOp) (ω : Nat → Nat) (now : ℚ) : OnNodes P ((op.method cls ω now).run net).2 := by
  cases op with
  | increaseBackoff node => exact on.updateNode (methods.increaseBackoff · now) node
  | decreaseBackoff node => exact on.updateNode methods.decreaseBackoff node
  | getNode key =>
      change OnNodes P ((do let _ ← Network.getNode key ω now : NetworkMethod Unit).run net).2
      rw [Method.run_bind_snd _ _ fun _ _ => rfl, run_getNode_snd]
      exact on.readmitNodes now
  | getNumberOfMostHealthyNodes count =>
      change OnNodes P ((do
        let _ ← Network.getNumberOfMostHealthyNodes cls count ω now : NetworkMethod Unit).run net).2
      rw [Method.run_bind_snd _ _ fun _ _ => rfl]
      exact on.getNumberOfMostHealthyNodes methods.close count ω now
  | getChannel node => exact on.updateNode methods.getChannel node
  | setMinBackoff minBackoff =>
      have same : OnNodes P { net with minBackoff } := on
      exact same.updateNodes (methods.setMinBackoff · minBackoff)
  | setMaxBackoff maxBackoff =>
      have same : OnNodes P { net with maxBackoff } := on
      exact same.updateNodes (methods.setMaxBackoff · maxBackoff)
  | setMaxNodeAttempts count => exact on
  | setNodeMinReadmitPeriod period => exact on
  | setNodeMaxReadmitPeriod period => exact on
  | setLedgerId ledgerId => exact on
  | close => exact fun r member => absurd member List.not_mem_nil

/-! ## Runs -/

theorem OnNodes.mainStep {net : Network} (on : OnNodes P net) (keyed : Keyed main net)
    (methods : KeptByMethods P) (new : HeldByNew main P)
    (copy : ∀ transportSecurity node, P node → P (transportCopy transportSecurity node))
    (call : Call MainOp) : OnNodes P (mainStep net call) := by
  obtain ⟨op, draws, now⟩ := call
  cases op with
  | managed op => exact on.managed methods op draws now
  | setNetwork map => exact on.setNetwork keyed.listed methods.close new map draws now
  | getNodeAccountIdsForExecute =>
      change OnNodes P ((do
        let _ ← Network.getNodeAccountIdsForExecute draws now : NetworkMethod Unit).run net).2
      rw [Method.run_bind_snd _ _ fun _ _ => rfl, run_getNodeAccountIdsForExecute_snd]
      exact on.getNumberOfMostHealthyNodes methods.close _ draws now
  | setTransportSecurity transportSecurity =>
      exact on.setTransportSecurity keyed.listed fun node held =>
        copy transportSecurity _ (methods.close node held)
  | setMaxNodesPerTransaction count => exact on

theorem OnNodes.mirrorStep {net : Network} (on : OnNodes P net) (keyed : Keyed mirror net)
    (methods : KeptByMethods P) (new : HeldByNew mirror P) (call : Call MirrorOp) :
    OnNodes P (mirrorStep net call) := by
  obtain ⟨op, draws, now⟩ := call
  cases op with
  | managed op => exact on.managed methods op draws now
  | setNetwork network => exact on.setNetwork keyed.listed methods.close new _ draws now
  | getNextMirrorNode =>
      change OnNodes P ((do
        let _ ← Network.getNextMirrorNode draws now : NetworkMethod Unit).run net).2
      rw [Method.run_bind_snd _ _ fun _ _ => rfl, getNextMirrorNode, Method.run_bind_snd _ _ fun _ _ => rfl]
      exact on.getNumberOfMostHealthyNodes methods.close 1 draws now

/-- After any calls of the main network its index is in order and its nodes have the property. -/
theorem onNodes_runMain (methods : KeptByMethods P) (new : HeldByNew main P)
    (copy : ∀ transportSecurity node, P node → P (transportCopy transportSecurity node))
    (start : ℚ) (calls : List (Call MainOp)) :
    Keyed main (runAll mainStep (create start) calls) ∧
      OnNodes P (runAll mainStep (create start) calls) :=
  runAll_invariant_all (I := fun net => Keyed main net ∧ OnNodes P net)
    (fun net call ⟨keyed, on⟩ =>
      ⟨keyed_mainStep net call keyed, on.mainStep keyed methods new copy call⟩)
    calls ⟨(filed_create start).keyed, fun _ member => absurd member List.not_mem_nil⟩

theorem onNodes_runMirror (methods : KeptByMethods P) (new : HeldByNew mirror P) (start : ℚ)
    (calls : List (Call MirrorOp)) :
    Keyed mirror (runAll mirrorStep (create start) calls) ∧
      OnNodes P (runAll mirrorStep (create start) calls) :=
  runAll_invariant_all (I := fun net => Keyed mirror net ∧ OnNodes P net)
    (fun net call ⟨keyed, on⟩ =>
      ⟨keyed_mirrorStep net call keyed, on.mirrorStep keyed methods new call⟩)
    calls ⟨(filed_create start).keyed, fun _ member => absurd member List.not_mem_nil⟩

/-! ## Addresses -/

theorem wellFormed_kept : KeptByMethods fun node => node.address.WellFormed :=
  ⟨fun _ _ => id, fun _ => id, fun _ => id, fun _ _ => id, fun _ _ => id, fun _ => id⟩

theorem wellFormed_main : HeldByNew main fun node => node.address.WellFormed := by
  intro minBackoff now entry value node created
  change createNodeFromNetworkEntry minBackoff now entry value = .ok node at created
  unfold createNodeFromNetworkEntry at created
  split at created <;> cases created
  rename_i address read
  exact ManagedNodeAddress.wellFormed_of_fromString read

theorem wellFormed_mirror : HeldByNew mirror fun node => node.address.WellFormed := by
  intro minBackoff now entry value node created
  change createMirrorNode minBackoff now entry value = .ok node at created
  unfold createMirrorNode at created
  split at created <;> cases created
  rename_i address read
  exact ManagedNodeAddress.wellFormed_of_fromString read

/-- A copy has another port at most. -/
theorem wellFormed_copy (transportSecurity : Bool) (node : Node) (wellFormed : node.address.WellFormed) :
    (transportCopy transportSecurity node).address.WellFormed := by
  cases transportSecurity <;> exact wellFormed

/-! ## Counting -/

theorem uncounted_kept : KeptByMethods fun node => node.badGrpcStatusCount = 0 :=
  ⟨fun _ _ => id, fun _ => id, fun _ => id, fun _ _ => id, fun _ _ => id, fun _ => id⟩

theorem uncounted_main : HeldByNew main fun node => node.badGrpcStatusCount = 0 := by
  intro minBackoff now entry value node created
  change createNodeFromNetworkEntry minBackoff now entry value = .ok node at created
  unfold createNodeFromNetworkEntry at created
  split at created <;> cases created
  rfl

theorem uncounted_copy (transportSecurity : Bool) (node : Node) (uncounted : node.badGrpcStatusCount = 0) :
    (transportCopy transportSecurity node).badGrpcStatusCount = 0 := by
  cases transportSecurity <;> exact uncounted

/-- As no failure is ever counted, no node is ever found dead. -/
theorem run_removeDeadNodes_of_uncounted {net : Network}
    (uncounted : OnNodes (fun node => node.badGrpcStatusCount = 0) net) :
    (removeDeadNodes cls).run net = (.ok (), net) := by
  simp only [removeDeadNodes, Method.run_this_bind]
  split
  · rename_i limited
    have none : indicesDown (fun r => decide (net.maxNodeAttempts ≤ (net.heap r).badGrpcStatusCount))
        net.nodes = [] := by
      rw [indicesDown, List.filter_eq_nil_iff]
      intro i _
      cases listed : net.nodes[i]? with
      | none => simp
      | some r =>
          have zero := uncounted r (List.mem_of_getElem? listed)
          simp only [Option.any_some, decide_eq_true_eq, zero]
          omega
    rw [none]
    rfl
  · rfl

variable (cls) in
/-- Choosing nodes only readmits. -/
theorem run_getNumberOfMostHealthyNodes_of_uncounted {net : Network}
    (uncounted : OnNodes (fun node => node.badGrpcStatusCount = 0) net) (count : Nat) (ω : Nat → Nat)
    (now : ℚ) :
    (getNumberOfMostHealthyNodes cls count ω now).run net =
      (.ok (pickNodes cls (net.readmitNodes now).heap ω
        (min count (net.readmitNodes now).healthyNodes.length) (net.readmitNodes now).healthyNodes),
        net.readmitNodes now) := by
  rw [getNumberOfMostHealthyNodes, Method.run_bind_ok (run_removeDeadNodes_of_uncounted uncounted),
    Method.run_update_bind, Method.run_this_bind, Method.run_pure]

end Network

end HederaSdk
