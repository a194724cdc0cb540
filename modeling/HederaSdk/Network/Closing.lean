import HederaSdk.Network.Lookup
import HederaSdk.Network.Operations

/-!
# Which nodes are closed and created

A loop that closes nodes takes them from the list and closes their channels, and it
throws when a bucket is missing. `Trimmed` holds of whatever it leaves. When no bucket
is missed, exactly the nodes that pass the test are closed. New nodes are made for the
entries that are missing, in the order of the map; a change of the transport security
makes a copy of every node.
-/

namespace HederaSdk.Network

open Library

variable {V : Type} {cls : NetworkClass V}

/-! ## Closing -/

/-- Nodes may have been closed and taken from the list. -/
structure Trimmed (net net' : Network) : Prop where
  allocated : net'.allocated = net.allocated
  heap : ∀ r, net'.heap r = net.heap r ∨ net'.heap r = (net.heap r).close
  nodes : net'.nodes.Sublist net.nodes
  rest : net' = { net with heap := net'.heap, network := net'.network, nodes := net'.nodes }

theorem Trimmed.refl (net : Network) : Trimmed net net :=
  ⟨rfl, fun _ => .inl rfl, .refl _, rfl⟩

theorem Trimmed.trans {net net' net'' : Network} (first : Trimmed net net')
    (second : Trimmed net' net'') : Trimmed net net'' where
  allocated := second.allocated.trans first.allocated
  heap := ((⟨first.allocated, first.heap⟩ : Pruned net net').trans
    ⟨second.allocated, second.heap⟩).heap
  nodes := second.nodes.trans first.nodes
  rest := by
    rw [second.rest, first.rest]

theorem trimmed_updateNode_close (net : Network) (r : NodeRef) :
    Trimmed net (net.updateNode r Node.close) where
  allocated := rfl
  heap := by
    intro r'
    by_cases same : r' = r
    · subst same
      exact .inr (Function.update_self ..)
    · exact .inl (Function.update_of_ne same ..)
  nodes := .refl _
  rest := rfl

variable (cls) in
theorem trimmed_removeNodeFromNetwork (net : Network) (r : NodeRef) :
    Trimmed net ((removeNodeFromNetwork cls r).run net).2 := by
  simp only [removeNodeFromNetwork, Method.run_this_bind]
  split
  · exact .refl net
  · exact ⟨rfl, fun _ => .inl rfl, .refl _, rfl⟩

theorem trimmed_closeNode (net : Network) (i : Nat) :
    Trimmed net ((closeNode cls i).run net).2 := by
  rw [closeNode, Method.run_this_bind]
  split
  · exact .refl net
  · rename_i r _
    rw [Method.run_update_bind]
    have removed := trimmed_removeNodeFromNetwork cls (net.updateNode r Node.close) r
    have closed := (trimmed_updateNode_close net r).trans removed
    rcases ran : (removeNodeFromNetwork cls r).run (net.updateNode r Node.close) with ⟨e | _, net'⟩ <;>
      rw [ran] at closed
    · rw [Method.run_bind_error ran]
      exact closed
    · rw [Method.run_bind_ok ran, Method.run_update]
      exact closed.trans ⟨rfl, fun _ => .inl rfl, List.eraseIdx_sublist .., rfl⟩

variable (cls) in
theorem trimmed_closeNodes (net : Network) (indices : List Nat) :
    Trimmed net ((Method.forEach (closeNode cls) indices).run net).2 := by
  have keeps (i : Nat) : Method.Keeps (Trimmed net) (closeNode cls i) :=
    fun net' trimmed => trimmed.trans (trimmed_closeNode net' i)
  exact Method.Keeps.forEach keeps indices net (.refl net)

/-- Going through a list from its end, every node that passes the test finds its bucket
not yet emptied by the nodes closed before. -/
def Closable (cls : NetworkClass V) (net : Network) (test : NodeRef → Bool) (nodes : List NodeRef) :
    Prop :=
  ∀ before r after, nodes = before ++ r :: after → test r = true →
    (net.network.bucket (keyOf cls net r)).diff (after.filter test) ≠ []

theorem Filed.closable {net : Network} (filed : Filed cls net) (test : NodeRef → Bool) :
    Closable cls net test net.nodes := by
  intro before r after listed _
  have nodup := filed.nodup
  rw [listed] at nodup
  have later : r ∉ after := (List.nodup_cons.mp (List.nodup_append.mp nodup).2.1).1
  have inBucket : r ∈ net.network.bucket (keyOf cls net r) :=
    filed.mem_bucket.mpr ⟨by simp [listed], rfl⟩
  exact List.ne_nil_of_mem
    (List.mem_diff_of_mem inBucket fun member => later (List.mem_of_mem_filter member))

/-- Taking a node from its bucket does not throw when the bucket is there. -/
theorem run_removeNodeFromNetwork_of_bucket {net : Network} {r : NodeRef}
    (bucket : net.network.bucket (keyOf cls net r) ≠ []) :
    (removeNodeFromNetwork cls r).run net =
      (.ok (), { net with network := net.network.pull (keyOf cls net r) r }) := by
  obtain ⟨first, rest, shape⟩ := List.exists_cons_of_ne_nil bucket
  have member : first ∈ net.network.bucket (keyOf cls net r) := by simp [shape]
  have found := OrderedMap.get?_of_mem_bucket member
  simp only [keyOf] at found
  simp only [removeNodeFromNetwork, Method.run_this_bind, found]
  rfl

/-- The network after the node at an index was closed. -/
def closed (cls : NetworkClass V) (net : Network) (i : Nat) (r : NodeRef) : Network :=
  { net.updateNode r Node.close with
    network := net.network.pull (keyOf cls net r) r
    nodes := net.nodes.eraseIdx i }

theorem run_closeNode_of_bucket {net : Network} {i : Nat} {r : NodeRef}
    (listed : net.nodes[i]? = some r) (bucket : net.network.bucket (keyOf cls net r) ≠ []) :
    (closeNode cls i).run net = (.ok (), closed cls net i r) := by
  have keys : keyOf cls (net.updateNode r Node.close) r = keyOf cls net r :=
    keyOf_updateNode getKey_close r r
  have bucket' : (net.updateNode r Node.close).network.bucket
      (keyOf cls (net.updateNode r Node.close) r) ≠ [] := by
    rw [keys]
    exact bucket
  have removed := run_removeNodeFromNetwork_of_bucket bucket'
  rw [keys] at removed
  simp only [closeNode, Method.run_this_bind, listed, Method.run_update_bind]
  rw [Method.run_bind_ok removed]
  rfl

theorem run_closeNode_of_no_bucket {net : Network} {i : Nat} {r : NodeRef} (tight : net.network.Tight)
    (listed : net.nodes[i]? = some r) (bucket : net.network.bucket (keyOf cls net r) = []) :
    ∃ e net', (closeNode cls i).run net = (.error e, net') := by
  have keys : keyOf cls (net.updateNode r Node.close) r = keyOf cls net r :=
    keyOf_updateNode getKey_close r r
  have absent : net.network.get? (keyOf cls net r) = none := by
    cases found : net.network.get? (keyOf cls net r) with
    | none => rfl
    | some list =>
        rw [OrderedMap.bucket, found, Option.getD_some] at bucket
        exact absurd (bucket ▸ found) (tight _)
  have removed : (removeNodeFromNetwork cls r).run (net.updateNode r Node.close) =
      (.error (.typeError "Cannot read properties of undefined (reading 'length')"),
        net.updateNode r Node.close) := by
    rw [← keys] at absent
    simp only [keyOf, updateNode] at absent
    simp only [removeNodeFromNetwork, Method.run_this_bind, updateNode, absent]
    rfl
  simp only [closeNode, Method.run_this_bind, listed, Method.run_update_bind]
  exact ⟨_, _, Method.run_bind_error removed⟩

/-- A node leaves no bucket but its own. -/
theorem bucket_closed {net : Network} (keyed : Keyed cls net) (i : Nat) (r r' : NodeRef) :
    (closed cls net i r).network.bucket (keyOf cls (closed cls net i r) r') =
      (net.network.bucket (keyOf cls net r')).erase r := by
  have keys : keyOf cls (closed cls net i r) r' = keyOf cls net r' :=
    keyOf_updateNode getKey_close r r'
  rw [keys]
  change (net.network.pull (keyOf cls net r) r).bucket (keyOf cls net r') = _
  rw [OrderedMap.bucket_pull]
  split
  · rfl
  · rename_i other
    exact (List.erase_of_not_mem fun member => other (keyed.keyed _ r member).2).symm

theorem closable_concat {net : Network} {test : NodeRef → Bool} {nodes : List NodeRef} {r : NodeRef} :
    Closable cls net test (nodes ++ [r]) ↔
      (test r = true → net.network.bucket (keyOf cls net r) ≠ []) ∧
      ∀ before r' after, nodes = before ++ r' :: after → test r' = true →
        (net.network.bucket (keyOf cls net r')).diff ((after ++ [r]).filter test) ≠ [] := by
  constructor
  · intro closable
    refine ⟨closable nodes r [] rfl, fun before r' after listed => ?_⟩
    exact closable before r' (after ++ [r]) (by simp [listed])
  · rintro ⟨last, rest⟩ before r' after listed
    rcases List.eq_nil_or_concat after with rfl | ⟨after', last', rfl⟩
    · obtain ⟨rfl, same⟩ := List.append_inj' listed rfl
      cases same
      exact last
    · rw [List.concat_eq_append, ← List.cons_append, ← List.append_assoc] at listed
      obtain ⟨same, same'⟩ := List.append_inj' listed rfl
      cases same'
      rw [List.concat_eq_append]
      exact rest before r' after' same

/-- A last node that passes the test needs its bucket, and is then taken from it. -/
theorem closable_concat_of_test {net : Network} (keyed : Keyed cls net) {test : NodeRef → Bool}
    {nodes : List NodeRef} {r : NodeRef} (passes : test r = true) (i : Nat) :
    Closable cls net test (nodes ++ [r]) ↔
      net.network.bucket (keyOf cls net r) ≠ [] ∧ Closable cls (closed cls net i r) test nodes := by
  rw [closable_concat]
  have rest (r' : NodeRef) (after : List NodeRef) :
      ((closed cls net i r).network.bucket (keyOf cls (closed cls net i r) r')).diff
          (after.filter test) =
        (net.network.bucket (keyOf cls net r')).diff ((after ++ [r]).filter test) := by
    rw [bucket_closed keyed, List.filter_append, List.filter_singleton, passes, cond_true,
      ← List.diff_erase, List.diff_append, List.diff_cons, List.diff_nil]
  simp only [passes, forall_const, Closable, rest]

theorem closable_concat_of_not {net : Network} {test : NodeRef → Bool} {nodes : List NodeRef}
    {r : NodeRef} (fails : ¬ test r = true) :
    Closable cls net test (nodes ++ [r]) ↔ Closable cls net test nodes := by
  rw [closable_concat]
  simp [fails, Closable]

theorem getElem?_last {nodes tail : List NodeRef} {r : NodeRef} :
    (nodes ++ [r] ++ tail)[nodes.length]? = some r := by
  simp

theorem nodes_closed {net : Network} {nodes tail : List NodeRef} {r : NodeRef}
    (listed : net.nodes = nodes ++ [r] ++ tail) :
    (closed cls net nodes.length r).nodes = nodes ++ tail := by
  change net.nodes.eraseIdx nodes.length = nodes ++ tail
  rw [listed, List.append_assoc, List.eraseIdx_append_of_length_le (le_refl _)]
  simp

theorem keyed_closed {net : Network} (keyed : Keyed cls net) {i : Nat} {r : NodeRef}
    (listed : net.nodes[i]? = some r) (bucket : net.network.bucket (keyOf cls net r) ≠ []) :
    Keyed cls (closed cls net i r) := by
  have keeps := keyed_closeNode i net keyed
  rwa [run_closeNode_of_bucket listed bucket] at keeps

/-- Closing, from the back, the nodes that pass a test closes these and leaves the
others as they are. -/
theorem run_closeNodes_of_closable {net : Network} (keyed : Keyed cls net) (test : NodeRef → Bool)
    (nodes tail : List NodeRef) (listed : net.nodes = nodes ++ tail)
    (closable : Closable cls net test nodes) :
    ∃ net', (Method.forEach (closeNode cls) (indicesDown test nodes)).run net = (.ok (), net') ∧
      net'.nodes = nodes.filter (fun r => !test r) ++ tail ∧
      ∀ r, net'.heap r = if r ∈ nodes ∧ test r = true then (net.heap r).close else net.heap r := by
  induction nodes using List.reverseRecOn generalizing net tail with
  | nil => exact ⟨net, rfl, listed, fun r => by simp⟩
  | append_singleton nodes r inductionHypothesis =>
      have unlisted : r ∉ nodes := by
        intro member
        have nodup := keyed.listed.nodup
        rw [listed, List.append_assoc] at nodup
        exact (List.nodup_append.mp nodup).2.2 r member r (by simp) rfl
      rw [indicesDown_append]
      by_cases remove : test r = true
      · have last : net.nodes[nodes.length]? = some r := listed ▸ getElem?_last
        obtain ⟨bucket, closable'⟩ := (closable_concat_of_test keyed remove nodes.length).mp closable
        have ran := run_closeNode_of_bucket last bucket
        obtain ⟨net', ran', left, heap⟩ := inductionHypothesis (keyed_closed keyed last bucket)
          tail (nodes_closed listed) closable'
        refine ⟨net', ?_, ?_, fun r' => ?_⟩
        · rw [if_pos remove, Method.forEach_cons, Method.run_bind_ok ran, ran']
        · simpa [remove] using left
        · rw [heap]
          change (if _ then (Function.update net.heap r (net.heap r).close r').close
            else Function.update net.heap r (net.heap r).close r') = _
          by_cases same : r' = r
          · subst same
            rw [Function.update_self, if_neg (fun h => unlisted h.1), if_pos (by simp [remove])]
          · rw [Function.update_of_ne same]
            simp [same]
      · obtain ⟨net', ran, left, heap⟩ := inductionHypothesis keyed (r :: tail)
          (by simpa using listed) ((closable_concat_of_not remove).mp closable)
        refine ⟨net', ?_, ?_, fun r' => ?_⟩
        · rw [if_neg remove]
          exact ran
        · simpa [remove] using left
        · rw [heap]
          by_cases same : r' = r
          · subst same
            simp [remove]
          · simp [same]

/-- It throws when one of them finds no bucket. -/
theorem closable_of_run {net : Network} (keyed : Keyed cls net) (test : NodeRef → Bool)
    (nodes tail : List NodeRef) (listed : net.nodes = nodes ++ tail)
    (returned : ((Method.forEach (closeNode cls) (indicesDown test nodes)).run net).1 = .ok ()) :
    Closable cls net test nodes := by
  induction nodes using List.reverseRecOn generalizing net tail with
  | nil => simp [Closable]
  | append_singleton nodes r inductionHypothesis =>
      rw [indicesDown_append] at returned
      by_cases remove : test r = true
      · rw [if_pos remove, Method.forEach_cons] at returned
        have last : net.nodes[nodes.length]? = some r := listed ▸ getElem?_last
        by_cases bucket : net.network.bucket (keyOf cls net r) = []
        · obtain ⟨e, net', ran⟩ := run_closeNode_of_no_bucket keyed.tight last bucket
          rw [Method.run_bind_error ran] at returned
          cases returned
        · rw [Method.run_bind_ok (run_closeNode_of_bucket last bucket)] at returned
          exact (closable_concat_of_test keyed remove nodes.length).mpr ⟨bucket,
            inductionHypothesis (keyed_closed keyed last bucket) tail (nodes_closed listed) returned⟩
      · rw [if_neg remove] at returned
        exact (closable_concat_of_not remove).mpr
          (inductionHypothesis keyed (r :: tail) (by simpa using listed) returned)

/-! ## New nodes -/

/-- New nodes may have been placed on the heap. -/
structure Grown (net net' : Network) : Prop where
  allocated : net.allocated ≤ net'.allocated
  heap : ∀ r < net.allocated, net'.heap r = net.heap r
  rest : net' = { net with heap := net'.heap, allocated := net'.allocated }

theorem Grown.refl (net : Network) : Grown net net := ⟨le_rfl, fun _ _ => rfl, rfl⟩

theorem Grown.trans {net net' net'' : Network} (first : Grown net net') (second : Grown net' net'') :
    Grown net net'' where
  allocated := first.allocated.trans second.allocated
  heap := fun r old => (second.heap r (old.trans_le first.allocated)).trans (first.heap r old)
  rest := by
    rw [second.rest, first.rest]

/-- The entries for which a node has to be made. -/
def missing (cls : NetworkClass V) (known : List (String × String)) (entries : List (String × V)) :
    List (String × V) :=
  entries.filter fun entry =>
    !(known.any (fun k => k.1 = cls.text entry.2) && known.any (fun k => k.2 = entry.1))

/-- The nodes `fresh` were made for the entries, one for each and in this order. -/
structure MadeFor (cls : NetworkClass V) (now : ℚ) (entries : List (String × V))
    (net net' : Network) (fresh : List NodeRef) : Prop where
  grown : Grown net net'
  new : ∀ r ∈ fresh, net.allocated ≤ r ∧ r < net'.allocated
  nodup : fresh.Nodup
  made : List.Forall₂ (fun (entry : String × V) r =>
    cls.createNodeFromNetworkEntry net.minBackoff now entry.1 entry.2 = .ok (net'.heap r))
    entries fresh

/-- The new nodes of the missing entries, or the first entry that none can be made for. -/
def MadeOrThrown (cls : NetworkClass V) (now : ℚ) (entries : List (String × V)) (net : Network)
    (nodes : List NodeRef) : Except JsError (List NodeRef) × Network → Prop
  | (.ok result, net') => ∃ fresh, result = nodes ++ fresh ∧ MadeFor cls now entries net net' fresh
  | (.error e, net') => Grown net net' ∧ ∃ entry ∈ entries,
      cls.createNodeFromNetworkEntry net.minBackoff now entry.1 entry.2 = .error e

theorem run_allocate_eq (node : Node) (net : Network) :
    (allocate node).run net = (.ok net.allocated,
      { net with
        heap := Function.update net.heap net.allocated node, allocated := net.allocated + 1 }) := rfl

theorem grown_allocate (node : Node) (net : Network) :
    Grown net { net with
      heap := Function.update net.heap net.allocated node, allocated := net.allocated + 1 } where
  allocated := Nat.le_succ _
  heap := fun _ old => Function.update_of_ne (Nat.ne_of_lt old) ..
  rest := rfl

/-- The node that was just placed on the heap goes before those that follow. -/
theorem MadeOrThrown.cons {now : ℚ} {entry : String × V} {entries : List (String × V)}
    {net : Network} {nodes : List NodeRef} {node : Node}
    {outcome : Except JsError (List NodeRef) × Network}
    (created : cls.createNodeFromNetworkEntry net.minBackoff now entry.1 entry.2 = .ok node)
    (later : MadeOrThrown cls now entries
      { net with heap := Function.update net.heap net.allocated node, allocated := net.allocated + 1 }
      (nodes ++ [net.allocated]) outcome) :
    MadeOrThrown cls now (entry :: entries) net nodes outcome := by
  have grown := grown_allocate node net
  rcases outcome with ⟨e | result, net'⟩
  · obtain ⟨after, failing, member, failed⟩ := later
    exact ⟨grown.trans after, failing, List.mem_cons_of_mem _ member, failed⟩
  · obtain ⟨fresh, rfl, made⟩ := later
    have here : net'.heap net.allocated = node :=
      (made.grown.heap net.allocated (Nat.lt_succ_self _)).trans (Function.update_self ..)
    refine ⟨net.allocated :: fresh, by simp, grown.trans made.grown, ?_, ?_, ?_⟩
    · intro r member
      rcases List.mem_cons.mp member with rfl | later
      · exact ⟨le_rfl, made.grown.allocated⟩
      · exact ⟨(Nat.le_succ _).trans (made.new r later).1, (made.new r later).2⟩
    · refine List.nodup_cons.mpr ⟨fun member => ?_, made.nodup⟩
      exact absurd (made.new _ member).1 (Nat.not_succ_le_self _)
    · exact .cons (here ▸ created) made.made

variable (cls) in
theorem run_addNewNodes_made (known : List (String × String)) (now : ℚ) (entries : List (String × V))
    (nodes : List NodeRef) (net : Network) :
    MadeOrThrown cls now (missing cls known entries) net nodes
      ((addNewNodes cls known now entries nodes).run net) := by
  induction entries generalizing nodes net with
  | nil => exact ⟨[], by simp, .refl net, by simp, List.nodup_nil, .nil⟩
  | cons entry rest inductionHypothesis =>
      obtain ⟨entry, value⟩ := entry
      unfold addNewNodes
      by_cases present : (known.any (fun k => k.1 = cls.text value) &&
          known.any fun k => k.2 = entry) = true
      · have skipped : missing cls known ((entry, value) :: rest) = missing cls known rest := by
          simp only [missing, List.filter_cons, present]
          rfl
        rw [if_pos present, skipped]
        exact inductionHypothesis nodes net
      · have wanted : missing cls known ((entry, value) :: rest) =
            (entry, value) :: missing cls known rest := by
          simp only [missing, List.filter_cons, present]
          rfl
        rw [if_neg present, wanted, Method.run_this_bind]
        cases created : cls.createNodeFromNetworkEntry net.minBackoff now entry value with
        | error e => exact ⟨.refl net, (entry, value), List.mem_cons_self, created⟩
        | ok node =>
            rw [Method.run_bind_ok (Method.run_ofExcept_ok node net),
              Method.run_bind_ok (run_allocate_eq node net)]
            exact .cons created (inductionHypothesis _ _)

/-! ## Replacing the nodes -/

/-- The entries that no node left stands for. -/
def missingFrom (cls : NetworkClass V) (map : OrderedMap String V) (net : Network) :
    List (String × V) :=
  missing cls (net.nodes.map fun r => (cls.getKey (net.heap r), (net.heap r).address.toString))
    map.entries

/-- The network that was filled with new nodes: its nodes are those left and the new ones,
and those that are healthy now are listed and filed. -/
structure Refilled (cls : NetworkClass V) (map : OrderedMap String V) (now : ℚ)
    (net net' : Network) (fresh : List NodeRef) : Prop where
  made : MadeFor cls now (missingFrom cls map net) net { net' with
    nodes := net.nodes, healthyNodes := net.healthyNodes, network := net.network
    ledgerId := net.ledgerId } fresh
  nodes : net'.nodes.Perm (net.nodes ++ fresh)
  healthyNodes : net'.healthyNodes = net'.nodes.filter fun r => (net'.heap r).isHealthy now

/-- What filling leaves: the new nodes, or nothing but garbage on the heap. -/
def RefilledOrThrown (cls : NetworkClass V) (map : OrderedMap String V) (now : ℚ) (net : Network) :
    Except JsError Unit × Network → Prop
  | (.ok _, net') => ∃ fresh, Refilled cls map now net net' fresh
  | (.error e, net') => Grown net net' ∧ ∃ entry ∈ missingFrom cls map net,
      cls.createNodeFromNetworkEntry net.minBackoff now entry.1 entry.2 = .error e

variable (cls) in
theorem run_fillNetwork_refilled (map : OrderedMap String V) (ω : Nat → Nat) (now : ℚ)
    (net : Network) :
    RefilledOrThrown cls map now net ((fillNetwork cls map ω now).run net) := by
  simp only [fillNetwork, Method.run_this_bind]
  have made := run_addNewNodes_made cls (net.nodes.map fun r =>
    (cls.getKey (net.heap r), (net.heap r).address.toString)) now map.entries net.nodes net
  rcases ran : (addNewNodes cls _ now map.entries net.nodes).run net with ⟨e | result, net'⟩ <;>
    rw [ran] at made
  · rw [Method.run_bind_error ran]
    exact made
  · obtain ⟨fresh, rfl, made⟩ := made
    rw [Method.run_bind_ok ran, Method.run_update]
    refine ⟨fresh, ⟨⟨made.grown.allocated, made.grown.heap, ?_⟩, made.new, made.nodup, made.made⟩,
      shuffle_perm ω _, rfl⟩
    rw [made.grown.rest]

variable (cls) in
/-- `setNetwork` closes nodes and then fills the network; either may throw. -/
theorem run_setNetwork_cases (map : OrderedMap String V) (ω : Nat → Nat) (now : ℚ) (net : Network) :
    ∃ left, Trimmed net left ∧
      ((∃ e, ((setNetwork cls map ω now).run net).1 = .error e ∧
          Grown left ((setNetwork cls map ω now).run net).2) ∨
        (((setNetwork cls map ω now).run net).1 = .ok () ∧
          ∃ fresh, Refilled cls map now left ((setNetwork cls map ω now).run net).2 fresh)) := by
  simp only [setNetwork, Method.run_this_bind]
  have trimmed := trimmed_closeNodes cls net (net.getNodesToRemove cls map)
  rcases ran : (Method.forEach (closeNode cls) (net.getNodesToRemove cls map)).run net with
    ⟨e | _, left⟩ <;> rw [ran] at trimmed <;> refine ⟨left, trimmed, ?_⟩
  · rw [Method.run_bind_error ran]
    exact .inl ⟨e, rfl, .refl left⟩
  · rw [Method.run_bind_ok ran]
    have filled := run_fillNetwork_refilled cls map ω now left
    generalize (fillNetwork cls map ω now).run left = outcome at filled ⊢
    rcases outcome with ⟨e | _, net'⟩
    · exact .inl ⟨e, rfl, filled.1⟩
    · exact .inr ⟨rfl, filled⟩

/-- When the obsolete nodes can be closed, exactly these are, and then the network is filled. -/
theorem run_setNetwork_of_closable {map : OrderedMap String V} {net : Network}
    (keyed : Keyed cls net)
    (closable : Closable cls net (fun r => cls.isObsolete map (net.heap r)) net.nodes)
    (ω : Nat → Nat) (now : ℚ) :
    ∃ left, Trimmed net left ∧
      left.nodes = net.nodes.filter (fun r => !cls.isObsolete map (net.heap r)) ∧
      (∀ r, left.heap r = if r ∈ net.nodes ∧ cls.isObsolete map (net.heap r) = true
        then (net.heap r).close else net.heap r) ∧
      (setNetwork cls map ω now).run net = (fillNetwork cls map ω now).run left := by
  obtain ⟨left, ran, nodes, heap⟩ := run_closeNodes_of_closable keyed
    (fun r => cls.isObsolete map (net.heap r)) net.nodes [] (by simp) closable
  have trimmed := trimmed_closeNodes cls net (net.getNodesToRemove cls map)
  rw [getNodesToRemove, ran] at trimmed
  refine ⟨left, trimmed, by simpa using nodes, heap, ?_⟩
  simp only [setNetwork, Method.run_this_bind, getNodesToRemove]
  rw [Method.run_bind_ok ran]

theorem closable_of_run_setNetwork {map : OrderedMap String V} {net : Network} (keyed : Keyed cls net)
    {ω : Nat → Nat} {now : ℚ} (returned : ((setNetwork cls map ω now).run net).1 = .ok ()) :
    Closable cls net (fun r => cls.isObsolete map (net.heap r)) net.nodes := by
  simp only [setNetwork, Method.run_this_bind] at returned
  refine closable_of_run keyed _ net.nodes [] (by simp) ?_
  obtain ⟨_, _, ran, -⟩ := Method.run_bind_eq_ok.mp (Method.run_of_ok returned)
  rw [getNodesToRemove] at ran
  rw [ran]

/-! ## Changing the transport security -/

/-- Each node of the list was closed and copied, in this order. -/
structure Copied (f : Node → Node) (nodes : List NodeRef) (net net' : Network)
    (copies : List NodeRef) : Prop where
  allocated : net.allocated ≤ net'.allocated
  heap : ∀ r < net.allocated, net'.heap r = if r ∈ nodes then (net.heap r).close else net.heap r
  new : ∀ r ∈ copies, net.allocated ≤ r ∧ r < net'.allocated
  nodup : copies.Nodup
  copied : copies.map net'.heap = nodes.map fun r => f (net.heap r).close
  rest : net' =
    { net with heap := net'.heap, allocated := net'.allocated, network := net'.network }

/-- The network after one turn of the loop of `setTransportSecurity`. -/
def copyNode (f : Node → Node) (net : Network) (r : NodeRef) : Network :=
  { net with
    heap := Function.update (Function.update net.heap r (net.heap r).close) net.allocated
      (f (net.heap r).close)
    allocated := net.allocated + 1
    network := net.network.push (main.getKey (f (net.heap r).close)) net.allocated }

theorem run_replaceNodes_cons (f : Node → Node) (r : NodeRef) (rest replaced : List NodeRef)
    (net : Network) :
    (replaceNodes f (r :: rest) replaced).run net =
      (replaceNodes f rest (replaced ++ [net.allocated])).run (copyNode f net r) := by
  rw [replaceNodes, Method.run_update_bind, Method.run_this_bind,
    Method.run_bind_ok (run_allocate_eq _ _), Method.run_update_bind]
  simp only [updateNode, copyNode, Function.update_self]

theorem run_replaceNodes_copied (f : Node → Node) (nodes replaced : List NodeRef) (net : Network)
    (listed : Listed net nodes) :
    ∃ copies net', (replaceNodes f nodes replaced).run net = (.ok (replaced ++ copies), net') ∧
      Copied f nodes net net' copies := by
  induction nodes generalizing replaced net with
  | nil =>
      exact ⟨[], net, by simp [replaceNodes], le_rfl, fun _ _ => by simp, by simp, List.nodup_nil,
        rfl, rfl⟩
  | cons r rest inductionHypothesis =>
      obtain ⟨unlisted, nodup⟩ := List.nodup_cons.mp listed.nodup
      have old : r < net.allocated := listed.allocated r List.mem_cons_self
      have oldRest : ∀ r' ∈ rest, r' < net.allocated :=
        fun r' member => listed.allocated r' (List.mem_cons_of_mem _ member)
      have heap : ∀ r' < net.allocated, (copyNode f net r).heap r' =
          if r' = r then (net.heap r).close else net.heap r' := by
        intro r' below
        change Function.update (Function.update net.heap r _) net.allocated _ r' = _
        rw [Function.update_of_ne (Nat.ne_of_lt below), Function.update_apply]
      have copy : (copyNode f net r).heap net.allocated = f (net.heap r).close :=
        Function.update_self ..
      obtain ⟨copies, net', ran, copied⟩ := inductionHypothesis (replaced ++ [net.allocated])
        (copyNode f net r)
        ⟨nodup, fun r' member => (oldRest r' member).trans (Nat.lt_succ_self _)⟩
      have notCopied : net.allocated ∉ rest := fun member => (oldRest _ member).false
      refine ⟨net.allocated :: copies, net', ?_, (Nat.le_succ _).trans copied.allocated, ?_, ?_, ?_,
        ?_, ?_⟩
      · rw [run_replaceNodes_cons, ran]
        simp
      · intro r' below
        rw [copied.heap r' (below.trans (Nat.lt_succ_self _)), heap r' below]
        by_cases same : r' = r
        · subst same
          simp [unlisted]
        · simp [same]
      · intro r' member
        rcases List.mem_cons.mp member with rfl | later
        · exact ⟨le_rfl, copied.allocated⟩
        · exact ⟨(Nat.le_succ _).trans (copied.new r' later).1, (copied.new r' later).2⟩
      · refine List.nodup_cons.mpr ⟨fun member => ?_, copied.nodup⟩
        exact absurd (copied.new _ member).1 (Nat.not_succ_le_self _)
      · rw [List.map_cons, List.map_cons, copied.copied, copied.heap _ (Nat.lt_succ_self _),
          if_neg notCopied, copy]
        congr 1
        refine List.map_congr_left fun r' member => ?_
        rw [heap r' (oldRest r' member), if_neg]
        rintro rfl
        exact unlisted member
      · rw [copied.rest]
        rfl

/-- The function that `setTransportSecurity` applies to a node. -/
def transportCopy (transportSecurity : Bool) : Node → Node :=
  if transportSecurity then Node.toSecure else Node.toInsecure

/-- A change of the transport security closes every listed node and lists its copies
instead, all of them as healthy. -/
theorem run_setTransportSecurity {net : Network} (listed : Listed net net.nodes)
    {transportSecurity : Bool} (changes : net.transportSecurity ≠ transportSecurity) :
    ∃ copies net', (setTransportSecurity transportSecurity).run net =
        (.ok (), { net' with nodes := copies, healthyNodes := copies, transportSecurity }) ∧
      Copied (transportCopy transportSecurity) net.nodes { net with network := .empty } net' copies := by
  obtain ⟨copies, net', ran, copied⟩ := run_replaceNodes_copied (transportCopy transportSecurity)
    net.nodes [] { net with network := .empty } ⟨listed.nodup, listed.allocated⟩
  refine ⟨copies, net', ?_, copied⟩
  rw [transportCopy, List.nil_append] at ran
  simp only [setTransportSecurity, Method.run_this_bind, if_neg changes, Method.run_update_bind]
  rw [Method.run_bind_ok ran, Method.run_update]

end HederaSdk.Network
