import HederaSdk.Js.Shuffle
import HederaSdk.Network.Network
import Mathlib.Data.List.Induction

/-!
# How the operations file the nodes

`Filed` ties the index of a network to its list of nodes by counting: a node
occurs in a bucket as often as it is listed when the bucket is its own, and not
at all otherwise. Every operation but `setNetwork` keeps it; `setNetwork` does
exactly when it keeps no unhealthy node.
-/

namespace HederaSdk.Network

open Library

variable {V : Type} (cls : NetworkClass V)

/-- The key a node is to be found under. -/
def keyOf (net : Network) (r : NodeRef) : String := cls.getKey (net.heap r)

structure Filed (net : Network) : Prop where
  nodup : net.nodes.Nodup
  allocated : ∀ r ∈ net.nodes, r < net.allocated
  tight : net.network.Tight
  filed : ∀ k r, (net.network.bucket k).count r =
    if keyOf cls net r = k then net.nodes.count r else 0

/-! ## Changes that do not touch the filing -/

/-- The second network lists and files the nodes of the first, with the same keys. -/
structure SameFiling (net net' : Network) : Prop where
  nodes : net'.nodes = net.nodes
  network : net'.network = net.network
  allocated : net.allocated ≤ net'.allocated
  keys : ∀ r < net.allocated, keyOf cls net' r = keyOf cls net r

variable {cls}

theorem Filed.congr {net net' : Network} (filed : Filed cls net) (same : SameFiling cls net net') :
    Filed cls net' where
  nodup := same.nodes ▸ filed.nodup
  allocated := by
    rw [same.nodes]
    exact fun r member => (filed.allocated r member).trans_le same.allocated
  tight := same.network ▸ filed.tight
  filed := by
    intro k r
    rw [same.network, same.nodes, filed.filed]
    by_cases old : r < net.allocated
    · rw [same.keys r old]
    · have unlisted : net.nodes.count r = 0 :=
        List.count_eq_zero.mpr fun member => old (filed.allocated r member)
      simp [unlisted]

variable (cls) in
theorem sameFiling_readmitNodes (now : ℚ) (net : Network) :
    SameFiling cls net (net.readmitNodes now) := by
  unfold readmitNodes
  split <;> exact ⟨rfl, rfl, le_rfl, fun _ _ => rfl⟩

theorem keyOf_updateNode {net : Network} {f : Node → Node}
    (keeps : ∀ node, cls.getKey (f node) = cls.getKey node) (r r' : NodeRef) :
    keyOf cls (net.updateNode r f) r' = keyOf cls net r' := by
  by_cases same : r' = r
  · subst same
    simp [keyOf, updateNode, keeps]
  · simp [keyOf, updateNode, Function.update_of_ne same]

theorem sameFiling_updateNode {net : Network} {f : Node → Node}
    (keeps : ∀ node, cls.getKey (f node) = cls.getKey node) (r : NodeRef) :
    SameFiling cls net (net.updateNode r f) :=
  ⟨rfl, rfl, le_rfl, fun r' _ => keyOf_updateNode keeps r r'⟩

theorem getKey_close (node : Node) : cls.getKey node.close = cls.getKey node :=
  cls.getKey_congr _ _ rfl rfl

theorem sameFiling_increaseBackoff (r : NodeRef) (now : ℚ) (net : Network) :
    SameFiling cls net (net.increaseBackoff r now) :=
  ⟨rfl, rfl, le_rfl, fun r' _ => keyOf_updateNode (f := (·.increaseBackoff now))
    (fun _ => cls.getKey_congr _ _ rfl rfl) r r'⟩

theorem sameFiling_decreaseBackoff (r : NodeRef) (net : Network) :
    SameFiling cls net (net.decreaseBackoff r) :=
  sameFiling_updateNode (f := Node.decreaseBackoff) (fun _ => cls.getKey_congr _ _ rfl rfl) r

/-- `getNode` looks nodes up after readmitting; it changes nothing else. -/
theorem run_getNode_snd (key : Option String) (ω : Nat → Nat) (now : ℚ) (net : Network) :
    ((Network.getNode key ω now).run net).2 = net.readmitNodes now := by
  simp only [Network.getNode, Method.run_update_bind, Method.run_this_bind]
  split
  · split <;> rfl
  · split
    · rfl
    · split <;> rfl

/-! ## Closing nodes -/

theorem Filed.mem_bucket {net : Network} (filed : Filed cls net) {k : String} {r : NodeRef} :
    r ∈ net.network.bucket k ↔ r ∈ net.nodes ∧ keyOf cls net r = k := by
  rw [← List.count_pos_iff, filed.filed]
  by_cases same : keyOf cls net r = k <;> simp [same]

/-- The network after a node was closed and taken from its bucket and the list. -/
structure Closed (net net' : Network) (r : NodeRef) : Prop where
  nodes : net'.nodes = net.nodes.erase r
  heap : net'.heap = Function.update net.heap r (net.heap r).close
  allocated : net'.allocated = net.allocated

theorem run_removeNodeFromNetwork {net : Network} {r : NodeRef}
    (inBucket : r ∈ net.network.bucket (keyOf cls net r)) :
    (removeNodeFromNetwork cls r).run net = (.ok (), { net with network := net.network.pull (keyOf cls net r) r }) := by
  have found := OrderedMap.get?_of_mem_bucket inBucket
  simp only [keyOf] at found
  simp only [removeNodeFromNetwork, Method.run_this_bind, found]
  rfl

theorem run_closeNode {net : Network} (filed : Filed cls net) {i : Nat} {r : NodeRef}
    (listed : net.nodes[i]? = some r) :
    ∃ net', (closeNode cls i).run net = (.ok (), net') ∧ Filed cls net' ∧ Closed net net' r := by
  have member : r ∈ net.nodes := List.mem_of_getElem? listed
  have inBucket : r ∈ net.network.bucket (keyOf cls net r) := filed.mem_bucket.mpr ⟨member, rfl⟩
  have keys : ∀ r', keyOf cls (net.updateNode r Node.close) r' = keyOf cls net r' :=
    keyOf_updateNode getKey_close r
  have erased : net.nodes.eraseIdx i = net.nodes.erase r := by
    obtain ⟨inBounds, rfl⟩ := List.getElem?_eq_some_iff.mp listed
    rw [filed.nodup.erase_getElem]
  have stillFiled : r ∈ (net.updateNode r Node.close).network.bucket
      (keyOf cls (net.updateNode r Node.close) r) := by
    rw [keys]
    exact inBucket
  have removed := run_removeNodeFromNetwork stillFiled
  refine ⟨{ net.updateNode r Node.close with
    network := net.network.pull (keyOf cls net r) r, nodes := net.nodes.erase r }, ?_, ?_, ⟨rfl, rfl, rfl⟩⟩
  · simp only [closeNode, Method.run_this_bind, listed, Method.run_update_bind]
    rw [Method.run_bind_ok removed, Method.run_update, keys, ← erased]
    rfl
  · exact {
      nodup := filed.nodup.erase r
      allocated := fun r' inRest => filed.allocated r' (List.mem_of_mem_erase inRest)
      tight := filed.tight.pull _ r
      filed := by
        intro k r'
        change ((net.network.pull (keyOf cls net r) r).bucket k).count r' =
          if keyOf cls (net.updateNode r Node.close) r' = k then (net.nodes.erase r).count r' else 0
        rw [keys, OrderedMap.bucket_pull, List.count_erase]
        by_cases own : keyOf cls net r = k
        · simp only [own, if_true, List.count_erase, filed.filed]
          by_cases same : keyOf cls net r' = k <;> simp [same]
        · simp only [own, if_false, filed.filed]
          by_cases same : keyOf cls net r' = k
          · have other : r ≠ r' := fun h => own (h ▸ same)
            simp [same, other]
          · simp [same] }

/-- The nodes that a list of tests down the indices leaves. -/
theorem indicesDown_append (test : NodeRef → Bool) (nodes : List NodeRef) (r : NodeRef) :
    indicesDown test (nodes ++ [r]) =
      if test r then nodes.length :: indicesDown test nodes else indicesDown test nodes := by
  have same : ∀ i ∈ (List.range nodes.length).reverse,
      ((nodes ++ [r])[i]?).any test = (nodes[i]?).any test := by
    intro i inRange
    rw [List.getElem?_append_left (by simpa using inRange)]
  simp only [indicesDown, List.length_append, List.length_singleton, List.range_succ,
    List.reverse_append, List.reverse_singleton, List.singleton_append, List.filter_cons,
    List.getElem?_concat_length, Option.any_some, List.filter_congr same]

/-- The network after the nodes that failed a test were closed: nothing but the
channels of closed nodes changed in the heap. -/
structure Pruned (net net' : Network) : Prop where
  allocated : net'.allocated = net.allocated
  heap : ∀ r, net'.heap r = net.heap r ∨ net'.heap r = (net.heap r).close

theorem Pruned.refl (net : Network) : Pruned net net := ⟨rfl, fun _ => .inl rfl⟩

theorem Closed.pruned {net net' : Network} {r : NodeRef} (closed : Closed net net' r) :
    Pruned net net' := by
  refine ⟨closed.allocated, fun r' => ?_⟩
  rw [closed.heap]
  by_cases same : r' = r
  · subst same
    exact .inr (Function.update_self ..)
  · exact .inl (Function.update_of_ne same ..)

theorem Pruned.trans {net net' net'' : Network} (first : Pruned net net')
    (second : Pruned net' net'') : Pruned net net'' := by
  refine ⟨second.allocated.trans first.allocated, fun r => ?_⟩
  rcases first.heap r with same | closed <;> rcases second.heap r with same' | closed'
  · exact .inl (same'.trans same)
  · exact .inr (closed'.trans (congrArg Node.close same))
  · exact .inr (same'.trans closed)
  · exact .inr (by rw [closed', closed]; rfl)

/-- Closing, from the back, the nodes that pass a test never throws and leaves
the others. The induction walks the list from its end; `tail` is what it has
walked over. -/
theorem run_closeNodes {net : Network} (filed : Filed cls net) (test : NodeRef → Bool)
    (nodes tail : List NodeRef) (listed : net.nodes = nodes ++ tail) :
    ∃ net', (Method.forEach (closeNode cls) (indicesDown test nodes)).run net = (.ok (), net') ∧
      Filed cls net' ∧ Pruned net net' ∧
      net'.nodes = nodes.filter (fun r => !test r) ++ tail := by
  induction nodes using List.reverseRecOn generalizing net tail with
  | nil => exact ⟨net, rfl, filed, .refl net, listed⟩
  | append_singleton nodes r inductionHypothesis =>
      rw [indicesDown_append]
      by_cases remove : test r
      · have last : net.nodes[nodes.length]? = some r := by simp [listed]
        obtain ⟨closedNet, ran, filed', closed⟩ := run_closeNode filed last
        have listed' : closedNet.nodes = nodes ++ tail := by
          have unlisted : r ∉ nodes := by
            intro member
            have nodup := filed.nodup
            rw [listed, List.append_assoc] at nodup
            exact (List.nodup_append.mp nodup).2.2 r member r (by simp) rfl
          rw [closed.nodes, listed, List.append_assoc, List.erase_append_right _ unlisted]
          simp
        obtain ⟨net', ran', filed'', pruned, left⟩ := inductionHypothesis filed' tail listed'
        refine ⟨net', ?_, filed'', closed.pruned.trans pruned, ?_⟩
        · rw [if_pos remove, Method.forEach_cons, Method.run_bind_ok ran, ran']
        · simpa [remove] using left
      · obtain ⟨net', ran, filed', pruned, left⟩ :=
          inductionHypothesis filed (r :: tail) (by simpa using listed)
        refine ⟨net', by rw [if_neg remove]; exact ran, filed', pruned, ?_⟩
        simpa [remove] using left

/-! ## New nodes -/

/-- The second network has new nodes on the heap, and nothing else is changed. -/
structure Extends (net net' : Network) : Prop where
  nodes : net'.nodes = net.nodes
  network : net'.network = net.network
  allocated : net.allocated ≤ net'.allocated
  heap : ∀ r < net.allocated, net'.heap r = net.heap r

theorem Extends.refl (net : Network) : Extends net net := ⟨rfl, rfl, le_rfl, fun _ _ => rfl⟩

theorem Extends.trans {net net' net'' : Network} (first : Extends net net')
    (second : Extends net' net'') : Extends net net'' where
  nodes := second.nodes.trans first.nodes
  network := second.network.trans first.network
  allocated := first.allocated.trans second.allocated
  heap := fun r old =>
    (second.heap r (old.trans_le first.allocated)).trans (first.heap r old)

/-- A list of different nodes of the heap. -/
structure Listed (net : Network) (nodes : List NodeRef) : Prop where
  nodup : nodes.Nodup
  allocated : ∀ r ∈ nodes, r < net.allocated

theorem Listed.mono {net net' : Network} {nodes : List NodeRef} (listed : Listed net nodes)
    (order : net.allocated ≤ net'.allocated) : Listed net' nodes :=
  ⟨listed.nodup, fun r member => (listed.allocated r member).trans_le order⟩

theorem run_allocate (node : Node) (net : Network) :
    ∃ net', (allocate node).run net = (.ok net.allocated, net') ∧ Extends net net' ∧
      net'.allocated = net.allocated + 1 ∧ net'.heap net.allocated = node := by
  refine ⟨_, rfl, ⟨rfl, rfl, Nat.le_succ _, ?_⟩, rfl, Function.update_self ..⟩
  exact fun r old => Function.update_of_ne (Nat.ne_of_lt old) ..

theorem Listed.concat {net net' : Network} {nodes : List NodeRef} (listed : Listed net nodes)
    (one : net'.allocated = net.allocated + 1) : Listed net' (nodes ++ [net.allocated]) where
  nodup := by
    refine listed.nodup.append (List.nodup_singleton _) (List.disjoint_singleton.mpr ?_)
    exact fun member => (listed.allocated _ member).false
  allocated := by
    intro r member
    rw [one]
    rcases List.mem_append.mp member with old | new
    · exact (listed.allocated r old).trans (Nat.lt_succ_self _)
    · rw [List.mem_singleton.mp new]
      exact Nat.lt_succ_self _

/-- What `addNewNodes` makes of a list: the list itself and new, healthy nodes. -/
structure Added (now : ℚ) (net net' : Network) (nodes result : List NodeRef) : Prop where
  «extends» : Extends net net'
  listed : Listed net' result
  old : ∀ r ∈ nodes, r ∈ result
  fresh : ∀ r ∈ result, r ∉ nodes → (net'.heap r).isHealthy now = true

/-- It throws only when a node cannot be created. -/
def AddedOrThrown (cls : NetworkClass V) (now : ℚ) (entries : List (String × V)) (net : Network)
    (nodes : List NodeRef) : Except JsError (List NodeRef) × Network → Prop
  | (.ok result, net') => Added now net net' nodes result
  | (.error e, net') => Extends net net' ∧ ∃ entry ∈ entries, ∃ minBackoff,
      cls.createNodeFromNetworkEntry minBackoff now entry.1 entry.2 = .error e

theorem AddedOrThrown.later {now : ℚ} {entry : String × V} {rest : List (String × V)}
    {net : Network} {nodes : List NodeRef} {outcome : Except JsError (List NodeRef) × Network}
    (h : AddedOrThrown cls now rest net nodes outcome) :
    AddedOrThrown cls now (entry :: rest) net nodes outcome := by
  rcases outcome with ⟨e | result, net'⟩
  · obtain ⟨ext, entry', member, failed⟩ := h
    exact ⟨ext, entry', List.mem_cons_of_mem _ member, failed⟩
  · exact h

theorem AddedOrThrown.concat {now : ℚ} {entries : List (String × V)} {net net₁ : Network}
    {nodes : List NodeRef} {outcome : Except JsError (List NodeRef) × Network}
    (ext : Extends net net₁) (one : net₁.allocated = net.allocated + 1)
    (healthy : (net₁.heap net.allocated).isHealthy now = true)
    (h : AddedOrThrown cls now entries net₁ (nodes ++ [net.allocated]) outcome) :
    AddedOrThrown cls now entries net nodes outcome := by
  rcases outcome with ⟨e | result, net'⟩
  · exact ⟨ext.trans h.1, h.2⟩
  · refine ⟨ext.trans h.extends, h.listed, fun r member => h.old r (by simp [member]), ?_⟩
    intro r inResult notOld
    by_cases created : r = net.allocated
    · rw [created, h.extends.heap _ (one ▸ Nat.lt_succ_self _)]
      exact healthy
    · exact h.fresh r inResult (by simp [notOld, created])

variable (cls) in
theorem run_addNewNodes (known : List (String × String)) (now : ℚ) (entries : List (String × V))
    (nodes : List NodeRef) (net : Network) (listed : Listed net nodes) :
    AddedOrThrown cls now entries net nodes
      ((addNewNodes cls known now entries nodes).run net) := by
  induction entries generalizing nodes net with
  | nil => exact ⟨.refl net, listed, fun _ member => member, fun _ member new => absurd member new⟩
  | cons entry rest inductionHypothesis =>
      obtain ⟨entry, value⟩ := entry
      unfold addNewNodes
      split
      · exact (inductionHypothesis nodes net listed).later
      · rw [Method.run_this_bind]
        cases created : cls.createNodeFromNetworkEntry net.minBackoff now entry value with
        | error e => exact ⟨.refl net, (entry, value), List.mem_cons_self, _, created⟩
        | ok node =>
            obtain ⟨net₁, ran, ext, one, new⟩ := run_allocate node net
            rw [Method.run_bind_ok (Method.run_ofExcept_ok node net), Method.run_bind_ok ran]
            have healthy := cls.created_healthy _ _ _ _ _ created
            exact ((inductionHypothesis _ net₁ (listed.concat one)).concat ext one
              (new ▸ healthy)).later

/-- Nodes are shuffled as any list is. -/
theorem shuffle_eq (ω : Nat → Nat) (nodes : List NodeRef) : shuffle ω nodes = Js.shuffle ω nodes := by
  have from_ (n : Nat) (array : Array NodeRef) : shuffleFrom ω n array = Js.shuffleFrom ω n array := by
    induction n generalizing array with
    | zero => rfl
    | succ n inductionHypothesis => exact inductionHypothesis _
  rw [shuffle, from_]
  rfl

theorem shuffle_perm (ω : Nat → Nat) (nodes : List NodeRef) : (shuffle ω nodes).Perm nodes :=
  shuffle_eq ω nodes ▸ Js.shuffle_perm ω nodes

end HederaSdk.Network
