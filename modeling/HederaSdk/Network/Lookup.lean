import HederaSdk.Network.Consistency

/-!
# Looking nodes up by key

Whatever the calls and whether they threw, the index of a network files a node
under no key but its own. A lookup by a filed key hands out a node with this
key; only a key that is not filed falls back to another node.
-/

namespace HederaSdk.Network

open Library

variable {V : Type} {cls : NetworkClass V}

structure Keyed (cls : NetworkClass V) (net : Network) : Prop where
  listed : Listed net net.nodes
  tight : net.network.Tight
  keyed : ∀ k, ∀ r ∈ net.network.bucket k, r < net.allocated ∧ keyOf cls net r = k

theorem Filed.keyed {net : Network} (filed : Filed cls net) : Keyed cls net where
  listed := ⟨filed.nodup, filed.allocated⟩
  tight := filed.tight
  keyed := by
    intro k r inBucket
    obtain ⟨member, own⟩ := filed.mem_bucket.mp inBucket
    exact ⟨filed.allocated r member, own⟩

theorem Keyed.congr {net net' : Network} (keyed : Keyed cls net) (same : SameFiling cls net net') :
    Keyed cls net' where
  listed := same.nodes ▸ keyed.listed.mono same.allocated
  tight := same.network ▸ keyed.tight
  keyed := by
    intro k r inBucket
    rw [same.network] at inBucket
    obtain ⟨old, own⟩ := keyed.keyed k r inBucket
    exact ⟨old.trans_le same.allocated, (same.keys r old).trans own⟩

/-! ## The operations -/

theorem keyed_removeNodeFromNetwork (r : NodeRef) :
    Method.Keeps (Keyed cls) (removeNodeFromNetwork cls r) := by
  intro net keyed
  simp only [removeNodeFromNetwork, Method.run_this_bind]
  cases found : net.network.get? (cls.getKey (net.heap r)) with
  | none => exact keyed
  | some bucket =>
      have same : bucket = net.network.bucket (keyOf cls net r) := by
        simp [OrderedMap.bucket, keyOf, found]
      subst same
      change Keyed cls { net with network := net.network.pull (keyOf cls net r) r }
      exact {
        listed := keyed.listed.mono le_rfl
        tight := keyed.tight.pull _ _
        keyed := by
          intro k r' inBucket
          rw [OrderedMap.bucket_pull] at inBucket
          split at inBucket
          · exact keyed.keyed k r' (List.mem_of_mem_erase inBucket)
          · exact keyed.keyed k r' inBucket }

theorem keyed_closeNode (i : Nat) : Method.Keeps (Keyed cls) (closeNode cls i) := by
  refine Method.Keeps.bind .this fun net => ?_
  cases net.nodes[i]? with
  | none => exact .throwing _
  | some r =>
      refine Method.Keeps.bind
        (.update fun net keyed => keyed.congr (sameFiling_updateNode getKey_close r)) fun _ => ?_
      refine Method.Keeps.bind (keyed_removeNodeFromNetwork r) fun _ => ?_
      refine Method.Keeps.update fun net keyed => ⟨?_, keyed.tight, keyed.keyed⟩
      exact ⟨keyed.listed.nodup.sublist (List.eraseIdx_sublist ..),
        fun r member => keyed.listed.allocated r ((List.eraseIdx_sublist ..).mem member)⟩

theorem Filled.keyed {now : ℚ} {net net' : Network} (filled : Filled cls now net net') :
    Keyed cls net' where
  listed := filled.listed
  tight := filled.network ▸ OrderedMap.tight_empty.pushAll _ _
  keyed := by
    intro k r inBucket
    rw [filled.bucket] at inBucket
    have member := List.mem_of_mem_filter (List.mem_of_mem_filter inBucket)
    exact ⟨filled.listed.allocated r member, by simpa using (List.mem_filter.mp inBucket).2⟩

theorem keyed_fillNetwork (map : OrderedMap String V) (ω : Nat → Nat) (now : ℚ) :
    Method.Keeps (Keyed cls) (fillNetwork cls map ω now) := by
  intro net keyed
  have outcome := run_fillNetwork cls map ω now net keyed.listed
  generalize (fillNetwork cls map ω now).run net = result at outcome ⊢
  rcases result with ⟨e | _, net'⟩
  · exact keyed.congr outcome.1.sameFiling
  · exact outcome.keyed

theorem keyed_setNetwork (map : OrderedMap String V) (ω : Nat → Nat) (now : ℚ) :
    Method.Keeps (Keyed cls) (setNetwork cls map ω now) :=
  Method.Keeps.bind .this fun _ =>
    Method.Keeps.bind (.forEach keyed_closeNode _) fun _ => keyed_fillNetwork map ω now

theorem keyed_getNode (key : Option String) (ω : Nat → Nat) (now : ℚ) :
    Method.Keeps (Keyed cls) (Network.getNode key ω now) := by
  intro net keyed
  rw [run_getNode_snd]
  exact keyed.congr (sameFiling_readmitNodes _ now net)

theorem keyed_getNumberOfMostHealthyNodes (count : Nat) (ω : Nat → Nat) (now : ℚ) :
    Method.Keeps (Keyed cls) (getNumberOfMostHealthyNodes cls count ω now) := by
  refine Method.Keeps.bind (.bind .this fun net => .ite (.forEach keyed_closeNode _) (.pure _))
    fun _ => ?_
  exact .bind (.update fun net keyed => keyed.congr (sameFiling_readmitNodes _ now net)) fun _ =>
    .bind .this fun _ => .pure _

theorem keyed_setTransportSecurity (transportSecurity : Bool) :
    Method.Keeps (Keyed main) (setTransportSecurity transportSecurity) := by
  intro net keyed
  simp only [setTransportSecurity, Method.run_this_bind]
  split
  · exact keyed
  · rw [Method.run_update_bind]
    -- the index is built anew, so nothing about the old one is needed
    obtain ⟨result, net', ran, filed⟩ := run_replaceNodes
      (if transportSecurity then Node.toSecure else Node.toInsecure) net.nodes []
      { net with network := .empty }
      ⟨List.nodup_nil, by simp, OrderedMap.tight_empty, by simp⟩
    rw [Method.run_bind_ok ran, Method.run_update]
    exact ⟨filed.keyed.listed.mono le_rfl, filed.keyed.tight, filed.keyed.keyed⟩

theorem keyed_step (net : Network) (call : NetworkCall) (keyed : Keyed main net) :
    Keyed main (step net call) := by
  obtain ⟨op, draws, now⟩ := call
  cases op with
  | setNetwork map => exact keyed_setNetwork map draws now net keyed
  | increaseBackoff node => exact keyed.congr (sameFiling_increaseBackoff node now net)
  | decreaseBackoff node => exact keyed.congr (sameFiling_decreaseBackoff node net)
  | getNode key =>
      exact Method.Keeps.bind (keyed_getNode _ draws now) (fun _ => .pure _) net keyed
  | getNodeAccountIdsForExecute =>
      refine Method.Keeps.bind ?_ (fun _ => .pure _) net keyed
      exact .bind .this fun _ => .bind (keyed_getNumberOfMostHealthyNodes _ draws now) fun _ =>
        .bind .this fun _ => .pure _
  | setTransportSecurity transportSecurity => exact keyed_setTransportSecurity _ net keyed

theorem Reachable.keyed {net : Network} (reachable : Reachable net) : Keyed main net := by
  obtain ⟨start, calls, rfl⟩ := reachable
  exact runAll_invariant_all keyed_step calls (filed_create start).keyed

/-! ## A node keeps its key -/

/-- The node is on the heap, with the key. -/
def KeyAt (cls : NetworkClass V) (r : NodeRef) (key : String) (net : Network) : Prop :=
  r < net.allocated ∧ keyOf cls net r = key

section KeyAt

variable {r : NodeRef} {key : String}

theorem Keyed.keyAt {net : Network} (keyed : Keyed cls net) (inBucket : r ∈ net.network.bucket key) :
    KeyAt cls r key net := keyed.keyed key r inBucket

theorem KeyAt.updateNode {net : Network} (h : KeyAt cls r key net) {f : Node → Node}
    (keeps : ∀ node, cls.getKey (f node) = cls.getKey node) (r' : NodeRef) :
    KeyAt cls r key (net.updateNode r' f) := ⟨h.1, (keyOf_updateNode keeps r' r).trans h.2⟩

theorem keyAt_allocate (node : Node) : Method.Keeps (KeyAt cls r key) (allocate node) := by
  intro net h
  obtain ⟨net', ran, ext, _⟩ := run_allocate node net
  rw [ran]
  exact ⟨h.1.trans_le ext.allocated, by rw [keyOf, ext.heap r h.1]; exact h.2⟩

theorem keyAt_closeNode (i : Nat) : Method.Keeps (KeyAt cls r key) (closeNode cls i) := by
  refine Method.Keeps.bind .this fun net => ?_
  cases net.nodes[i]? with
  | none => exact .throwing _
  | some r' =>
      refine .bind (.update fun _ h => h.updateNode getKey_close r') fun _ =>
        .bind (.bind .this fun net => ?_) fun _ => .update fun _ h => h
      simp only
      cases net.network.get? (cls.getKey (net.heap r')) with
      | none => exact .throwing _
      | some bucket => exact .update fun _ h => h

theorem keyAt_addNewNodes (known : List (String × String)) (now : ℚ) (entries : List (String × V))
    (nodes : List NodeRef) :
    Method.Keeps (KeyAt cls r key) (addNewNodes cls known now entries nodes) := by
  induction entries generalizing nodes with
  | nil => exact .pure _
  | cons entry rest inductionHypothesis =>
      exact .ite (inductionHypothesis _) (.bind .this fun _ => .bind (.ofExcept _) fun _ =>
        .bind (keyAt_allocate _) fun _ => inductionHypothesis _)

theorem keyAt_setNetwork (map : OrderedMap String V) (ω : Nat → Nat) (now : ℚ) :
    Method.Keeps (KeyAt cls r key) (setNetwork cls map ω now) :=
  .bind .this fun _ => .bind (.forEach keyAt_closeNode _) fun _ =>
    .bind .this fun _ => .bind (keyAt_addNewNodes _ _ _ _) fun _ => .update fun _ h => h

theorem keyAt_readmitNodes (now : ℚ) {net : Network} (h : KeyAt cls r key net) :
    KeyAt cls r key (net.readmitNodes now) :=
  have same := sameFiling_readmitNodes cls now net
  ⟨h.1.trans_le same.allocated, (same.keys r h.1).trans h.2⟩

theorem keyAt_getNumberOfMostHealthyNodes (count : Nat) (ω : Nat → Nat) (now : ℚ) :
    Method.Keeps (KeyAt cls r key) (getNumberOfMostHealthyNodes cls count ω now) :=
  .bind (.bind .this fun _ => .ite (.forEach keyAt_closeNode _) (.pure _)) fun _ =>
    .bind (.update fun _ => keyAt_readmitNodes now) fun _ => .bind .this fun _ => .pure _

theorem keyAt_replaceNodes (f : Node → Node) (nodes replaced : List NodeRef) :
    Method.Keeps (KeyAt main r key) (replaceNodes f nodes replaced) := by
  induction nodes generalizing replaced with
  | nil => exact .pure _
  | cons r' rest inductionHypothesis =>
      exact .bind (.update fun _ h => h.updateNode getKey_close r') fun _ => .bind .this fun _ =>
        .bind (keyAt_allocate _) fun _ => .bind (.update fun _ h => h) fun _ => inductionHypothesis _

theorem keyAt_step (net : Network) (call : NetworkCall) (h : KeyAt main r key net) :
    KeyAt main r key (step net call) := by
  obtain ⟨op, draws, now⟩ := call
  cases op with
  | setNetwork map => exact keyAt_setNetwork map draws now net h
  | increaseBackoff node => exact h.updateNode (f := (·.increaseBackoff now)) (fun _ => rfl) node
  | decreaseBackoff node => exact h.updateNode (f := Node.decreaseBackoff) (fun _ => rfl) node
  | getNode key' =>
      refine Method.Keeps.bind (I := KeyAt main r key) ?_ (fun _ => .pure _) net h
      intro net h
      rw [run_getNode_snd]
      exact keyAt_readmitNodes now h
  | getNodeAccountIdsForExecute =>
      refine Method.Keeps.bind ?_ (fun _ => .pure _) net h
      exact .bind .this fun _ => .bind (keyAt_getNumberOfMostHealthyNodes _ _ _) fun _ =>
        .bind .this fun _ => .pure _
  | setTransportSecurity transportSecurity =>
      refine Method.Keeps.bind .this (fun _ => .ite (.pure _) ?_) net h
      exact .bind (.update fun _ h => h) fun _ => .bind (keyAt_replaceNodes _ _ _) fun _ =>
        .update fun _ h => h

end KeyAt

/-! ## Lookups -/

theorem randomElement_mem {β : Type} {draw : Nat} {list : List β} {b : β}
    (picked : randomElement draw list = some b) : b ∈ list :=
  List.mem_of_getElem? picked

theorem exists_randomElement {β : Type} (draw : Nat) {list : List β} (nonempty : list ≠ []) :
    ∃ b, randomElement draw list = some b :=
  ⟨_, List.getElem?_eq_getElem (Nat.mod_lt _ (List.length_pos_iff.mpr nonempty))⟩

/-- A key whose bucket is not empty is looked up to a node of the bucket. -/
theorem run_getNode_bucket {net : Network} {key : String} (filed : net.network.bucket key ≠ [])
    (ω : Nat → Nat) (now : ℚ) :
    ∃ r ∈ net.network.bucket key,
      (Network.getNode (some key) ω now).run net = (.ok (some r), net.readmitNodes now) := by
  have same := sameFiling_readmitNodes main now net
  obtain ⟨r, picked⟩ := exists_randomElement (ω 0) filed
  have found := OrderedMap.get?_of_mem_bucket (randomElement_mem picked)
  refine ⟨r, randomElement_mem picked, ?_⟩
  simp only [Network.getNode, Method.run_update_bind, Method.run_this_bind, same.network, found,
    picked, Method.run_pure]

/-- A key that is filed is looked up to a node with this key. -/
theorem run_getNode_filed {net : Network} (keyed : Keyed cls net) {key : String}
    (filed : net.network.has key = true) (ω : Nat → Nat) (now : ℚ) :
    ∃ r, (Network.getNode (some key) ω now).run net = (.ok (some r), net.readmitNodes now) ∧
      keyOf cls (net.readmitNodes now) r = key := by
  have same := sameFiling_readmitNodes cls now net
  obtain ⟨bucket, found⟩ := Option.isSome_iff_exists.mp filed
  have nonempty : net.network.bucket key ≠ [] := by
    rw [OrderedMap.bucket, found]
    exact fun empty => keyed.tight key (empty ▸ found)
  obtain ⟨r, inBucket, ran⟩ := run_getNode_bucket nonempty ω now
  exact ⟨r, ran, (keyed.congr same).keyed key r (by rwa [same.network]) |>.2⟩

/-- A key that is not filed is looked up to some filed node. -/
theorem run_getNode_unfiled {net : Network} (keyed : Keyed cls net) {key : String}
    (unfiled : net.network.has key = false) (nonempty : net.network.keys ≠ []) (ω : Nat → Nat)
    (now : ℚ) :
    ∃ r, (Network.getNode (some key) ω now).run net = (.ok (some r), net.readmitNodes now) ∧
      keyOf cls (net.readmitNodes now) r ∈ net.network.keys ∧
      keyOf cls (net.readmitNodes now) r ≠ key := by
  have same := sameFiling_readmitNodes cls now net
  have absent : net.network.get? key = none := by simpa [OrderedMap.has] using unfiled
  obtain ⟨k, pickedKey⟩ := exists_randomElement (ω 0) nonempty
  have inKeys := randomElement_mem pickedKey
  obtain ⟨bucket, found⟩ := OrderedMap.exists_get?_of_mem_keys inKeys
  have isBucket : net.network.bucket k = bucket := by simp [OrderedMap.bucket, found]
  obtain ⟨r, picked⟩ := exists_randomElement (ω 1) fun empty => keyed.tight k (empty ▸ found)
  have own : keyOf cls (net.readmitNodes now) r = k :=
    ((keyed.congr same).keyed k r (by rw [same.network, isBucket]; exact randomElement_mem picked)).2
  refine ⟨r, ?_, own ▸ inKeys, fun h => ?_⟩
  · simp only [Network.getNode, Method.run_update_bind, Method.run_this_bind, same.network, absent,
      pickedKey, isBucket, picked, Method.run_pure]
  · rw [own] at h
    exact OrderedMap.get?_eq_none.mp absent (h ▸ inKeys)

end HederaSdk.Network
