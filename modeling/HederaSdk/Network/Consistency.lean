import HederaSdk.Network.Filing

/-!
# Consistency of the three collections

A network is consistent when its index holds exactly the listed nodes, each
once and under its own key. It stays consistent as long as `setNetwork` is not
called while a node it keeps is unhealthy: such a node stays listed and leaves
the index.
-/

namespace HederaSdk.Network

open Library

variable {V : Type} {cls : NetworkClass V}

/-! ## Rebuilding the index -/

/-- The network after the index was rebuilt from the healthy nodes of the list. -/
structure Filled (cls : NetworkClass V) (now : ℚ) (net net' : Network) : Prop where
  listed : Listed net' net'.nodes
  heap : ∀ r < net.allocated, net'.heap r = net.heap r
  old : ∀ r ∈ net.nodes, r ∈ net'.nodes
  fresh : ∀ r ∈ net'.nodes, r ∉ net.nodes → (net'.heap r).isHealthy now = true
  network : net'.network = OrderedMap.pushAll (keyOf cls net') .empty
    (net'.nodes.filter fun r => (net'.heap r).isHealthy now)

def FilledOrThrown (cls : NetworkClass V) (map : OrderedMap String V) (now : ℚ) (net : Network) :
    Except JsError Unit × Network → Prop
  | (.ok _, net') => Filled cls now net net'
  | (.error e, net') => Extends net net' ∧ ∃ entry ∈ map.entries, ∃ minBackoff,
      cls.createNodeFromNetworkEntry minBackoff now entry.1 entry.2 = .error e

variable (cls) in
theorem run_fillNetwork (map : OrderedMap String V) (ω : Nat → Nat) (now : ℚ) (net : Network)
    (listed : Listed net net.nodes) :
    FilledOrThrown cls map now net ((fillNetwork cls map ω now).run net) := by
  simp only [fillNetwork, Method.run_this_bind]
  have added := run_addNewNodes cls (net.nodes.map fun r =>
    (cls.getKey (net.heap r), (net.heap r).address.toString)) now map.entries net.nodes net listed
  rcases ran : (addNewNodes cls _ now map.entries net.nodes).run net with ⟨e | result, net'⟩ <;>
    rw [ran] at added
  · rw [Method.run_bind_error ran]
    exact added
  · rw [Method.run_bind_ok ran, Method.run_update]
    have same : ∀ r, r ∈ shuffle ω result ↔ r ∈ result := fun _ => (shuffle_perm ω result).mem_iff
    exact {
      listed := ⟨(shuffle_perm ω result).nodup_iff.mpr added.listed.nodup,
        fun r member => added.listed.allocated r ((same r).mp member)⟩
      heap := added.extends.heap
      old := fun r member => (same r).mpr (added.old r member)
      fresh := fun r member => added.fresh r ((same r).mp member)
      network := rfl }

theorem Filled.bucket {now : ℚ} {net net' : Network} (filled : Filled cls now net net') (k : String) :
    net'.network.bucket k = (net'.nodes.filter fun r => (net'.heap r).isHealthy now).filter
      fun r => decide (keyOf cls net' r = k) := by
  rw [filled.network, OrderedMap.bucket_pushAll, OrderedMap.bucket_empty, List.nil_append]

/-- The rebuilt index files every listed node exactly when all of them are healthy. -/
theorem Filled.filed_iff {now : ℚ} {net net' : Network} (filled : Filled cls now net net') :
    Filed cls net' ↔ ∀ r ∈ net'.nodes, (net'.heap r).isHealthy now = true := by
  constructor
  · intro filed r member
    have inBucket := filed.mem_bucket.mpr ⟨member, rfl⟩
    rw [filled.bucket] at inBucket
    simpa using (List.mem_filter.mp (List.mem_of_mem_filter inBucket)).2
  · intro healthy
    have all : (net'.nodes.filter fun r => (net'.heap r).isHealthy now) = net'.nodes :=
      List.filter_eq_self.mpr healthy
    exact {
      nodup := filled.listed.nodup
      allocated := filled.listed.allocated
      tight := filled.network ▸ OrderedMap.tight_empty.pushAll _ _
      filed := by
        intro k r
        rw [filled.bucket, all]
        by_cases own : keyOf cls net' r = k
        · rw [if_pos own, List.count_filter (by simpa using own)]
        · rw [if_neg own, List.count_eq_zero]
          exact fun member => own (by simpa using (List.mem_filter.mp member).2) }

/-! ## The operations -/

/-- Every node that a call of `setNetwork` keeps is healthy at the time of the call. -/
def KeepsHealthy (cls : NetworkClass V) (map : OrderedMap String V) (now : ℚ) (net : Network) :
    Prop :=
  ∀ r ∈ net.nodes, cls.isObsolete map (net.heap r) = false → (net.heap r).isHealthy now = true

instance (map : OrderedMap String V) (now : ℚ) (net : Network) :
    Decidable (KeepsHealthy cls map now net) :=
  inferInstanceAs (Decidable (∀ r ∈ net.nodes, _ → _))

theorem Extends.sameFiling {net net' : Network} (ext : Extends net net') :
    SameFiling cls net net' where
  nodes := ext.nodes
  network := ext.network
  allocated := ext.allocated
  keys := fun r old => congrArg cls.getKey (ext.heap r old)

theorem Pruned.isHealthy {net net' : Network} (pruned : Pruned net net') (r : NodeRef) (now : ℚ) :
    (net'.heap r).isHealthy now = (net.heap r).isHealthy now := by
  rcases pruned.heap r with same | closed
  · rw [same]
  · rw [closed, Node.isHealthy_close]

/-- What `setNetwork` leaves of a consistent network: a network whose index was
rebuilt from the nodes kept and the new ones, or, when a new address cannot be
read, a consistent network. -/
def SetOrThrown (cls : NetworkClass V) (map : OrderedMap String V) (now : ℚ) (net : Network) :
    Except JsError Unit × Network → Prop
  | (.ok _, net') => ∃ pruned, Pruned net pruned ∧ Filled cls now pruned net' ∧
      pruned.nodes = net.nodes.filter fun r => !cls.isObsolete map (net.heap r)
  | (.error e, net') => Filed cls net' ∧ ∃ entry ∈ map.entries, ∃ minBackoff,
      cls.createNodeFromNetworkEntry minBackoff now entry.1 entry.2 = .error e

theorem run_setNetwork {net : Network} (filed : Filed cls net) (map : OrderedMap String V)
    (ω : Nat → Nat) (now : ℚ) :
    SetOrThrown cls map now net ((setNetwork cls map ω now).run net) := by
  simp only [setNetwork, Method.run_this_bind]
  obtain ⟨net', ran, filed', pruned, left⟩ := run_closeNodes filed
    (fun r => cls.isObsolete map (net.heap r)) net.nodes [] (by simp)
  rw [getNodesToRemove, Method.run_bind_ok ran]
  have filled := run_fillNetwork cls map ω now net' ⟨filed'.nodup, filed'.allocated⟩
  generalize (fillNetwork cls map ω now).run net' = outcome at filled ⊢
  rcases outcome with ⟨e | _, net''⟩
  · exact ⟨filed'.congr filled.1.sameFiling, filled.2⟩
  · exact ⟨net', pruned, filled, by simpa using left⟩

theorem filed_setNetwork {net : Network} (filed : Filed cls net) {map : OrderedMap String V}
    {now : ℚ} (healthy : KeepsHealthy cls map now net) (ω : Nat → Nat) :
    Filed cls ((setNetwork cls map ω now).run net).2 := by
  have outcome := run_setNetwork filed map ω now
  generalize (setNetwork cls map ω now).run net = result at outcome ⊢
  rcases result with ⟨e | _, net'⟩
  · exact outcome.1
  · obtain ⟨prunedNet, pruned, filled, left⟩ := outcome
    refine filled.filed_iff.mpr fun r member => ?_
    by_cases kept : r ∈ prunedNet.nodes
    · have old : r ∈ net.nodes ∧ cls.isObsolete map (net.heap r) = false := by
        simpa [left] using kept
      rw [filled.heap r (pruned.allocated ▸ filed.allocated r old.1), pruned.isHealthy]
      exact healthy r old.1 old.2
    · exact filled.fresh r member kept

theorem filed_getNumberOfMostHealthyNodes {net : Network} (filed : Filed cls net) (count : Nat)
    (ω : Nat → Nat) (now : ℚ) :
    Filed cls ((getNumberOfMostHealthyNodes cls count ω now).run net).2 := by
  have dead : ∃ net', (removeDeadNodes cls).run net = (.ok (), net') ∧ Filed cls net' := by
    simp only [removeDeadNodes, Method.run_this_bind]
    split
    · obtain ⟨net', ran, filed', _⟩ := run_closeNodes filed
        (fun r => decide (net.maxNodeAttempts ≤ (net.heap r).badGrpcStatusCount)) net.nodes []
        (by simp)
      exact ⟨net', ran, filed'⟩
    · exact ⟨net, rfl, filed⟩
  obtain ⟨net', ran, filed'⟩ := dead
  rw [getNumberOfMostHealthyNodes, Method.run_bind_ok ran]
  exact filed'.congr (sameFiling_readmitNodes _ now net')

theorem run_getNodeAccountIdsForExecute_snd (ω : Nat → Nat) (now : ℚ) (net : Network) :
    ((Network.getNodeAccountIdsForExecute ω now).run net).2 =
      ((getNumberOfMostHealthyNodes main net.getNumberOfNodesForTransaction ω now).run net).2 := by
  rw [Network.getNodeAccountIdsForExecute, Method.run_this_bind]
  exact Method.run_bind_snd _ net fun _ _ => rfl

/-! ### Changing the transport security -/

theorem Filed.push {net net' : Network} {nodes : List NodeRef}
    (filed : Filed cls { net with nodes }) (ext : Extends net net')
    (one : net'.allocated = net.allocated + 1) :
    Filed cls { net' with
      nodes := nodes ++ [net.allocated]
      network := net'.network.push (keyOf cls net' net.allocated) net.allocated } := by
  have listed : Listed net nodes := ⟨filed.nodup, filed.allocated⟩
  have new : nodes.count net.allocated = 0 :=
    List.count_eq_zero.mpr fun member => (listed.allocated _ member).false
  have before : Filed cls { net' with nodes } := filed.congr
    ⟨rfl, ext.network, ext.allocated, ext.sameFiling.keys⟩
  exact {
    nodup := (listed.concat one).nodup
    allocated := (listed.concat one).allocated
    tight := before.tight.push _ _
    filed := by
      intro k r
      have counted : (net'.network.bucket k).count r =
        if keyOf cls net' r = k then nodes.count r else 0 := before.filed k r
      change ((net'.network.push (keyOf cls net' net.allocated) net.allocated).bucket k).count r =
        if keyOf cls net' r = k then (nodes ++ [net.allocated]).count r else 0
      rw [OrderedMap.bucket_push, List.count_append]
      by_cases same : r = net.allocated
      · subst same
        by_cases own : keyOf cls net' net.allocated = k
        · simp [own, counted]
        · simp [own, counted]
      · have absent : [net.allocated].count r = 0 := by simp [Ne.symm same]
        split <;> simp [List.count_append, absent, counted] }

theorem run_replaceNodes (f : Node → Node) (nodes : List NodeRef) (replaced : List NodeRef)
    (net : Network) (filed : Filed main { net with nodes := replaced }) :
    ∃ result net', (replaceNodes f nodes replaced).run net = (.ok result, net') ∧
      Filed main { net' with nodes := result } := by
  induction nodes generalizing replaced net with
  | nil => exact ⟨replaced, net, rfl, filed⟩
  | cons r rest inductionHypothesis =>
      let closed := net.updateNode r Node.close
      have filedClosed : Filed main { closed with nodes := replaced } :=
        filed.congr (sameFiling_updateNode getKey_close r)
      obtain ⟨net', ran, ext, one, _⟩ := run_allocate (f (closed.heap r)) closed
      obtain ⟨result, net'', ran', filed'⟩ := inductionHypothesis (replaced ++ [net.allocated])
        { net' with network := net'.network.push (main.getKey (net'.heap net.allocated)) net.allocated }
        (filedClosed.push ext one)
      refine ⟨result, net'', ?_, filed'⟩
      rw [replaceNodes, Method.run_update_bind, Method.run_this_bind, Method.run_bind_ok ran,
        Method.run_update_bind]
      exact ran'

theorem filed_setTransportSecurity {net : Network} (filed : Filed main net)
    (transportSecurity : Bool) :
    Filed main ((setTransportSecurity transportSecurity).run net).2 := by
  simp only [setTransportSecurity, Method.run_this_bind]
  split
  · exact filed
  · rw [Method.run_update_bind]
    obtain ⟨result, net', ran, filed'⟩ := run_replaceNodes
      (if transportSecurity then Node.toSecure else Node.toInsecure) net.nodes []
      { net with network := .empty }
      ⟨List.nodup_nil, by simp, OrderedMap.tight_empty, by simp⟩
    rw [Method.run_bind_ok ran, Method.run_update]
    exact ⟨filed'.nodup, filed'.allocated, filed'.tight, filed'.filed⟩

/-! ## Runs -/

/-- Every listed node is filed once, under its own key, and no other node is filed. -/
structure Consistent (net : Network) : Prop where
  own : ∀ r ∈ net.nodes, r ∈ net.network.bucket (keyOf main net r)
  once : ∀ r ∈ net.nodes, net.network.values.flatten.count r = 1
  only : ∀ r ∈ net.network.values.flatten, r ∈ net.nodes

theorem Filed.consistent {net : Network} (filed : Filed main net) : Consistent net where
  own := fun r member => filed.mem_bucket.mpr ⟨member, rfl⟩
  once := by
    intro r member
    have only : ∀ k, r ∈ net.network.bucket k → k = keyOf main net r :=
      fun k inBucket => (filed.mem_bucket.mp inBucket).2.symm
    rw [OrderedMap.count_values_flatten only, filed.filed, if_pos rfl,
      List.count_eq_one_of_mem filed.nodup member]
  only := by
    intro r member
    obtain ⟨k, inBucket⟩ := OrderedMap.mem_values_flatten.mp member
    exact (filed.mem_bucket.mp inBucket).1

theorem filed_create (start : ℚ) : Filed cls (create start) :=
  ⟨List.nodup_nil, by simp [create], OrderedMap.tight_empty, by intros; split <;> rfl⟩

/-- The call is no `setNetwork`, or one that keeps only healthy nodes. -/
def SetsHealthy (net : Network) (call : NetworkCall) : Prop :=
  match call.op with
  | .setNetwork map => KeepsHealthy main map call.now net
  | _ => True

instance (net : Network) (call : NetworkCall) : Decidable (SetsHealthy net call) := by
  unfold SetsHealthy
  split <;> infer_instance

theorem filed_step (net : Network) (call : NetworkCall) (filed : Filed main net)
    (healthy : SetsHealthy net call) : Filed main (step net call) := by
  obtain ⟨op, draws, now⟩ := call
  cases op with
  | setNetwork map => exact filed_setNetwork filed healthy draws
  | increaseBackoff node => exact filed.congr (sameFiling_increaseBackoff node now net)
  | decreaseBackoff node => exact filed.congr (sameFiling_decreaseBackoff node net)
  | getNode key =>
      have same : step net ⟨.getNode key, draws, now⟩ = net.readmitNodes now :=
        (Method.run_bind_snd _ net fun _ _ => rfl).trans (run_getNode_snd _ draws now net)
      rw [same]
      exact filed.congr (sameFiling_readmitNodes _ now net)
  | getNodeAccountIdsForExecute =>
      have same : step net ⟨.getNodeAccountIdsForExecute, draws, now⟩ =
          ((getNumberOfMostHealthyNodes main net.getNumberOfNodesForTransaction draws now).run
            net).2 :=
        (Method.run_bind_snd _ net fun _ _ => rfl).trans
          (run_getNodeAccountIdsForExecute_snd draws now net)
      rw [same]
      exact filed_getNumberOfMostHealthyNodes filed _ draws now
  | setTransportSecurity transportSecurity => exact filed_setTransportSecurity filed _

theorem consistent_of_setsHealthy (start : ℚ) (calls : List NetworkCall)
    (healthy : Guarded step SetsHealthy (create start) calls) :
    Consistent (runAll step (create start) calls) ∧
      ∀ map draws now e net',
        (setNetwork main map draws now).run (runAll step (create start) calls) = (.error e, net') →
          ∃ entry ∈ map.entries, ManagedNodeAddress.fromString entry.1 = .error e := by
  have filed := runAll_invariant filed_step (filed_create start) healthy
  refine ⟨filed.consistent, fun map draws now e net' thrown => ?_⟩
  have outcome := run_setNetwork filed map draws now
  rw [thrown] at outcome
  obtain ⟨_, entry, member, minBackoff, failed⟩ := outcome
  exact ⟨entry, member, error_of_createNodeFromNetworkEntry failed⟩

theorem consistent_after_failure :
    let map : OrderedMap String AccountId := OrderedMap.empty.set "10.0.0.1:50211" (.ofNum 3)
    let calls : List NetworkCall :=
      [⟨.setNetwork map, id, 0⟩, ⟨.increaseBackoff 0, id, 1⟩, ⟨.getNode none, id, 2⟩,
        ⟨.setTransportSecurity true, id, 2⟩]
    Consistent (runAll step (create 0) calls) :=
  (consistent_of_setsHealthy 0 _ (by decide +kernel)).1

/-- A node that is unhealthy while its network is set again is listed but not
filed, and the next network without it cannot be set. -/
theorem unhealthy_node_is_not_filed :
    let map : OrderedMap String AccountId := OrderedMap.empty.set "10.0.0.1:50211" (.ofNum 3)
    let calls : List NetworkCall :=
      [⟨.setNetwork map, id, 0⟩, ⟨.increaseBackoff 0, id, 0⟩, ⟨.setNetwork map, id, 1⟩]
    (calls.map NetworkCall.now).Pairwise (· ≤ ·) ∧
      ¬ Consistent (runAll step (create 0) calls) ∧
      ((setNetwork main .empty id 2).run (runAll step (create 0) calls)).1 =
        .error (.typeError "Cannot read properties of undefined (reading 'length')") := by
  refine ⟨by decide +kernel, fun consistent => ?_, by decide +kernel⟩
  have own := consistent.own 0 (by decide +kernel)
  revert own
  decide +kernel

end HederaSdk.Network
