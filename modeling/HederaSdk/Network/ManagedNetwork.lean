import HederaSdk.Library.Method
import HederaSdk.Library.OrderedMap
import HederaSdk.Network.ManagedNode

/-!
# Networks

A network keeps its node objects in three collections: `nodes` lists them all,
`healthyNodes` those that are handed out without a key, and `network` files them
under their keys. The collections share the objects, so a node is a reference
into the heap of all node objects that were ever created.

The main network and the mirror network differ in how a node is keyed, created
and found obsolete; `NetworkClass` holds these methods. A synchronous method
reads the clock once; `ω` is the stream of random draws it makes.
-/

namespace HederaSdk

open Library

abbrev NodeRef := Nat

structure Network where
  heap : NodeRef → Node
  /-- References from here on are not in use. -/
  allocated : NodeRef
  network : OrderedMap String (List NodeRef)
  nodes : List NodeRef
  healthyNodes : List NodeRef
  ledgerId : Option Bytes := none
  minBackoff : ℚ := 8000
  maxBackoff : ℚ := 1000 * 60 * 60
  maxNodeAttempts : Int := -1
  nodeMinReadmitPeriod : ℚ := 8000
  nodeMaxReadmitPeriod : ℚ := 1000 * 60 * 60
  earliestReadmitTime : ℚ
  maxNodesPerTransaction : Int := -1
  transportSecurity : Bool := false

/-- The methods a subclass of `ManagedNetwork` overrides. -/
structure NetworkClass (V : Type) where
  getKey : Node → String
  /-- `value.toString()` of a value of the map given to `setNetwork`. -/
  text : V → String
  createNodeFromNetworkEntry : (minBackoff now : ℚ) → String → V → Except JsError Node
  /-- The test of `getNodesToRemove`. -/
  isObsolete : OrderedMap String V → Node → Bool
  getKey_congr : ∀ node other : Node, node.address = other.address →
    node.accountId = other.accountId → getKey node = getKey other
  created_healthy : ∀ minBackoff now entry value node,
    createNodeFromNetworkEntry minBackoff now entry value = .ok node → node.isHealthy now = true

namespace Network

/-- `new ManagedNetwork()` -/
def create (now : ℚ) : Network where
  heap := fun _ => default
  allocated := 0
  network := .empty
  nodes := []
  healthyNodes := []
  earliestReadmitTime := now + 8000

abbrev NetworkMethod := Method JsError Network

def updateNode (net : Network) (r : NodeRef) (f : Node → Node) : Network :=
  { net with heap := Function.update net.heap r (f (net.heap r)) }

/-- Place a new object on the heap. -/
def allocate (node : Node) : NetworkMethod NodeRef := do
  let net ← Method.this
  Method.update fun net =>
    { net with heap := Function.update net.heap net.allocated node, allocated := net.allocated + 1 }
  pure net.allocated

/-- `list[Math.floor(Math.random() * list.length)]` -/
def randomElement {β : Type} (draw : Nat) (list : List β) : Option β := list[draw % list.length]?

section Removal

variable {V : Type} (cls : NetworkClass V)

def removeNodeFromNetwork (r : NodeRef) : NetworkMethod Unit := do
  let net ← Method.this
  let key := cls.getKey (net.heap r)
  match net.network.get? key with
  | none => Method.throwing (.typeError "Cannot read properties of undefined (reading 'length')")
  | some bucket =>
      let rest := bucket.erase r
      Method.update fun net =>
        { net with
          network := if rest = [] then net.network.delete key else net.network.set key rest }

def closeNode (i : Nat) : NetworkMethod Unit := do
  let net ← Method.this
  match net.nodes[i]? with
  | none => Method.throwing (.typeError "Cannot read properties of undefined (reading 'close')")
  | some r =>
      Method.update fun net => net.updateNode r Node.close
      removeNodeFromNetwork cls r
      Method.update fun net => { net with nodes := net.nodes.eraseIdx i }

/-- The indices, counted down, at which a test holds. -/
def indicesDown (test : NodeRef → Bool) (nodes : List NodeRef) : List Nat :=
  ((List.range nodes.length).reverse).filter fun i => (nodes[i]?).any test

def getNodesToRemove (map : OrderedMap String V) (net : Network) : List Nat :=
  indicesDown (fun r => cls.isObsolete map (net.heap r)) net.nodes

/-- The loop counts down, so closing a node does not move the ones still to be looked at. -/
def removeDeadNodes : NetworkMethod Unit := do
  let net ← Method.this
  if 0 < net.maxNodeAttempts then
    Method.forEach (closeNode cls) (indicesDown
      (fun r => decide (net.maxNodeAttempts ≤ (net.heap r).badGrpcStatusCount)) net.nodes)
  else pure ()

end Removal

/-! ## Readmission -/

/-- `Number.MAX_SAFE_INTEGER` -/
def maxSafeInteger : ℚ := 9007199254740991

structure Readmission where
  healthyNodes : List NodeRef
  nextEarliestReadmitTime : ℚ
  searchForNextEarliestReadmitTime : Bool

/-- The inner loop of `readmitNodes` for one node: the next earliest readmit time
and whether the node was found among the healthy ones. -/
def scanHealthy (search : Bool) (readmitTime now : ℚ) (r : NodeRef) :
    List NodeRef → ℚ → ℚ × Bool
  | [], next => (next, false)
  | h :: rest, next =>
      let next := if search && decide (now < readmitTime) then min readmitTime next else next
      if r = h then (next, true) else scanHealthy search readmitTime now r rest next

/-- One turn of the outer loop of `readmitNodes`. -/
def readmitNode (heap : NodeRef → Node) (now : ℚ) (acc : Readmission) (r : NodeRef) : Readmission :=
  match scanHealthy acc.searchForNextEarliestReadmitTime (heap r).readmitTime now r
      acc.healthyNodes acc.nextEarliestReadmitTime with
  | (next, true) => { acc with nextEarliestReadmitTime := next }
  | (next, false) =>
      { healthyNodes :=
          if (heap r).readmitTime ≤ now then acc.healthyNodes ++ [r] else acc.healthyNodes
        nextEarliestReadmitTime := next
        searchForNextEarliestReadmitTime := false }

def readmitNodes (now : ℚ) (net : Network) : Network :=
  if net.earliestReadmitTime ≤ now then
    let result := net.nodes.foldl (readmitNode net.heap now) ⟨net.healthyNodes, maxSafeInteger, true⟩
    { net with
      healthyNodes := result.healthyNodes
      earliestReadmitTime := min (max result.nextEarliestReadmitTime net.nodeMinReadmitPeriod)
        net.nodeMaxReadmitPeriod }
  else net

/-! ## Replacing the nodes -/

/-- `util.shuffle`: the element at the falling index is swapped with a random one
below or at it. -/
def shuffleFrom (ω : Nat → Nat) : Nat → Array NodeRef → Array NodeRef
  | 0, nodes => nodes
  | currentIndex + 1, nodes =>
      shuffleFrom ω currentIndex
        (nodes.swapIfInBounds currentIndex (ω currentIndex % (currentIndex + 1)))

def shuffle (ω : Nat → Nat) (nodes : List NodeRef) : List NodeRef :=
  (shuffleFrom ω nodes.length nodes.toArray).toList

section Replacement

variable {V : Type} (cls : NetworkClass V)

/-- The entries that no unclosed node stands for become new nodes. -/
def addNewNodes (known : List (String × String)) (now : ℚ) :
    List (String × V) → List NodeRef → NetworkMethod (List NodeRef)
  | [], newNodes => pure newNodes
  | (entry, value) :: rest, newNodes =>
      if known.any (fun k => k.1 = cls.text value) && known.any (fun k => k.2 = entry) then
        addNewNodes known now rest newNodes
      else do
        let net ← Method.this
        let node ← Method.ofExcept (cls.createNodeFromNetworkEntry net.minBackoff now entry value)
        let r ← allocate node
        addNewNodes known now rest (newNodes ++ [r])

/-- `_setNetwork` once the obsolete nodes are closed: a shuffled node that is not
healthy now is neither listed as healthy nor filed under its key. -/
def fillNetwork (map : OrderedMap String V) (ω : Nat → Nat) (now : ℚ) : NetworkMethod Unit := do
  let net ← Method.this
  let known := net.nodes.map fun r =>
    (cls.getKey (net.heap r), (net.heap r).address.toString)
  let newNodes ← addNewNodes cls known now map.entries net.nodes
  Method.update fun net =>
    let nodes := shuffle ω newNodes
    let newHealthyNodes := nodes.filter fun r => (net.heap r).isHealthy now
    { net with
      nodes
      healthyNodes := newHealthyNodes
      network := OrderedMap.pushAll (fun r => cls.getKey (net.heap r)) .empty newHealthyNodes
      ledgerId := none }

/-- `_setNetwork` -/
def setNetwork (map : OrderedMap String V) (ω : Nat → Nat) (now : ℚ) : NetworkMethod Unit := do
  let net ← Method.this
  Method.forEach (closeNode cls) (net.getNodesToRemove cls map)
  fillNetwork cls map ω now

/-- `getNode(key)`. A key that is not filed falls back to a random filed node. -/
def getNode (key : Option String) (ω : Nat → Nat) (now : ℚ) : NetworkMethod (Option NodeRef) := do
  Method.update (readmitNodes now)
  let net ← Method.this
  match key with
  | none =>
      if net.healthyNodes = [] then
        Method.throwing (.error "failed to find a healthy working node")
      else pure (randomElement (ω 0) net.healthyNodes)
  | some key =>
      match net.network.get? key with
      | some lockedNodes => pure (randomElement (ω 0) lockedNodes)
      | none =>
          match randomElement (ω 0) net.network.keys with
          | none =>
              Method.throwing (.typeError "Cannot read properties of undefined (reading 'length')")
          | some randomNodeAccountId =>
              pure (randomElement (ω 1) (net.network.bucket randomNodeAccountId))

/-- `for (let i = 0; ...) if (healthy[i] == node) healthy.splice(i, 1)`: the
element after a removed one is not looked at. -/
def spliceLoop (r : NodeRef) : List NodeRef → List NodeRef
  | [] => []
  | [h] => if h = r then [] else [h]
  | h :: next :: rest => if h = r then next :: spliceLoop r rest else h :: spliceLoop r (next :: rest)

def increaseBackoff (r : NodeRef) (now : ℚ) (net : Network) : Network :=
  { net.updateNode r (·.increaseBackoff now) with healthyNodes := spliceLoop r net.healthyNodes }

def decreaseBackoff (r : NodeRef) (net : Network) : Network :=
  net.updateNode r Node.decreaseBackoff

/-- The picks of `getNumberOfMostHealthyNodes`: after a pick, every node with the
same key leaves the pool. -/
def pickNodes (heap : NodeRef → Node) (ω : Nat → Nat) : Nat → List NodeRef → List NodeRef
  | 0, _ => []
  | count + 1, pool =>
      match randomElement (ω count) pool with
      | none => []
      | some selected =>
          selected :: pickNodes heap ω count
            (pool.filter fun r => cls.getKey (heap r) ≠ cls.getKey (heap selected))

def getNumberOfMostHealthyNodes (count : Nat) (ω : Nat → Nat) (now : ℚ) :
    NetworkMethod (List NodeRef) := do
  removeDeadNodes cls
  Method.update (readmitNodes now)
  let net ← Method.this
  pure (pickNodes cls net.heap ω (min count net.healthyNodes.length) net.healthyNodes)

end Replacement

end Network

end HederaSdk
