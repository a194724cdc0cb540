import HederaSdk.Network.Consistency

/-!
# All operations of the networks

The settings and `close` beside the operations that choose and replace nodes, and
the mirror network. Both networks share `ManagedOp`; a call is an operation with the
random draws it makes and the time at which it is made.
-/

namespace HederaSdk

open Library

namespace Network

variable {V : Type}

/-! ## Settings and closing -/

/-- The loop over the nodes in a setter: every node object is changed in its place. -/
def updateNodes (f : Node → Node) (net : Network) : Network :=
  { net with heap := fun r => if r ∈ net.nodes then f (net.heap r) else net.heap r }

def setMinBackoff (minBackoff : ℚ) (net : Network) : Network :=
  updateNodes (·.setMinBackoff minBackoff) { net with minBackoff }

def setMaxBackoff (maxBackoff : ℚ) (net : Network) : Network :=
  updateNodes (·.setMaxBackoff maxBackoff) { net with maxBackoff }

def setMaxNodeAttempts (maxNodeAttempts : Int) (net : Network) : Network :=
  { net with maxNodeAttempts }

def setNodeMinReadmitPeriod (nodeMinReadmitPeriod now : ℚ) (net : Network) : Network :=
  { net with nodeMinReadmitPeriod, earliestReadmitTime := now + nodeMinReadmitPeriod }

def setNodeMaxReadmitPeriod (nodeMaxReadmitPeriod : ℚ) (net : Network) : Network :=
  { net with nodeMaxReadmitPeriod }

def setLedgerId (ledgerId : Option Bytes) (net : Network) : Network := { net with ledgerId }

def setMaxNodesPerTransaction (maxNodesPerTransaction : Int) (net : Network) : Network :=
  { net with maxNodesPerTransaction }

/-- The list of healthy nodes is left as it is. -/
def close (net : Network) : Network :=
  { updateNodes Node.close net with network := .empty, nodes := [] }

/-! ## The mirror network -/

/-- A mirror node is keyed by its address and has no account. -/
def createMirrorNode (minBackoff now : ℚ) (_entry value : String) : Except JsError Node :=
  match ManagedNodeAddress.fromString value with
  | .ok address => .ok ((Node.create address (.ofNum 0) now).setMinBackoff minBackoff)
  | .error e => .error e

/-- `Object.values` of a `Map` is empty, so no address is among the values. -/
def mirror : NetworkClass String where
  getKey node := node.address.toString
  text value := value
  createNodeFromNetworkEntry := createMirrorNode
  isObsolete _ _ := true
  getKey_congr := fun _ _ same _ => congrArg ManagedNodeAddress.toString same
  created_healthy := by
    intro minBackoff now entry value node created
    rw [createMirrorNode] at created
    split at created <;> cases created
    simp

/-- `new Map(network.map((address) => [address, address]))` -/
def mirrorMap (network : List String) : OrderedMap String String :=
  network.foldl (fun map address => map.set address address) .empty

def getNextMirrorNode (ω : Nat → Nat) (now : ℚ) : NetworkMethod (Option NodeRef) := do
  let nodes ← getNumberOfMostHealthyNodes mirror 1 ω now
  pure nodes[0]?

/-! ## Calls -/

inductive ManagedOp where
  | increaseBackoff (node : NodeRef)
  | decreaseBackoff (node : NodeRef)
  | getNode (key : Option String)
  | getNumberOfMostHealthyNodes (count : Nat)
  | getChannel (node : NodeRef)
  | setMinBackoff (minBackoff : ℚ)
  | setMaxBackoff (maxBackoff : ℚ)
  | setMaxNodeAttempts (maxNodeAttempts : Int)
  | setNodeMinReadmitPeriod (nodeMinReadmitPeriod : ℚ)
  | setNodeMaxReadmitPeriod (nodeMaxReadmitPeriod : ℚ)
  | setLedgerId (ledgerId : Option Bytes)
  | close

def ManagedOp.method (cls : NetworkClass V) (ω : Nat → Nat) (now : ℚ) : ManagedOp → NetworkMethod Unit
  | increaseBackoff node => Method.update (Network.increaseBackoff node now)
  | decreaseBackoff node => Method.update (Network.decreaseBackoff node)
  | getNode key => do
      let _ ← Network.getNode key ω now
  | getNumberOfMostHealthyNodes count => do
      let _ ← Network.getNumberOfMostHealthyNodes cls count ω now
  | getChannel node => Method.update fun net => net.updateNode node Node.getChannel
  | setMinBackoff minBackoff => Method.update (Network.setMinBackoff minBackoff)
  | setMaxBackoff maxBackoff => Method.update (Network.setMaxBackoff maxBackoff)
  | setMaxNodeAttempts maxNodeAttempts => Method.update (Network.setMaxNodeAttempts maxNodeAttempts)
  | setNodeMinReadmitPeriod period => Method.update (Network.setNodeMinReadmitPeriod period now)
  | setNodeMaxReadmitPeriod period => Method.update (Network.setNodeMaxReadmitPeriod period)
  | setLedgerId ledgerId => Method.update (Network.setLedgerId ledgerId)
  | close => Method.update Network.close

inductive MainOp where
  | managed (op : ManagedOp)
  | setNetwork (map : OrderedMap String AccountId)
  | getNodeAccountIdsForExecute
  | setTransportSecurity (transportSecurity : Bool)
  | setMaxNodesPerTransaction (maxNodesPerTransaction : Int)

def MainOp.method (ω : Nat → Nat) (now : ℚ) : MainOp → NetworkMethod Unit
  | managed op => op.method main ω now
  | setNetwork map => Network.setNetwork main map ω now
  | getNodeAccountIdsForExecute => do
      let _ ← Network.getNodeAccountIdsForExecute ω now
  | setTransportSecurity transportSecurity => Network.setTransportSecurity transportSecurity
  | setMaxNodesPerTransaction count => Method.update (Network.setMaxNodesPerTransaction count)

inductive MirrorOp where
  | managed (op : ManagedOp)
  | setNetwork (network : List String)
  | getNextMirrorNode

def MirrorOp.method (ω : Nat → Nat) (now : ℚ) : MirrorOp → NetworkMethod Unit
  | managed op => op.method mirror ω now
  | setNetwork network => Network.setNetwork mirror (mirrorMap network) ω now
  | getNextMirrorNode => do
      let _ ← Network.getNextMirrorNode ω now

/-- An operation with the random draws it makes and its time. -/
structure Call (Op : Type) where
  op : Op
  draws : Nat → Nat
  now : ℚ

/-- The network after a call, also when the call throws. -/
def mainStep (net : Network) (call : Call MainOp) : Network :=
  ((call.op.method call.draws call.now).run net).2

def mirrorStep (net : Network) (call : Call MirrorOp) : Network :=
  ((call.op.method call.draws call.now).run net).2

/-- A run of the calls of the smaller set is a run of these. -/
def NetworkOp.toMain : NetworkOp → MainOp
  | .setNetwork map => .setNetwork map
  | .increaseBackoff node => .managed (.increaseBackoff node)
  | .decreaseBackoff node => .managed (.decreaseBackoff node)
  | .getNode key => .managed (.getNode (key.map AccountId.toString))
  | .getNodeAccountIdsForExecute => .getNodeAccountIdsForExecute
  | .setTransportSecurity transportSecurity => .setTransportSecurity transportSecurity

theorem step_eq_mainStep (net : Network) (call : NetworkCall) :
    step net call = mainStep net ⟨call.op.toMain, call.draws, call.now⟩ := by
  obtain ⟨op, draws, now⟩ := call
  cases op <;> rfl

theorem runAll_step (net : Network) (calls : List NetworkCall) :
    runAll step net calls =
      runAll mainStep net (calls.map fun call => ⟨call.op.toMain, call.draws, call.now⟩) := by
  induction calls generalizing net with
  | nil => rfl
  | cons call rest inductionHypothesis =>
      rw [runAll_cons, List.map_cons, runAll_cons, step_eq_mainStep, inductionHypothesis]

end Network

end HederaSdk
