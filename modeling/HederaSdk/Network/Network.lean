import HederaSdk.Library.Runs
import HederaSdk.Network.ManagedNetwork

/-!
# The main network

The nodes of the main network are keyed by their account ids. Changing the
transport security replaces every node by a copy with the other port.
-/

namespace HederaSdk

open Library

namespace Network

def createNodeFromNetworkEntry (minBackoff now : ℚ) (entry : String) (accountId : AccountId) :
    Except JsError Node :=
  match ManagedNodeAddress.fromString entry with
  | .ok address => .ok ((Node.create address accountId now).setMinBackoff minBackoff)
  | .error e => .error e

/-- The map has no entry for the address of the node, or one of another account. -/
def isObsolete (map : OrderedMap String AccountId) (node : Node) : Bool :=
  match map.get? node.address.toString with
  | none => true
  | some accountId => decide (accountId.toString ≠ node.accountId.toString)

theorem getKey_of_createNodeFromNetworkEntry {minBackoff now : ℚ} {entry : String}
    {accountId : AccountId} {node : Node}
    (created : createNodeFromNetworkEntry minBackoff now entry accountId = .ok node) :
    node.getKey = accountId.toString := by
  unfold createNodeFromNetworkEntry at created
  split at created <;> cases created
  rfl

theorem isHealthy_of_createNodeFromNetworkEntry {minBackoff now : ℚ} {entry : String}
    {accountId : AccountId} {node : Node}
    (created : createNodeFromNetworkEntry minBackoff now entry accountId = .ok node) :
    node.isHealthy now = true := by
  unfold createNodeFromNetworkEntry at created
  split at created <;> cases created
  simp

/-- The only reason a node is not created is that its address cannot be read. -/
theorem error_of_createNodeFromNetworkEntry {minBackoff now : ℚ} {entry : String}
    {accountId : AccountId} {e : JsError}
    (failed : createNodeFromNetworkEntry minBackoff now entry accountId = .error e) :
    ManagedNodeAddress.fromString entry = .error e := by
  unfold createNodeFromNetworkEntry at failed
  split at failed <;> cases failed
  assumption

def main : NetworkClass AccountId where
  getKey := Node.getKey
  text := AccountId.toString
  createNodeFromNetworkEntry
  isObsolete
  getKey_congr := fun _ _ _ same => congrArg AccountId.toString same
  created_healthy := fun _ _ _ _ _ => isHealthy_of_createNodeFromNetworkEntry

def getNumberOfNodesForTransaction (net : Network) : Nat :=
  if 0 < net.maxNodesPerTransaction then net.maxNodesPerTransaction.toNat
  else if net.nodes.length ≤ 9 then net.nodes.length
  else (net.nodes.length + 3 - 1) / 3

def getNodeAccountIdsForExecute (ω : Nat → Nat) (now : ℚ) : NetworkMethod (List AccountId) := do
  let net ← Method.this
  let nodes ← getNumberOfMostHealthyNodes main net.getNumberOfNodesForTransaction ω now
  let net ← Method.this
  pure (nodes.map fun r => (net.heap r).accountId)

/-- The loop of `setTransportSecurity`: each node is closed and gives way to a copy. -/
def replaceNodes (f : Node → Node) : List NodeRef → List NodeRef → NetworkMethod (List NodeRef)
  | [], replaced => pure replaced
  | r :: rest, replaced => do
      Method.update fun net => net.updateNode r Node.close
      let net ← Method.this
      let copy ← allocate (f (net.heap r))
      Method.update fun net =>
        { net with network := net.network.push (main.getKey (net.heap copy)) copy }
      replaceNodes f rest (replaced ++ [copy])

/-- All copies are listed as healthy: the new ports might make a node work again. -/
def setTransportSecurity (transportSecurity : Bool) : NetworkMethod Unit := do
  let net ← Method.this
  if net.transportSecurity = transportSecurity then pure ()
  else do
    Method.update fun net => { net with network := .empty }
    let nodes ← replaceNodes (if transportSecurity then Node.toSecure else Node.toInsecure)
      net.nodes []
    Method.update fun net => { net with nodes, healthyNodes := nodes, transportSecurity }

/-! ## Runs of a network -/

inductive NetworkOp where
  | setNetwork (map : OrderedMap String AccountId)
  | increaseBackoff (node : NodeRef)
  | decreaseBackoff (node : NodeRef)
  | getNode (key : Option AccountId)
  | getNodeAccountIdsForExecute
  | setTransportSecurity (transportSecurity : Bool)

/-- A call with the random draws it makes and the time at which it is made. -/
structure NetworkCall where
  op : NetworkOp
  draws : Nat → Nat
  now : ℚ

def NetworkCall.method (call : NetworkCall) : NetworkMethod Unit :=
  match call.op with
  | .setNetwork map => Network.setNetwork main map call.draws call.now
  | .increaseBackoff node => Method.update (Network.increaseBackoff node call.now)
  | .decreaseBackoff node => Method.update (Network.decreaseBackoff node)
  | .getNode key => do
      let _ ← Network.getNode (key.map AccountId.toString) call.draws call.now
  | .getNodeAccountIdsForExecute => do
      let _ ← Network.getNodeAccountIdsForExecute call.draws call.now
  | .setTransportSecurity transportSecurity => Network.setTransportSecurity transportSecurity

/-- The network after a call, also when the call throws. -/
def step (net : Network) (call : NetworkCall) : Network := (call.method.run net).2

/-- The states a network can be in after the constructor and any calls. -/
def Reachable (net : Network) : Prop :=
  ∃ start calls, net = runAll step (Network.create start) calls

end Network

end HederaSdk
