import HederaSdk.Checksum
import HederaSdk.Network.Network

/-!
# Clients

A client bundles a network with the operator that pays and signs, and with
defaults for what a request leaves open.
-/

namespace HederaSdk

/-- A callback that signs a message. It may answer differently each time it is
called, so it is given the moment of the call. -/
abbrev Signer := Nat → Bytes → Except JsError Bytes

structure Operator where
  accountId : AccountId
  publicKey : PublicKey
  transactionSigner : Signer

structure Client where
  network : Network
  operator : Option Operator := none
  /-- In tinybars. -/
  defaultMaxTransactionFee : Option Int := none
  defaultMaxQueryPayment : Int := 100000000
  maxAttempts : Option Nat := none
  signOnDemand : Bool := false
  autoValidateChecksums : Bool := false
  minBackoff : ℚ := 250
  maxBackoff : ℚ := 8000
  defaultRegenerateTransactionId : Bool := true
  requestTimeout : Option ℚ := none

namespace Client

def operatorAccountId (client : Client) : Option AccountId := client.operator.map Operator.accountId

/-- `client.network`: the account of the last node listed under each address. -/
def networkMap (client : Client) : Library.OrderedMap String AccountId :=
  client.network.nodes.foldl (fun map r =>
    map.set (client.network.heap r).address.toString (client.network.heap r).accountId) .empty

/-- The texts of `Object.values(client.network)`. -/
def nodeTexts (client : Client) : List String := client.networkMap.values.map AccountId.toString

/-- `client.network["127.0.0.1:50211"] != null` -/
def isLocalNode (client : Client) : Bool := client.networkMap.has "127.0.0.1:50211"

end Client

end HederaSdk
