import HederaSdk.EntityId
import HederaSdk.Library.Runs
import HederaSdk.Transaction.Transaction
import HederaSdk.Update.Keys

/-!
# Updating a node

The fields of the transaction start out unset. A call that throws changes nothing; any other sets a
field, or adds an endpoint to a list of them. The description is written in a wrapper of its own,
whether it is set or not.
-/

namespace HederaSdk

open Library
open Js (Value)

structure ServiceEndpoint where
  ipAddressV4 : Option Bytes := none
  port : Option Int := none
  domainName : Option String := none
  deriving DecidableEq

/-- `proto.IServiceEndpoint` -/
structure ServiceEndpointMessage where
  ipAddressV4 : Option Bytes
  port : Option Int
  domainName : Option String
  deriving DecidableEq

/-- `_toProtobuf` -/
def ServiceEndpoint.toProtobuf (endpoint : ServiceEndpoint) : ServiceEndpointMessage where
  ipAddressV4 := endpoint.ipAddressV4
  port := endpoint.port
  domainName := endpoint.domainName

/-- `AccountId | string` -/
inductive AccountIdArgument where
  | id (accountId : AccountId)
  | text (accountId : String)

structure NodeUpdateTransaction where
  transaction : Transaction
  nodeId : Option Int := none
  accountId : Option AccountId := none
  description : Option String := none
  gossipEndpoints : Option (List ServiceEndpoint) := none
  serviceEndpoints : Option (List ServiceEndpoint) := none
  gossipCaCertificate : Option Bytes := none
  grpcCertificateHash : Option Bytes := none
  adminKey : Option Key := none

/-- `INodeUpdateTransactionBody`; a wrapper is the optional value in it. -/
structure NodeUpdateTransactionBody where
  nodeId : Option Int
  accountId : Option Value
  description : Option (Option String)
  gossipEndpoint : Option (List ServiceEndpointMessage)
  serviceEndpoint : Option (List ServiceEndpointMessage)
  gossipCaCertificate : Option (Option Bytes)
  grpcCertificateHash : Option (Option Bytes)
  adminKey : Option Value

namespace NodeUpdateTransaction

/-- `new NodeUpdateTransaction()` on the state of its parent class. -/
def create (transaction : Transaction) : NodeUpdateTransaction := { transaction }

def descriptionMaxLength : Nat := 100
def gossipEndpointsMaxLength : Nat := 10
def serviceEndpointsMaxLength : Nat := 8

section Calls

variable (accountIdFromString : String → Except JsError AccountId)

def requireNotFrozen (tx : NodeUpdateTransaction) : Except JsError Unit :=
  if tx.transaction.isFrozenOrOnDemand then
    .error (.error "transaction is immutable; it has at least one signature or has been explicitly frozen")
  else .ok ()

def setNodeId (nodeId : Int) (tx : NodeUpdateTransaction) : Except JsError NodeUpdateTransaction := do
  tx.requireNotFrozen
  Except.ok { tx with nodeId := some nodeId }

def setAccountId (accountId : AccountIdArgument) (tx : NodeUpdateTransaction) :
    Except JsError NodeUpdateTransaction := do
  tx.requireNotFrozen
  match accountId with
  | .id accountId => Except.ok { tx with accountId := some accountId }
  | .text text =>
      let accountId ← accountIdFromString text
      Except.ok { tx with accountId := some accountId }

def setDescription (description : String) (tx : NodeUpdateTransaction) : Except JsError NodeUpdateTransaction := do
  tx.requireNotFrozen
  if descriptionMaxLength < utf16Length description then
    .error (.error s!"Description must be at most {descriptionMaxLength} characters.")
  else Except.ok { tx with description := some description }

/-- It does not ask whether the transaction is frozen. -/
def clearDescription (tx : NodeUpdateTransaction) : NodeUpdateTransaction := { tx with description := some "" }

/-- The check of a list of endpoints. -/
def checkEndpoints (name : String) (maxLength : Nat) (endpoints : List ServiceEndpoint) : Except JsError Unit :=
  if endpoints.length = 0 then .error (.error s!"{name} list must not be empty.")
  else if maxLength < endpoints.length then
    .error (.error s!"{name} list must not contain more than {maxLength} entries.")
  else .ok ()

def setGossipEndpoints (gossipEndpoints : List ServiceEndpoint) (tx : NodeUpdateTransaction) :
    Except JsError NodeUpdateTransaction := do
  tx.requireNotFrozen
  checkEndpoints "GossipEndpoints" gossipEndpointsMaxLength gossipEndpoints
  Except.ok { tx with gossipEndpoints := some gossipEndpoints }

/-- An endpoint is only added to a list. -/
def addGossipEndpoint (endpoint : ServiceEndpoint) (tx : NodeUpdateTransaction) :
    Except JsError NodeUpdateTransaction := do
  tx.requireNotFrozen
  match tx.gossipEndpoints with
  | some gossipEndpoints => Except.ok { tx with gossipEndpoints := some (gossipEndpoints ++ [endpoint]) }
  | none => Except.ok tx

def setServiceEndpoints (serviceEndpoints : List ServiceEndpoint) (tx : NodeUpdateTransaction) :
    Except JsError NodeUpdateTransaction := do
  tx.requireNotFrozen
  checkEndpoints "ServiceEndpoints" serviceEndpointsMaxLength serviceEndpoints
  Except.ok { tx with serviceEndpoints := some serviceEndpoints }

def addServiceEndpoint (endpoint : ServiceEndpoint) (tx : NodeUpdateTransaction) :
    Except JsError NodeUpdateTransaction := do
  tx.requireNotFrozen
  match tx.serviceEndpoints with
  | some serviceEndpoints => Except.ok { tx with serviceEndpoints := some (serviceEndpoints ++ [endpoint]) }
  | none => Except.ok tx

def setGossipCaCertificate (bytes : Bytes) (tx : NodeUpdateTransaction) : Except JsError NodeUpdateTransaction := do
  tx.requireNotFrozen
  if bytes.length = 0 then .error (.error "GossipCaCertificate must not be empty.")
  else Except.ok { tx with gossipCaCertificate := some bytes }

def setCertificateHash (bytes : Bytes) (tx : NodeUpdateTransaction) : Except JsError NodeUpdateTransaction := do
  tx.requireNotFrozen
  Except.ok { tx with grpcCertificateHash := some bytes }

def setAdminKey (adminKey : Key) (tx : NodeUpdateTransaction) : Except JsError NodeUpdateTransaction := do
  tx.requireNotFrozen
  Except.ok { tx with adminKey := some adminKey }

inductive Call where
  | setNodeId (nodeId : Int)
  | setAccountId (accountId : AccountIdArgument)
  | setDescription (description : String)
  | clearDescription
  | setGossipEndpoints (gossipEndpoints : List ServiceEndpoint)
  | addGossipEndpoint (endpoint : ServiceEndpoint)
  | setServiceEndpoints (serviceEndpoints : List ServiceEndpoint)
  | addServiceEndpoint (endpoint : ServiceEndpoint)
  | setGossipCaCertificate (bytes : Bytes)
  | setCertificateHash (bytes : Bytes)
  | setAdminKey (adminKey : Key)

def Call.method : Call → NodeUpdateTransaction → Except JsError NodeUpdateTransaction
  | setNodeId nodeId, tx => tx.setNodeId nodeId
  | setAccountId accountId, tx => tx.setAccountId accountIdFromString accountId
  | setDescription description, tx => tx.setDescription description
  | clearDescription, tx => .ok tx.clearDescription
  | setGossipEndpoints endpoints, tx => tx.setGossipEndpoints endpoints
  | addGossipEndpoint endpoint, tx => tx.addGossipEndpoint endpoint
  | setServiceEndpoints endpoints, tx => tx.setServiceEndpoints endpoints
  | addServiceEndpoint endpoint, tx => tx.addServiceEndpoint endpoint
  | setGossipCaCertificate bytes, tx => tx.setGossipCaCertificate bytes
  | setCertificateHash bytes, tx => tx.setCertificateHash bytes
  | setAdminKey adminKey, tx => tx.setAdminKey adminKey

/-- The transaction behind a call, also when the call throws. -/
def step (tx : NodeUpdateTransaction) (call : Call) : NodeUpdateTransaction :=
  match call.method accountIdFromString tx with
  | .ok tx' => tx'
  | .error _ => tx

end Calls

/-- `_makeTransactionData` -/
def makeTransactionData (keys : KeyCodec) (tx : NodeUpdateTransaction) : NodeUpdateTransactionBody where
  nodeId := tx.nodeId
  accountId := tx.accountId.map (AccountId.toProtobuf keys)
  description := some tx.description
  gossipEndpoint := tx.gossipEndpoints.map (List.map ServiceEndpoint.toProtobuf)
  serviceEndpoint := tx.serviceEndpoints.map (List.map ServiceEndpoint.toProtobuf)
  gossipCaCertificate := tx.gossipCaCertificate.map some
  grpcCertificateHash := tx.grpcCertificateHash.map some
  adminKey := tx.adminKey.map Key.toValue

/-! ## What is expected -/

inductive Field where
  | accountId
  | description
  | gossipEndpoint
  | serviceEndpoint
  | gossipCaCertificate
  | grpcCertificateHash
  | adminKey
  deriving DecidableEq

def contains (body : NodeUpdateTransactionBody) : Field → Bool
  | .accountId => body.accountId.isSome
  | .description => body.description.isSome
  | .gossipEndpoint => body.gossipEndpoint.isSome
  | .serviceEndpoint => body.serviceEndpoint.isSome
  | .gossipCaCertificate => body.gossipCaCertificate.isSome
  | .grpcCertificateHash => body.grpcCertificateHash.isSome
  | .adminKey => body.adminKey.isSome

/-- The field that a call gives a value. Clearing gives the description the empty text. -/
def Call.gives : Call → Option Field
  | .setNodeId _ => none
  | .setAccountId _ => some .accountId
  | .setDescription _ | .clearDescription => some .description
  | .setGossipEndpoints _ | .addGossipEndpoint _ => some .gossipEndpoint
  | .setServiceEndpoints _ | .addServiceEndpoint _ => some .serviceEndpoint
  | .setGossipCaCertificate _ => some .gossipCaCertificate
  | .setCertificateHash _ => some .grpcCertificateHash
  | .setAdminKey _ => some .adminKey

/-- A call that concerns a list of endpoints. -/
inductive EndpointCall where
  | set (endpoints : List ServiceEndpoint)
  | add (endpoint : ServiceEndpoint)

def Call.gossip? : Call → Option EndpointCall
  | .setGossipEndpoints endpoints => some (.set endpoints)
  | .addGossipEndpoint endpoint => some (.add endpoint)
  | _ => none

def Call.service? : Call → Option EndpointCall
  | .setServiceEndpoints endpoints => some (.set endpoints)
  | .addServiceEndpoint endpoint => some (.add endpoint)
  | _ => none

namespace EndpointCall

/-- The last list that was set, and what was added behind it, or all that was added. -/
def intended (calls : List EndpointCall) : Option (List ServiceEndpoint) :=
  calls.foldl (fun endpoints call =>
    match call with
    | set endpoints => some endpoints
    | add endpoint => some (endpoints.getD [] ++ [endpoint])) none

/-- What is added to is set. -/
def Founded (calls : List EndpointCall) : Prop :=
  (∃ endpoint, add endpoint ∈ calls) → ∃ endpoints, set endpoints ∈ calls

end EndpointCall

section

variable (accountIdFromString : String → Except JsError AccountId)

/-- The call does not throw. -/
def Call.accepted (frozen : Bool) : Call → Bool
  | .clearDescription => true
  | .setAccountId (.text text) => !frozen && (accountIdFromString text).isOk
  | .setDescription description => !frozen && decide (utf16Length description ≤ descriptionMaxLength)
  | .setGossipEndpoints endpoints =>
      !frozen && decide (0 < endpoints.length ∧ endpoints.length ≤ gossipEndpointsMaxLength)
  | .setServiceEndpoints endpoints =>
      !frozen && decide (0 < endpoints.length ∧ endpoints.length ≤ serviceEndpointsMaxLength)
  | .setGossipCaCertificate bytes => !frozen && decide (bytes.length ≠ 0)
  | _ => !frozen

/-- The body says what the calls said that did not throw. -/
structure SaysAll (body : NodeUpdateTransactionBody) (calls : List Call) : Prop where
  present : ∀ field, contains body field = true ↔ ∃ call ∈ calls, call.gives = some field
  gossip : body.gossipEndpoint =
    (EndpointCall.intended (calls.filterMap Call.gossip?)).map (List.map ServiceEndpoint.toProtobuf)
  service : body.serviceEndpoint =
    (EndpointCall.intended (calls.filterMap Call.service?)).map (List.map ServiceEndpoint.toProtobuf)

/-- The description is given, and a list that is added to is set. -/
structure Complete (calls : List Call) : Prop where
  description : ∃ call ∈ calls, call.gives = some .description
  gossip : EndpointCall.Founded (calls.filterMap Call.gossip?)
  service : EndpointCall.Founded (calls.filterMap Call.service?)

/-! ## Calls that do not throw -/

/-- What such a call does. -/
def apply (tx : NodeUpdateTransaction) : Call → NodeUpdateTransaction
  | .setNodeId nodeId => { tx with nodeId := some nodeId }
  | .setAccountId (.id accountId) => { tx with accountId := some accountId }
  | .setAccountId (.text text) =>
      { tx with accountId := ((accountIdFromString text).toOption.map some).getD tx.accountId }
  | .setDescription description => { tx with description := some description }
  | .clearDescription => { tx with description := some "" }
  | .setGossipEndpoints endpoints => { tx with gossipEndpoints := some endpoints }
  | .addGossipEndpoint endpoint => { tx with gossipEndpoints := tx.gossipEndpoints.map (· ++ [endpoint]) }
  | .setServiceEndpoints endpoints => { tx with serviceEndpoints := some endpoints }
  | .addServiceEndpoint endpoint => { tx with serviceEndpoints := tx.serviceEndpoints.map (· ++ [endpoint]) }
  | .setGossipCaCertificate bytes => { tx with gossipCaCertificate := some bytes }
  | .setCertificateHash bytes => { tx with grpcCertificateHash := some bytes }
  | .setAdminKey adminKey => { tx with adminKey := some adminKey }

variable {accountIdFromString}

theorem checkEndpoints_eq (name : String) (maxLength : Nat) (endpoints : List ServiceEndpoint) :
    (checkEndpoints name maxLength endpoints = .ok () ∧ 0 < endpoints.length ∧ endpoints.length ≤ maxLength) ∨
      ∃ e, checkEndpoints name maxLength endpoints = .error e ∧
        ¬ (0 < endpoints.length ∧ endpoints.length ≤ maxLength) := by
  unfold checkEndpoints
  split
  · exact .inr ⟨_, rfl, by omega⟩
  · split
    · exact .inr ⟨_, rfl, by omega⟩
    · exact .inl ⟨rfl, by omega⟩

theorem step_of_frozen {tx : NodeUpdateTransaction} (frozen : tx.transaction.isFrozenOrOnDemand = true) {call : Call}
    (sets : call ≠ .clearDescription) : step accountIdFromString tx call = tx := by
  have refused : tx.requireNotFrozen = .error (.error
    "transaction is immutable; it has at least one signature or has been explicitly frozen") := if_pos frozen
  cases call with
  | clearDescription => exact absurd rfl sets
  | setNodeId => simp only [step, Call.method, setNodeId, refused, bind, Except.bind]
  | setAccountId => simp only [step, Call.method, setAccountId, refused, bind, Except.bind]
  | setDescription => simp only [step, Call.method, setDescription, refused, bind, Except.bind]
  | setGossipEndpoints => simp only [step, Call.method, setGossipEndpoints, refused, bind, Except.bind]
  | addGossipEndpoint => simp only [step, Call.method, addGossipEndpoint, refused, bind, Except.bind]
  | setServiceEndpoints => simp only [step, Call.method, setServiceEndpoints, refused, bind, Except.bind]
  | addServiceEndpoint => simp only [step, Call.method, addServiceEndpoint, refused, bind, Except.bind]
  | setGossipCaCertificate => simp only [step, Call.method, setGossipCaCertificate, refused, bind, Except.bind]
  | setCertificateHash => simp only [step, Call.method, setCertificateHash, refused, bind, Except.bind]
  | setAdminKey => simp only [step, Call.method, setAdminKey, refused, bind, Except.bind]

theorem accepted_of_frozen {call : Call} (sets : call ≠ .clearDescription) :
    call.accepted accountIdFromString true = false := by
  cases call with
  | clearDescription => exact absurd rfl sets
  | setAccountId accountId => cases accountId <;> rfl
  | setNodeId | setDescription | setGossipEndpoints | addGossipEndpoint | setServiceEndpoints | addServiceEndpoint
  | setGossipCaCertificate | setCertificateHash | setAdminKey => rfl

theorem step_of_open {tx : NodeUpdateTransaction} (frozen : tx.transaction.isFrozenOrOnDemand = false) (call : Call) :
    step accountIdFromString tx call =
      if call.accepted accountIdFromString false then apply accountIdFromString tx call else tx := by
  have passed : tx.requireNotFrozen = .ok () := if_neg (by rw [frozen]; exact Bool.false_ne_true)
  cases call with
  | setAccountId accountId =>
      cases accountId with
      | id accountId => simp only [step, Call.method, setAccountId, passed, bind, Except.bind]; rfl
      | text text =>
          simp only [step, Call.method, setAccountId, passed, bind, Except.bind, Call.accepted, apply]
          have outcome : (∃ e, accountIdFromString text = .error e) ∨
              ∃ accountId, accountIdFromString text = .ok accountId := by
            cases accountIdFromString text with
            | error e => exact .inl ⟨e, rfl⟩
            | ok accountId => exact .inr ⟨accountId, rfl⟩
          rcases outcome with ⟨e, read⟩ | ⟨accountId, read⟩
          · simp [read, Except.isOk, Except.toBool]
          · simp [read, Except.isOk, Except.toBool, Except.toOption]
  | setDescription description =>
      simp only [step, Call.method, setDescription, passed, bind, Except.bind, Call.accepted]
      by_cases long : descriptionMaxLength < utf16Length description
      · simp [long, not_le.mpr long]
      · simp [long, not_lt.mp long, apply]
  | setGossipEndpoints endpoints =>
      simp only [step, Call.method, setGossipEndpoints, passed, bind, Except.bind, Call.accepted]
      rcases checkEndpoints_eq "GossipEndpoints" gossipEndpointsMaxLength endpoints with
        ⟨same, fits⟩ | ⟨e, same, wrong⟩
      · rw [same]
        simp [fits, apply]
      · rw [same]
        simp [wrong]
  | setServiceEndpoints endpoints =>
      simp only [step, Call.method, setServiceEndpoints, passed, bind, Except.bind, Call.accepted]
      rcases checkEndpoints_eq "ServiceEndpoints" serviceEndpointsMaxLength endpoints with
        ⟨same, fits⟩ | ⟨e, same, wrong⟩
      · rw [same]
        simp [fits, apply]
      · rw [same]
        simp [wrong]
  | addGossipEndpoint endpoint =>
      simp only [step, Call.method, addGossipEndpoint, passed, bind, Except.bind, Call.accepted, apply]
      cases list : tx.gossipEndpoints with
      | some endpoints => rfl
      | none =>
          cases tx
          cases list
          rfl
  | addServiceEndpoint endpoint =>
      simp only [step, Call.method, addServiceEndpoint, passed, bind, Except.bind, Call.accepted, apply]
      cases list : tx.serviceEndpoints with
      | some endpoints => rfl
      | none =>
          cases tx
          cases list
          rfl
  | setGossipCaCertificate bytes =>
      simp only [step, Call.method, setGossipCaCertificate, passed, bind, Except.bind, Call.accepted]
      by_cases empty : bytes.length = 0
      · simp [empty]
      · simp [empty, apply]
  | clearDescription => rfl
  | setNodeId => simp only [step, Call.method, setNodeId, passed, bind, Except.bind]; rfl
  | setCertificateHash => simp only [step, Call.method, setCertificateHash, passed, bind, Except.bind]; rfl
  | setAdminKey => simp only [step, Call.method, setAdminKey, passed, bind, Except.bind]; rfl

theorem step_eq (tx : NodeUpdateTransaction) (call : Call) :
    step accountIdFromString tx call =
      if call.accepted accountIdFromString tx.transaction.isFrozenOrOnDemand then apply accountIdFromString tx call
      else tx := by
  cases frozen : tx.transaction.isFrozenOrOnDemand with
  | false => exact step_of_open frozen call
  | true =>
      by_cases clears : call = .clearDescription
      · subst clears
        rfl
      · rw [step_of_frozen frozen clears, accepted_of_frozen clears]
        rfl

theorem transaction_apply (tx : NodeUpdateTransaction) (call : Call) :
    (apply accountIdFromString tx call).transaction = tx.transaction := by
  cases call with
  | setAccountId accountId => cases accountId <;> rfl
  | setNodeId | setDescription | clearDescription | setGossipEndpoints | addGossipEndpoint | setServiceEndpoints
  | addServiceEndpoint | setGossipCaCertificate | setCertificateHash | setAdminKey => rfl

/-- The calls of a run that throw can be left out. -/
theorem runAll_step_eq (tx : NodeUpdateTransaction) (calls : List Call) :
    runAll (step accountIdFromString) tx calls =
      (calls.filter (Call.accepted accountIdFromString tx.transaction.isFrozenOrOnDemand)).foldl
        (apply accountIdFromString) tx := by
  induction calls generalizing tx with
  | nil => rfl
  | cons call calls inductionHypothesis =>
      rw [runAll_cons, inductionHypothesis, step_eq]
      by_cases accepted : call.accepted accountIdFromString tx.transaction.isFrozenOrOnDemand = true
      · rw [if_pos accepted, List.filter_cons_of_pos accepted, transaction_apply, List.foldl_cons]
      · rw [if_neg accepted, List.filter_cons_of_neg accepted]

/-! ## Fields -/

/-- The fields that have a value. -/
def has (tx : NodeUpdateTransaction) : Field → Bool
  | .accountId => tx.accountId.isSome
  | .description => tx.description.isSome
  | .gossipEndpoint => tx.gossipEndpoints.isSome
  | .serviceEndpoint => tx.serviceEndpoints.isSome
  | .gossipCaCertificate => tx.gossipCaCertificate.isSome
  | .grpcCertificateHash => tx.grpcCertificateHash.isSome
  | .adminKey => tx.adminKey.isSome

def Field.IsList (field : Field) : Prop := field = .gossipEndpoint ∨ field = .serviceEndpoint

theorem has_apply (tx : NodeUpdateTransaction) {frozen : Bool} {call : Call}
    (accepted : call.accepted accountIdFromString frozen = true) {field : Field} (single : ¬ field.IsList) :
    has (apply accountIdFromString tx call) field = true ↔ has tx field = true ∨ call.gives = some field := by
  cases call with
  | setAccountId accountId =>
      cases accountId with
      | id accountId => cases field <;> simp [apply, has, Call.gives]
      | text text =>
          have read : (accountIdFromString text).isOk = true := (Bool.and_eq_true_iff.mp accepted).2
          obtain ⟨accountId, same⟩ : ∃ accountId, accountIdFromString text = .ok accountId := by
            cases outcome : accountIdFromString text with
            | error e =>
                rw [outcome] at read
                cases read
            | ok accountId => exact ⟨accountId, rfl⟩
          cases field <;> simp [apply, has, Call.gives, same, Except.toOption]
  | addGossipEndpoint endpoint =>
      cases field with
      | gossipEndpoint => exact absurd (.inl rfl) single
      | accountId | description | serviceEndpoint | gossipCaCertificate | grpcCertificateHash | adminKey =>
          simp [apply, has, Call.gives]
  | addServiceEndpoint endpoint =>
      cases field with
      | serviceEndpoint => exact absurd (.inr rfl) single
      | accountId | description | gossipEndpoint | gossipCaCertificate | grpcCertificateHash | adminKey =>
          simp [apply, has, Call.gives]
  | setNodeId | setDescription | clearDescription | setGossipEndpoints | setServiceEndpoints
  | setGossipCaCertificate | setCertificateHash | setAdminKey =>
      cases field <;> simp [apply, has, Call.gives]

theorem has_foldl (tx : NodeUpdateTransaction) {frozen : Bool} {calls : List Call}
    (accepted : ∀ call ∈ calls, call.accepted accountIdFromString frozen = true) {field : Field}
    (single : ¬ field.IsList) :
    has (calls.foldl (apply accountIdFromString) tx) field = true ↔
      has tx field = true ∨ ∃ call ∈ calls, call.gives = some field := by
  induction calls generalizing tx with
  | nil => simp
  | cons call calls inductionHypothesis =>
      rw [List.foldl_cons, inductionHypothesis _ fun call member => accepted call (List.mem_cons_of_mem _ member),
        has_apply tx (accepted call List.mem_cons_self) single, List.exists_mem_cons_iff, or_assoc]

/-! ## Lists -/

namespace EndpointCall

/-- What the methods do to a list. -/
def extend (endpoints : Option (List ServiceEndpoint)) : EndpointCall → Option (List ServiceEndpoint)
  | set endpoints => some endpoints
  | add endpoint => endpoints.map (· ++ [endpoint])

theorem isSome_foldl_extend (calls : List EndpointCall) (endpoints : Option (List ServiceEndpoint)) :
    (calls.foldl extend endpoints).isSome = true ↔
      endpoints.isSome = true ∨ ∃ endpoints, set endpoints ∈ calls := by
  induction calls generalizing endpoints with
  | nil => simp
  | cons call calls inductionHypothesis =>
      rw [List.foldl_cons, inductionHypothesis]
      cases call with
      | set endpoints => simp [extend]
      | add endpoint => simp [extend]

theorem isSome_intended (calls : List EndpointCall) : (intended calls).isSome = true ↔ calls ≠ [] := by
  rcases calls.eq_nil_or_concat with rfl | ⟨front, call, rfl⟩
  · simp [intended]
  · rw [intended, List.concat_eq_append, List.foldl_append]
    cases call <;> simp

/-- A list that is there is the intended one. -/
theorem foldl_extend_eq (calls : List EndpointCall) :
    calls.foldl extend none = none ∨ calls.foldl extend none = intended calls := by
  induction calls using List.reverseRecOn with
  | nil => exact .inl rfl
  | append_singleton calls call inductionHypothesis =>
      rw [intended, List.foldl_append, List.foldl_append]
      change extend (calls.foldl extend none) call = none ∨ extend (calls.foldl extend none) call = _
      cases call with
      | set endpoints => exact .inr rfl
      | add endpoint =>
          rcases inductionHypothesis with absent | same
          · rw [absent]
            exact .inl rfl
          · rw [same]
            change (intended calls).map _ = none ∨
              (intended calls).map _ = some ((intended calls).getD [] ++ [endpoint])
            cases intended calls with
            | none => exact .inl rfl
            | some endpoints => exact .inr rfl

theorem foldl_extend_eq_intended_iff (calls : List EndpointCall) :
    calls.foldl extend none = intended calls ↔ Founded calls := by
  have there := isSome_foldl_extend calls none
  have meant := isSome_intended calls
  constructor
  · rintro same ⟨endpoint, member⟩
    rw [same, meant] at there
    exact (there.mp (List.ne_nil_of_mem member)).resolve_left (by simp)
  · intro founded
    rcases foldl_extend_eq calls with absent | same
    · rw [absent] at there
      cases calls with
      | nil => rfl
      | cons call calls =>
          have unset : ¬ ∃ endpoints, set endpoints ∈ call :: calls := fun holds => by
            have impossible := there.mpr (.inr holds)
            cases impossible
          cases call with
          | set endpoints => exact absurd ⟨endpoints, List.mem_cons_self⟩ unset
          | add endpoint => exact absurd (founded ⟨endpoint, List.mem_cons_self⟩) unset
    · exact same

end EndpointCall

theorem gossipEndpoints_foldl (tx : NodeUpdateTransaction) (calls : List Call) :
    (calls.foldl (apply accountIdFromString) tx).gossipEndpoints =
      (calls.filterMap Call.gossip?).foldl EndpointCall.extend tx.gossipEndpoints := by
  induction calls generalizing tx with
  | nil => rfl
  | cons call calls inductionHypothesis =>
      rw [List.foldl_cons, inductionHypothesis]
      cases call with
      | setAccountId accountId => cases accountId <;> rfl
      | setNodeId | setDescription | clearDescription | setGossipEndpoints | addGossipEndpoint | setServiceEndpoints
      | addServiceEndpoint | setGossipCaCertificate | setCertificateHash | setAdminKey => rfl

theorem serviceEndpoints_foldl (tx : NodeUpdateTransaction) (calls : List Call) :
    (calls.foldl (apply accountIdFromString) tx).serviceEndpoints =
      (calls.filterMap Call.service?).foldl EndpointCall.extend tx.serviceEndpoints := by
  induction calls generalizing tx with
  | nil => rfl
  | cons call calls inductionHypothesis =>
      rw [List.foldl_cons, inductionHypothesis]
      cases call with
      | setAccountId accountId => cases accountId <;> rfl
      | setNodeId | setDescription | clearDescription | setGossipEndpoints | addGossipEndpoint | setServiceEndpoints
      | addServiceEndpoint | setGossipCaCertificate | setCertificateHash | setAdminKey => rfl

/-! ## The body -/

theorem map_toProtobuf_injective : Function.Injective (Option.map (List.map ServiceEndpoint.toProtobuf)) := by
  apply Option.map_injective
  apply List.map_injective_iff.mpr
  rintro ⟨ipAddressV4, port, domainName⟩ ⟨ipAddressV4', port', domainName'⟩ same
  cases same
  rfl

theorem gives_gossip_iff (calls : List Call) :
    (∃ call ∈ calls, call.gives = some .gossipEndpoint) ↔ calls.filterMap Call.gossip? ≠ [] := by
  rw [ne_eq, List.filterMap_eq_nil_iff]
  push Not
  apply exists_congr
  intro call
  cases call <;> simp [Call.gives, Call.gossip?]

theorem gives_service_iff (calls : List Call) :
    (∃ call ∈ calls, call.gives = some .serviceEndpoint) ↔ calls.filterMap Call.service? ≠ [] := by
  rw [ne_eq, List.filterMap_eq_nil_iff]
  push Not
  apply exists_congr
  intro call
  cases call <;> simp [Call.gives, Call.service?]

/-- The body says what the calls said exactly when the description was given and every list that was
added to was set. -/
theorem saysAll_makeTransactionData_iff (accountIdFromString : String → Except JsError AccountId) (keys : KeyCodec)
    (transaction : Transaction) (calls : List Call) :
    let accepted := calls.filter (Call.accepted accountIdFromString transaction.isFrozenOrOnDemand)
    SaysAll ((runAll (step accountIdFromString) (create transaction) calls).makeTransactionData keys) accepted ↔
      Complete accepted := by
  intro accepted
  have ran : runAll (step accountIdFromString) (create transaction) calls =
      accepted.foldl (apply accountIdFromString) (create transaction) := runAll_step_eq (create transaction) calls
  have answered : ∀ call ∈ accepted, call.accepted accountIdFromString transaction.isFrozenOrOnDemand = true :=
    fun call member => (List.mem_filter.mp member).2
  have gossip := @gossipEndpoints_foldl accountIdFromString (create transaction) accepted
  have service := @serviceEndpoints_foldl accountIdFromString (create transaction) accepted
  have single (field : Field) (other : ¬ field.IsList) := has_foldl (create transaction) answered other
  rw [← ran] at gossip service single
  generalize runAll (step accountIdFromString) (create transaction) calls = tx at gossip service single
  constructor
  · intro promised
    refine ⟨(promised.present .description).mp rfl, ?_, ?_⟩
    · rw [← EndpointCall.foldl_extend_eq_intended_iff]
      exact gossip.symm.trans (map_toProtobuf_injective promised.gossip)
    · rw [← EndpointCall.foldl_extend_eq_intended_iff]
      exact service.symm.trans (map_toProtobuf_injective promised.service)
  · intro complete
    have gossipSame := gossip.trans ((EndpointCall.foldl_extend_eq_intended_iff _).mpr complete.gossip)
    have serviceSame := service.trans ((EndpointCall.foldl_extend_eq_intended_iff _).mpr complete.service)
    refine ⟨?_, congrArg (Option.map (List.map ServiceEndpoint.toProtobuf)) gossipSame,
      congrArg (Option.map (List.map ServiceEndpoint.toProtobuf)) serviceSame⟩
    intro field
    cases field with
    | description => exact iff_of_true rfl complete.description
    | gossipEndpoint =>
        rw [gives_gossip_iff, ← EndpointCall.isSome_intended, ← gossipSame, contains, makeTransactionData,
          Option.isSome_map]
    | serviceEndpoint =>
        rw [gives_service_iff, ← EndpointCall.isSome_intended, ← serviceSame, contains, makeTransactionData,
          Option.isSome_map]
    | accountId =>
        have own := single .accountId (by rintro (same | same) <;> cases same)
        rw [contains, makeTransactionData, Option.isSome_map]
        simpa [has, create] using own
    | gossipCaCertificate =>
        have own := single .gossipCaCertificate (by rintro (same | same) <;> cases same)
        rw [contains, makeTransactionData, Option.isSome_map]
        simpa [has, create] using own
    | grpcCertificateHash =>
        have own := single .grpcCertificateHash (by rintro (same | same) <;> cases same)
        rw [contains, makeTransactionData, Option.isSome_map]
        simpa [has, create] using own
    | adminKey =>
        have own := single .adminKey (by rintro (same | same) <;> cases same)
        rw [contains, makeTransactionData, Option.isSome_map]
        simpa [has, create] using own

end

/-! ## An endpoint that is added to no list -/

section Samples

def sampleEndpoint : ServiceEndpoint := { port := some 50211, domainName := some "node.example" }

/-- A description and one endpoint, which is dropped. -/
def sampleCalls : List Call := [.setDescription "node", .addGossipEndpoint sampleEndpoint]

theorem added_endpoint_dropped :
    ¬ SaysAll ((runAll (step fun text => .error (.error text)) (create { data := .plain .nodeUpdate .null })
        sampleCalls).makeTransactionData prefixKeys) sampleCalls := by
  intro promised
  have present := (promised.present .gossipEndpoint).mpr ⟨_, List.mem_cons_of_mem _ List.mem_cons_self, rfl⟩
  revert present
  decide

end Samples

end NodeUpdateTransaction

end HederaSdk
