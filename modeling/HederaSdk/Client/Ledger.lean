import HederaSdk.Client.Checks
import HederaSdk.Execution.Sending
import HederaSdk.Query.Session

/-!
# The ledger of a client

The ids of a request are checked against the ledger id that the network has. A new list of
nodes takes it away, and without it every id passes.
-/

namespace HederaSdk

open Library Network

/-- `LedgerId.fromString` -/
def LedgerId.fromString (ledgerId : String) : Except JsError Bytes :=
  if ledgerId = "mainnet" ∨ ledgerId = "0" then .ok [0]
  else if ledgerId = "testnet" ∨ ledgerId = "1" then .ok [1]
  else if ledgerId = "previewnet" ∨ ledgerId = "2" then .ok [2]
  else if ledgerId = "local-node" ∨ ledgerId = "3" then .ok [3]
  else if hexDecode ledgerId = [] ∧ ledgerId ≠ "" then .error (.error "Default reached for fromString")
  else .ok (hexDecode ledgerId)

structure EndPoint where
  address : Option String
  port : Option Nat

def EndPoint.toString (endpoint : EndPoint) : String :=
  let address := endpoint.address.getD ""
  let port := (endpoint.port.map Nat.repr).getD ""
  s!"{address}:{port}"

structure NodeAddress where
  accountId : Option AccountId
  addresses : List EndPoint

abbrev NodeAddressBook := List NodeAddress

/-- The map that `setNetworkFromAddressBook` builds. -/
def NodeAddressBook.toNetwork (addressBook : NodeAddressBook) (port : Nat) : OrderedMap String AccountId :=
  addressBook.foldl (fun network nodeAddress =>
    nodeAddress.addresses.foldl (fun network endpoint =>
      match nodeAddress.accountId with
      | some accountId =>
          if endpoint.port = some port then network.set endpoint.toString accountId else network
      | none => network) network) .empty

namespace Network

/-! ## The ledger id of a network -/

section

variable {V : Type} {cls : NetworkClass V} {ledgerId : Option Bytes}

theorem ledgerId_closeNode (i : Nat) :
    Method.Keeps (fun net => net.ledgerId = ledgerId) (closeNode cls i) := by
  refine .bind .this fun net => ?_
  cases net.nodes[i]? with
  | none => exact .throwing _
  | some r =>
      refine .bind (.update fun _ same => same) fun _ => .bind (.bind .this fun net => ?_) fun _ =>
        .update fun _ same => same
      dsimp only
      cases net.network.get? (cls.getKey (net.heap r)) with
      | none => exact .throwing _
      | some bucket => exact .update fun _ same => same

theorem ledgerId_allocate (node : Node) :
    Method.Keeps (fun net => net.ledgerId = ledgerId) (allocate node) :=
  .bind .this fun _ => .bind (.update fun _ same => same) fun _ => .pure _

theorem ledgerId_addNewNodes (known : List (String × String)) (now : ℚ) (entries : List (String × V))
    (newNodes : List NodeRef) :
    Method.Keeps (fun net => net.ledgerId = ledgerId) (addNewNodes cls known now entries newNodes) := by
  induction entries generalizing newNodes with
  | nil => exact .pure _
  | cons entry rest inductionHypothesis =>
      exact .ite (inductionHypothesis _) (.bind .this fun _ => .bind (.ofExcept _) fun node =>
        .bind (ledgerId_allocate node) fun _ => inductionHypothesis _)

/-- A new list of nodes is without a ledger id, and one that is refused changes nothing. -/
theorem triple_setNetwork (map : OrderedMap String V) (ω : Nat → Nat) (now : ℚ) :
    Method.Triple (fun net => net.ledgerId = ledgerId) (setNetwork cls map ω now)
      (fun _ net => net.ledgerId = none) fun _ net => net.ledgerId = ledgerId := by
  refine .this fun net same => ?_
  refine .bind (M := fun _ net => net.ledgerId = ledgerId)
    ((Method.Keeps.forEach ledgerId_closeNode _).triple.weaken (fun net' eq => eq ▸ same) (fun _ _ h => h)
      fun _ _ h => h) fun _ => .this fun net same => ?_
  refine .bind (M := fun _ net => net.ledgerId = ledgerId)
    ((ledgerId_addNewNodes _ _ _ _).triple.weaken (fun net' eq => eq ▸ same) (fun _ _ h => h) fun _ _ h => h)
    fun _ => .update _ fun _ _ => rfl

theorem ledgerId_readmitNodes (now : ℚ) (net : Network) : (readmitNodes now net).ledgerId = net.ledgerId := by
  unfold readmitNodes
  split <;> rfl

theorem ledgerId_replaceNodes (f : Node → Node) (nodes replaced : List NodeRef) :
    Method.Keeps (fun net => net.ledgerId = ledgerId) (replaceNodes f nodes replaced) := by
  induction nodes generalizing replaced with
  | nil => exact .pure _
  | cons r rest inductionHypothesis =>
      exact .bind (.update fun _ same => same) fun _ => .bind .this fun _ =>
        .bind (ledgerId_allocate _) fun _ => .bind (.update fun _ same => same) fun _ => inductionHypothesis _

theorem ledgerId_getNode (key : Option String) (ω : Nat → Nat) (now : ℚ) :
    Method.Keeps (fun net => net.ledgerId = ledgerId) (getNode key ω now) := by
  refine .bind (.update fun net same => (ledgerId_readmitNodes now net).trans same) fun _ =>
    .bind .this fun net => ?_
  cases key with
  | none => exact .ite (.throwing _) (.pure _)
  | some key =>
      dsimp only
      cases net.network.get? key with
      | some lockedNodes => exact .pure _
      | none =>
          dsimp only
          cases randomElement (ω 0) net.network.keys with
          | none => exact .throwing _
          | some randomNodeAccountId => exact .pure _

theorem ledgerId_getNodeAccountIdsForExecute (ω : Nat → Nat) (now : ℚ) :
    Method.Keeps (fun net => net.ledgerId = ledgerId) (getNodeAccountIdsForExecute ω now) :=
  .bind .this fun _ => .bind
    (.bind (.bind .this fun _ => .ite (.forEach ledgerId_closeNode _) (.pure _)) fun _ =>
      .bind (.update fun net same => (ledgerId_readmitNodes now net).trans same) fun _ =>
        .bind .this fun _ => .pure _) fun _ => .bind .this fun _ => .pure _

end

/-- Whatever is called, the ledger id stays as it is or is gone. -/
theorem ledgerId_step (net : Network) (call : NetworkCall) :
    (step net call).ledgerId = none ∨ (step net call).ledgerId = net.ledgerId := by
  obtain ⟨op, draws, now⟩ := call
  cases op with
  | setNetwork map =>
      have ends := @triple_setNetwork _ main net.ledgerId map draws now net rfl
      rw [step, NetworkCall.method]
      rcases ran : (setNetwork main map draws now).run net with ⟨e | _, net'⟩
      · rw [ran] at ends
        exact .inr ends
      · rw [ran] at ends
        exact .inl ends
  | increaseBackoff node => exact .inr rfl
  | decreaseBackoff node => exact .inr rfl
  | getNode key =>
      refine .inr ?_
      rw [step, NetworkCall.method, Method.run_bind_snd _ _ fun _ _ => rfl]
      exact ledgerId_getNode (key.map AccountId.toString) draws now net rfl
  | getNodeAccountIdsForExecute =>
      refine .inr ?_
      rw [step, NetworkCall.method, Method.run_bind_snd _ _ fun _ _ => rfl]
      exact ledgerId_getNodeAccountIdsForExecute draws now net rfl
  | setTransportSecurity transportSecurity =>
      have keeps : Method.Keeps (fun net' : Network => net'.ledgerId = net.ledgerId)
          (setTransportSecurity transportSecurity) :=
        .bind .this fun _ => .ite (.pure _) (.bind (.update fun _ same => same) fun _ =>
          .bind (ledgerId_replaceNodes _ _ _) fun _ => .update fun _ same => same)
      exact .inr (keeps net rfl)

/-- The network has the ledger id or none. -/
def Of (ledgerId : Option Bytes) (net : Network) : Prop := net.ledgerId = none ∨ net.ledgerId = ledgerId

theorem networkKeeps_of (ledgerId : Option Bytes) : ExecutableClass.NetworkKeeps (Of ledgerId) where
  step net call start := by
    rcases ledgerId_step net call with gone | same
    · exact .inl gone
    · exact start.imp same.trans same.trans
  getChannel _ _ start := start

end Network

/-! ## Runs of a client -/

namespace Client

open ExecutableClass

/-- What happens to a client. The requests are given with the ids that they name. -/
inductive LedgerCall (Resp : Type) where
  | setLedgerId (ledgerId : String ⊕ Bytes)
  | setNetwork (network : OrderedMap String AccountId) (draws : Nat → Nat) (now : ℚ)
  | setNetworkFromAddressBook (addressBook : NodeAddressBook) (draws : Nat → Nat) (now : ℚ)
  /-- The timer of `_scheduleNetworkUpdate` has asked for the address book. -/
  | networkUpdate (answer : Except JsError NodeAddressBook) (draws : Nat → Nat) (now : ℚ)
  | executeTransaction (ids : RequestIds) (tx : Transaction) (requestTimeout : Option ℚ)
      (schedule : Schedule Transaction.Preparation (Option Int))
  | executeQuery (ids : RequestIds) (query : Query) (requestTimeout : Option ℚ)
      (schedule : Schedule QueryPreparation Resp)

/-- A client, and the ledger id that was configured last. -/
structure LedgerSession where
  client : Client
  configured : Option Bytes

def LedgerSession.start (client : Client) : LedgerSession := ⟨client, client.network.ledgerId⟩

/-- The list of nodes that a call brings, if it brings one. -/
def LedgerCall.newNodes {Resp : Type} (client : Client) : LedgerCall Resp → Option NetworkCall
  | .setNetwork network draws now => some ⟨.setNetwork network, draws, now⟩
  | .setNetworkFromAddressBook addressBook draws now
  | .networkUpdate (.ok addressBook) draws now =>
      let port := if client.network.transportSecurity then 50212 else 50211
      some ⟨.setNetwork (addressBook.toNetwork port), draws, now⟩
  | _ => none

variable (proto : Proto) (sha384 : Bytes → Bytes) (encode : PaymentBody → Bytes)
  {Resp Out : Type} (subclass : QuerySubclass Resp Out)

/-- A transaction whose `_validateChecksums` comes to `checks` is executed. -/
def executedTransaction (client : Client) (checks : Except JsError Unit) (tx : Transaction)
    (requestTimeout : Option ℚ) (schedule : Schedule Transaction.Preparation (Option Int)) :
    Except JsError Transaction.TransactionResponse × Run Transaction ProtoTransaction :=
  let preparation := { schedule.preparation with checksums := fun _ => checks }
  ((Transaction.executableClass proto sha384).execute client requestTimeout
    { schedule with preparation }).run (Run.start client tx)

def executedQuery (client : Client) (checks : Except JsError Unit) (query : Query) (requestTimeout : Option ℚ)
    (schedule : Schedule QueryPreparation Resp) : Except JsError Out × Run Query PaymentTransaction :=
  let preparation := { schedule.preparation with checksums := checks }
  ((Query.executableClass encode subclass).execute client requestTimeout
    { schedule with preparation }).run (Run.start client query)

namespace LedgerSession

def withNetwork (session : LedgerSession) (network : Network) : LedgerSession :=
  { session with client := { session.client with network } }

/-- `_validateChecksums` with the ledger id that the network has. -/
def checks (session : LedgerSession) (ids : RequestIds) : Except JsError Unit :=
  ids.validateChecksums session.client.network.ledgerId

def step (session : LedgerSession) : LedgerCall Resp → LedgerSession
  | .setLedgerId ledgerId =>
      match ledgerId.elim LedgerId.fromString .ok with
      | .ok ledgerId =>
          { session.withNetwork { session.client.network with ledgerId := some ledgerId } with
            configured := some ledgerId }
      | .error _ => session
  | .executeTransaction ids tx requestTimeout schedule => session.withNetwork
      (executedTransaction proto sha384 session.client (session.checks ids) tx requestTimeout schedule).2.network
  | .executeQuery ids query requestTimeout schedule => session.withNetwork
      (executedQuery encode subclass session.client (session.checks ids) query requestTimeout schedule).2.network
  | call =>
      match call.newNodes session.client with
      | some update => session.withNetwork (Network.step session.client.network update)
      | none => session

/-- Checksums are validated, and the request names an id that is wrong for the ledger that was
configured. -/
def NamesWrong (session : LedgerSession) (ids : RequestIds) : Prop :=
  session.client.autoValidateChecksums = true ∧
    ∃ ledgerId ∈ session.configured, ∃ named ∈ ids.ids, named.id.WrongFor ledgerId

/-- Requests that name a wrong id are refused, and a new list of nodes leaves a ledger id. -/
def Upholds (session : LedgerSession) (call : LedgerCall Resp) : Prop :=
  match call with
  | .setLedgerId _ => True
  | .executeTransaction ids tx requestTimeout schedule => session.NamesWrong ids →
      Refused (executedTransaction proto sha384 session.client (session.checks ids) tx requestTimeout schedule)
  | .executeQuery ids query requestTimeout schedule => session.NamesWrong ids →
      Refused (executedQuery encode subclass session.client (session.checks ids) query requestTimeout schedule)
  | call => session.client.network.ledgerId ≠ none →
      (session.step proto sha384 encode subclass call).client.network.ledgerId ≠ none

/-- Among the ids that the class of the request looks at there is an account with an alias key,
or the network still has a ledger id and one of these ids is wrong for the one configured. -/
def Catches (session : LedgerSession) (ids : RequestIds) : Prop :=
  ∃ named, ids.Looked named ∧
    (named.Aliased ∨ session.client.network.ledgerId ≠ none ∧
      ∃ ledgerId ∈ session.configured, named.id.WrongFor ledgerId)

/-- A request that names a wrong id is caught before a query has payments, or it is refused even
when its ids are not looked at; a new list of nodes comes when there is no ledger id, or it is
refused. -/
def Heeds (session : LedgerSession) (call : LedgerCall Resp) : Prop :=
  match call with
  | .setLedgerId _ => True
  | .executeTransaction ids tx requestTimeout schedule => session.NamesWrong ids →
      session.Catches ids ∨
        Refused (executedTransaction proto sha384 session.client (.ok ()) tx requestTimeout schedule)
  | .executeQuery ids query requestTimeout schedule => session.NamesWrong ids →
      (query.paymentTransactions = [] ∧ session.Catches ids) ∨
        Refused (executedQuery encode subclass session.client (.ok ()) query requestTimeout schedule)
  | call => session.client.network.ledgerId ≠ none →
      ∀ update ∈ call.newNodes session.client,
        ∃ e, (update.method.run session.client.network).1 = .error e

/-- The network has the ledger id that was configured, or none. -/
def Sound (session : LedgerSession) : Prop := session.client.network.Of session.configured

variable {proto sha384 encode subclass}

/-! ### What is refused -/

section Refusals

variable {client : Client} {tx : Transaction} {query : Query} {requestTimeout : Option ℚ}

theorem refused_transaction {schedule : Schedule Transaction.Preparation (Option Int)} {e : JsError}
    (validates : client.autoValidateChecksums = true) :
    Refused (executedTransaction proto sha384 client (.error e) tx requestTimeout schedule) := by
  let timed := { tx with toExecutable := tx.toExecutable.setTimeout client requestTimeout }
  have threw (picked : Except JsError (List AccountId)) :
      ∃ e', ((Transaction.beforeExecute proto client picked (fun _ => .error e) schedule.preparation.generated
        schedule.preparation.moment).run timed).1 = .error e' := by
    rw [Transaction.beforeExecute, Method.run_update_bind, Transaction.freezeAndSign]
    rcases frozen : (Transaction.freezeForExecution proto client picked schedule.preparation.generated).run
      { timed with transactionNodeIds := client.nodeTexts } with ⟨e' | _, tx'⟩
    · exact ⟨e', by rw [Method.run_bind_error frozen]⟩
    · refine ⟨e, ?_⟩
      have checked : (Transaction.validateOwnChecksums client fun _ => .error e).run tx' = (.error e, tx') := by
        rw [Transaction.validateOwnChecksums, Method.run_this_bind, if_pos validates]
        rfl
      rw [Method.run_bind_ok frozen, Method.run_bind_error checked]
  let asked :=
    if timed.asksForNodes then
      (Network.getNodeAccountIdsForExecute schedule.preparation.draws schedule.preparation.now).run client.network
    else (.ok [], client.network)
  obtain ⟨e', threw⟩ := threw asked.1
  exact refused_of_beforeExecute (e := e') threw

theorem refused_query {schedule : Schedule QueryPreparation Resp} {e : JsError}
    (validates : client.autoValidateChecksums = true) (fresh : query.paymentTransactions = []) :
    Refused (executedQuery encode subclass client (.error e) query requestTimeout schedule) := by
  let timed := { query with toExecutable := query.toExecutable.setTimeout client requestTimeout }
  have threw (picked : Except JsError (List AccountId)) (input : QueryPreparation) (checks : input.checksums = .error e) :
      ((Query.beforeExecute encode client picked input).run timed).1 = .error e := by
    have empty : timed.paymentTransactions.isEmpty = true := List.isEmpty_iff.mpr fresh
    rw [Query.beforeExecute, Method.run_this_bind, if_pos empty, if_pos validates, checks]
    rfl
  let preparation := { schedule.preparation with checksums := .error e }
  let asked :=
    if timed.asksForNodes client preparation then
      (Network.getNodeAccountIdsForExecute preparation.draws preparation.now).run client.network
    else (.ok [], client.network)
  exact refused_of_beforeExecute (e := e) (threw asked.1 preparation rfl)

/-- A query with payments is executed without a look at its ids. -/
theorem executedQuery_of_paid {schedule : Schedule QueryPreparation Resp} (checks : Except JsError Unit)
    (paid : query.paymentTransactions ≠ []) :
    executedQuery encode subclass client checks query requestTimeout schedule =
      executedQuery encode subclass client (.ok ()) query requestTimeout schedule := by
  have skipped (input : QueryPreparation) (query : Query) (paid : query.paymentTransactions ≠ []) (net : Network) :
      (Query.prepareOn encode client input).run (query, net) = (.ok (), query, net) := by
    have some : query.paymentTransactions.isEmpty = false := by simpa using paid
    have asks : query.asksForNodes client input = false := by simp [Query.asksForNodes, some]
    have before : (Query.beforeExecute encode client (.ok []) input).run query = (.ok (), query) := by
      rw [Query.beforeExecute, Method.run_this_bind, some]
      rfl
    change (let asked :=
        if query.asksForNodes client input then
          (Network.getNodeAccountIdsForExecute input.draws input.now).run net
        else (.ok [], net)
      let done := (Query.beforeExecute encode client asked.1 input).run query
      (done.1, done.2, asked.2)) = _
    simp only [asks, Bool.false_eq_true, if_false, before]
  let timed := { query with toExecutable := query.toExecutable.setTimeout client requestTimeout }
  exact execute_preparation ((skipped _ timed paid _).trans (skipped _ timed paid _).symm)

end Refusals

section Steps

variable {session : LedgerSession} {ids : RequestIds}

/-- A request is caught exactly when `_validateChecksums` throws. -/
theorem catches_iff (sound : session.Sound) : session.Catches ids ↔ session.checks ids ≠ .ok () := by
  rw [checks, ne_eq, RequestIds.validateChecksums_eq_ok]
  push Not
  constructor
  · rintro ⟨named, looked, caught⟩
    refine ⟨named, looked, fun unaliased => ?_⟩
    obtain ⟨has, ledgerId, configured, wrong⟩ := caught.resolve_left unaliased
    exact ⟨ledgerId, (sound.resolve_left has).trans configured, wrong⟩
  · rintro ⟨named, looked, caught⟩
    refine ⟨named, looked, ?_⟩
    by_cases aliased : named.Aliased
    · exact .inl aliased
    · obtain ⟨ledgerId, has, wrong⟩ := caught aliased
      have some : session.client.network.ledgerId ≠ none := fun none => by cases none.symm.trans has
      exact .inr ⟨some, ledgerId, (sound.resolve_left some).symm.trans has, wrong⟩

/-- A new list of nodes leaves a ledger id exactly when it is refused. -/
theorem ledgerId_newNodes {net : Network} (map : OrderedMap String AccountId) (draws : Nat → Nat) (now : ℚ)
    (has : net.ledgerId ≠ none) :
    (Network.step net ⟨.setNetwork map, draws, now⟩).ledgerId ≠ none ↔
      ∃ e, ((NetworkCall.method ⟨.setNetwork map, draws, now⟩).run net).1 = .error e := by
  have ends := @triple_setNetwork _ main net.ledgerId map draws now net rfl
  rw [Network.step, NetworkCall.method]
  rcases ran : (Network.setNetwork main map draws now).run net with ⟨e | _, net'⟩
  · rw [ran] at ends
    have kept : net'.ledgerId = net.ledgerId := ends
    simp [kept, has]
  · rw [ran] at ends
    have gone : net'.ledgerId = none := ends
    simp [gone]

theorem upholds_iff (sound : session.Sound) (call : LedgerCall Resp) :
    session.Upholds proto sha384 encode subclass call ↔ session.Heeds proto sha384 encode subclass call := by
  cases call with
  | setLedgerId ledgerId => exact Iff.rfl
  | setNetwork network draws now =>
      refine forall_congr' fun has => (ledgerId_newNodes network draws now has).trans ?_
      simp [LedgerCall.newNodes]
  | setNetworkFromAddressBook addressBook draws now =>
      refine forall_congr' fun has => (ledgerId_newNodes _ draws now has).trans ?_
      simp [LedgerCall.newNodes]
  | networkUpdate answer draws now =>
      cases answer with
      | error e =>
          refine forall_congr' fun has => ?_
          simp [LedgerCall.newNodes, step, has]
      | ok addressBook =>
          refine forall_congr' fun has => (ledgerId_newNodes _ draws now has).trans ?_
          simp [LedgerCall.newNodes]
  | executeTransaction ids tx requestTimeout schedule =>
      refine forall_congr' fun names => ?_
      rw [catches_iff sound]
      rcases checked : session.checks ids with e | _
      · exact iff_of_true (refused_transaction names.1) (.inl (by simp))
      · simp
  | executeQuery ids query requestTimeout schedule =>
      refine forall_congr' fun names => ?_
      rw [catches_iff sound]
      by_cases fresh : query.paymentTransactions = []
      · rcases checked : session.checks ids with e | _
        · exact iff_of_true (refused_query names.1 fresh) (.inl ⟨fresh, by simp⟩)
        · simp
      · rw [executedQuery_of_paid (session.checks ids) fresh]
        simp [fresh]

theorem sound_newNodes (sound : session.Sound) (update : NetworkCall) :
    (session.withNetwork (Network.step session.client.network update)).Sound :=
  (networkKeeps_of session.configured).step _ update sound

theorem sound_step (session : LedgerSession) (call : LedgerCall Resp) (sound : session.Sound) :
    (session.step proto sha384 encode subclass call).Sound := by
  have keeps := networkKeeps_of session.configured
  cases call with
  | setLedgerId ledgerId =>
      unfold step
      dsimp only
      cases ledgerId.elim LedgerId.fromString .ok with
      | error e => exact sound
      | ok ledgerId => exact .inr rfl
  | setNetwork network draws now => exact sound_newNodes sound _
  | setNetworkFromAddressBook addressBook draws now => exact sound_newNodes sound _
  | networkUpdate answer draws now =>
      cases answer with
      | error e => exact sound
      | ok addressBook => exact sound_newNodes sound _
  | executeTransaction ids tx requestTimeout schedule =>
      refine keeps.execute ?_ (Run.start session.client tx) sound
      rintro ⟨tx, net⟩ start
      obtain ⟨calls, same⟩ := Transaction.network_prepareOn proto session.client _ tx net
      exact same ▸ runAll_invariant_all keeps.step calls start
  | executeQuery ids query requestTimeout schedule =>
      refine keeps.execute ?_ (Run.start session.client query) sound
      rintro ⟨query, net⟩ start
      obtain ⟨calls, same⟩ := Query.network_prepareOn encode session.client
        { schedule.preparation with checksums := session.checks ids } query net
      exact same ▸ runAll_invariant_all keeps.step calls start

end Steps

/-- In every run of a client, requests that name a wrong id are refused and new lists of nodes
leave a ledger id exactly as far as the calls heed what the client does. -/
theorem upheld_throughout_iff (client : Client) (calls : List (LedgerCall Resp)) :
    Guarded (step proto sha384 encode subclass) (Upholds proto sha384 encode subclass) (start client) calls ↔
      Guarded (step proto sha384 encode subclass) (Heeds proto sha384 encode subclass) (start client) calls :=
  guarded_congr sound_step (fun _ call sound => upholds_iff sound call) (.inr rfl)

section Samples

def validatingClient : Client := { Query.sampleClient with autoValidateChecksums := true }

/-- Token 0.0.123 with letters that are those of no ledger. -/
def misspelledToken : RequestIds where
  cls := .tokenInfoQuery
  records := [[⟨.tokenId, .tokenId, { shard := 0, realm := 0, num := 123, checksum := some "aaaaa" }⟩]]

def misspelledCall : LedgerCall (Option Int) :=
  .executeQuery misspelledToken Query.sampleQuery none (Query.sampleSchedule ⟨5, 0⟩ ⟨6, 0⟩)

end Samples

theorem update_ends_validation :
    ¬ Guarded (step prefixProto (fun _ => []) (fun _ => []) Query.sampleSubclass)
      (Upholds prefixProto (fun _ => []) (fun _ => []) Query.sampleSubclass) (start validatingClient)
      [.setLedgerId (.inl "mainnet"), .setNetwork (Transaction.sampleMap [3]) id 0, misspelledCall] := by
  rintro ⟨-, -, refuses, -⟩
  generalize later : step prefixProto (fun _ => []) (fun _ => []) Query.sampleSubclass
    (step prefixProto (fun _ => []) (fun _ => []) Query.sampleSubclass (start validatingClient)
      (.setLedgerId (.inl "mainnet")))
    (.setNetwork (Transaction.sampleMap [3]) id 0) = session at refuses
  have validates : session.client.autoValidateChecksums = true := by
    rw [← later]
    decide +kernel
  have configured : session.configured = some [0] := by
    rw [← later]
    decide +kernel
  have answered : (executedQuery (fun _ => []) Query.sampleSubclass session.client
      (session.checks misspelledToken) Query.sampleQuery none (Query.sampleSchedule ⟨5, 0⟩ ⟨6, 0⟩)).1 = .ok () := by
    rw [← later]
    decide +kernel
  have wrong : session.NamesWrong misspelledToken := by
    refine ⟨validates, [0], configured, _, List.mem_cons_self, "aaaaa", rfl, ?_⟩
    decide +kernel
  obtain ⟨⟨e, threw⟩, -⟩ := refuses wrong
  cases answered.symm.trans threw

end LedgerSession

end Client

end HederaSdk
