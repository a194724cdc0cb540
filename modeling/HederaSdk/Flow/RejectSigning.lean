import HederaSdk.Flow.TokenReject
import HederaSdk.Transaction.Building
import HederaSdk.Transaction.Suspension

/-!
# Signing the transactions of a rejection

The flow freezes its two transactions when it was frozen itself, and starts to sign both without
waiting. Then it executes one after the other. The signer takes its time for each signature, so the
flow may be anywhere when a signature arrives.
-/

namespace HederaSdk

open Library
open Js (Value)

/-! ## Transactions that gain signatures -/

namespace Transaction

/-- The signer has made a signature of its key over the body. -/
def SignedBy (key : PublicKey) (signer : Signer) (signed : SignedTransaction) : Prop :=
  ∃ moment signature, signer moment signed.bodyBytes = .ok signature ∧
    key.toProtobufSignature signature ∈ signed.sigPair

/-- What happens to a frozen transaction: bodies and signatures stay, keys and signers are added. -/
structure Grows (tx tx' : Transaction) : Prop where
  mode : tx'.signOnDemand = tx.signOnDemand
  length : tx'.signedTransactions.list.length = tx.signedTransactions.list.length
  pairs : ∀ (i : Nat) (signed' : SignedTransaction), tx'.signedTransactions.list[i]? = some signed' →
    ∃ signed, tx.signedTransactions.list[i]? = some signed ∧ signed'.bodyBytes = signed.bodyBytes ∧
      signed.sigPair ⊆ signed'.sigPair
  keys : tx.publicKeys <+: tx'.publicKeys
  signers : tx.transactionSigners <+: tx'.transactionSigners

namespace Grows

variable {tx tx' tx'' : Transaction}

theorem of_same (mode : tx'.signOnDemand = tx.signOnDemand)
    (signed : tx'.signedTransactions.list = tx.signedTransactions.list)
    (keys : tx.publicKeys <+: tx'.publicKeys) (signers : tx.transactionSigners <+: tx'.transactionSigners) :
    Grows tx tx' :=
  ⟨mode, congrArg List.length signed, fun _ signed' found => ⟨signed', signed ▸ found, rfl, List.Subset.refl _⟩,
    keys, signers⟩

theorem refl (tx : Transaction) : Grows tx tx :=
  of_same rfl rfl (List.prefix_refl _) (List.prefix_refl _)

theorem trans (first : Grows tx tx') (second : Grows tx' tx'') : Grows tx tx'' where
  mode := second.mode.trans first.mode
  length := second.length.trans first.length
  pairs i signed'' found := by
    obtain ⟨signed', found', body', more'⟩ := second.pairs i signed'' found
    obtain ⟨signed, found, body, more⟩ := first.pairs i signed' found'
    exact ⟨signed, found, body'.trans body, List.Subset.trans more more'⟩
  keys := first.keys.trans second.keys
  signers := first.signers.trans second.signers

theorem frozen (grows : Grows tx tx') (frozen : tx.isFrozenOrOnDemand = true) :
    tx'.isFrozenOrOnDemand = true := by
  unfold isFrozenOrOnDemand isFrozen SdkList.length at frozen ⊢
  rw [grows.mode, grows.length]
  exact frozen

/-- A pair is added to one of the signed transactions. -/
theorem addPairAt (position : Nat) (pair : SignaturePair) (tx : Transaction) :
    Grows tx (Signing.addPairAt position pair tx) where
  mode := rfl
  length := by simp [Signing.addPairAt, withSigned]
  pairs i signed' found := by
    simp only [Signing.addPairAt, withSigned, List.getElem?_modify] at found
    obtain ⟨signed, here, rfl⟩ := Option.map_eq_some_iff.mp found
    refine ⟨signed, here, ?_, ?_⟩
    · split <;> rfl
    · split
      · exact List.subset_append_left _ _
      · exact List.Subset.refl _
  keys := List.prefix_refl _
  signers := List.prefix_refl _

/-- A further call of `signWith`, up to its first wait. -/
theorem start (key : PublicKey) (signer : Signer) (tx : Transaction) :
    Grows tx (Signing.start key signer tx).1 := by
  unfold Signing.start
  split
  · exact refl tx
  · split
    · exact refl tx
    · split
      · exact of_same rfl rfl (List.prefix_append _ _) (List.prefix_append _ _)
      · exact of_same rfl rfl (List.prefix_refl _) (List.prefix_refl _)

theorem resume (call : SignCall) (position moment : Nat) (tx : Transaction) :
    Grows tx (Signing.resume call position moment tx).1 := by
  unfold Signing.resume
  split
  · exact refl tx
  · split
    · exact refl tx
    · exact addPairAt _ _ _

section Requests

variable {proto : Proto} {base : Transaction}

theorem keeps_encodeAt (index : Nat) : Method.Keeps (Grows base) (encodeAt proto index) := by
  refine .bind .this fun tx => ?_
  cases tx.signedTransactions.get index with
  | none => exact .throwing _
  | some signed =>
      exact .update fun _ grows => grows.trans (of_same rfl rfl (List.prefix_refl _) (List.prefix_refl _))

theorem keeps_buildTransaction (index : Nat) : Method.Keeps (Grows base) (buildTransaction proto index) := by
  have absent : ∀ i, Method.Keeps (Grows base) (pushAbsent i) := fun _ =>
    .bind .this fun _ => .bind (.ofExcept _) fun _ => .update fun _ grows =>
      grows.trans (of_same rfl rfl (List.prefix_refl _) (List.prefix_refl _))
  exact .bind .this fun _ => .bind (.forEach absent _) fun _ =>
    .bind (.bind .this fun _ => .ite (keeps_encodeAt _) (.pure _)) fun _ =>
      .bind .this fun _ => .ite (keeps_encodeAt _) (.pure _)

theorem makeRequestAsync (proto : Proto) (moment : Nat) (tx : Transaction) :
    Grows tx ((Transaction.makeRequestAsync proto moment).run tx).2 := by
  refine (show Method.Keeps (Grows tx) (Transaction.makeRequestAsync proto moment) from ?_) tx (refl tx)
  refine .bind .this fun tx' => .ite ?_ ?_
  · refine .bind (.bind .this fun _ => .bind (.update fun _ grows => ?_) fun _ =>
      .bind (.ofExcept _) fun _ => .pure _) fun _ => .pure _
    exact grows.trans (of_same rfl rfl (List.prefix_refl _) (List.prefix_refl _))
  · refine .bind (keeps_buildTransaction _) fun _ => .bind .this fun built => ?_
    cases (built.transactions.get tx'.requestIndex).join with
    | some request => exact .pure _
    | none => exact .throwing _

theorem shouldRetry (precheckCode : Option Int) (generated : Timestamp) (tx : Transaction) :
    Grows tx ((Transaction.shouldRetry precheckCode generated).run tx).2 := by
  refine (show Method.Keeps (Grows tx) (Transaction.shouldRetry precheckCode generated) from ?_) tx (refl tx)
  refine .bind (.ofExcept _) fun status => .bind .this fun _ => ?_
  refine .ite (.pure _) (.ite (.pure _) (.ite (.ite (.pure _) ?_) (.pure _)))
  refine .bind (.update fun tx' grows => grows.trans ?_) fun _ => .pure _
  unfold buildNewTransactionIdList
  split
  · exact of_same rfl rfl (List.prefix_refl _) (List.prefix_refl _)
  · exact refl tx'

theorem mapStatusError (precheckCode : Option Int) (nodeId : AccountId) (tx : Transaction) :
    Grows tx ((Transaction.mapStatusError precheckCode nodeId).run tx).2 := by
  refine (show Method.Keeps (Grows tx) (Transaction.mapStatusError precheckCode nodeId) from ?_) tx (refl tx)
  refine .bind (.ofExcept _) fun _ => .bind (.bind .this fun _ => .ite (.throwing _) ?_) fun _ => .pure _
  refine .bind (.update fun _ grows => grows.trans ?_) fun _ => ?_
  · exact of_same rfl rfl (List.prefix_refl _) (List.prefix_refl _)
  · rename_i named _
    cases named.transactionIds.current with
    | some id => exact .pure _
    | none => exact .throwing _

end Requests

end Grows

end Transaction

/-! ## The flow -/

/-- What the flow was given to freeze and to sign with; `sign` takes a private key for both. -/
structure RejectSigner where
  freezeWithClient : Option Client
  publicKey : PublicKey
  transactionSigner : Signer

/-- The two transactions of the flow. -/
inductive RejectPart where
  | tokenReject
  | tokenDissociate
  deriving DecidableEq

def RejectPart.dataCase : RejectPart → DataCase
  | .tokenReject => .tokenReject
  | .tokenDissociate => .tokenDissociate

inductive RejectStage where
  | executing (part : RejectPart)
  /-- Waits for the operator's signatures. -/
  | signing (part : RejectPart)
  /-- At the head of the loop of attempts. -/
  | attempting (part : RejectPart)
  /-- Waits for the answer of a node. -/
  | calling (part : RejectPart) (nodeId : AccountId)
  | receiving (part : RejectPart)
  | returned
  | rejected (error : JsError)

/-- A run of the flow, with the requests that were handed to nodes. -/
structure RejectRun where
  tokenReject : Transaction.Signing
  tokenDissociate : Transaction.Signing
  stage : RejectStage
  requests : List ProtoTransaction := []

namespace RejectRun

def part (run : RejectRun) : RejectPart → Transaction.Signing
  | .tokenReject => run.tokenReject
  | .tokenDissociate => run.tokenDissociate

def setPart (part : RejectPart) (signing : Transaction.Signing) (run : RejectRun) : RejectRun :=
  match part with
  | .tokenReject => { run with tokenReject := signing }
  | .tokenDissociate => { run with tokenDissociate := signing }

/-- The transaction of a part is changed. -/
def setTx (part : RejectPart) (tx : Transaction) (run : RejectRun) : RejectRun :=
  run.setPart part { run.part part with tx }

@[simp] theorem part_setPart (part : RejectPart) (signing : Transaction.Signing) (run : RejectRun) :
    (run.setPart part signing).part part = signing := by
  cases part <;> rfl

theorem part_setPart_other {part other : RejectPart} (different : other ≠ part)
    (signing : Transaction.Signing) (run : RejectRun) : (run.setPart part signing).part other = run.part other := by
  cases part <;> cases other <;> first | rfl | exact absurd rfl different

@[simp] theorem requests_setPart (part : RejectPart) (signing : Transaction.Signing) (run : RejectRun) :
    (run.setPart part signing).requests = run.requests := by
  cases part <;> rfl

@[simp] theorem stage_setPart (part : RejectPart) (signing : Transaction.Signing) (run : RejectRun) :
    (run.setPart part signing).stage = run.stage := by
  cases part <;> rfl

end RejectRun

namespace RejectSigner

variable (proto : Proto) (flow : RejectSigner)

/-- `fillOutTransaction`: nobody waits for the call of `signWith`. -/
def fillOutTransaction (picked : Except JsError (List AccountId)) (generated : Timestamp) (tx : Transaction) :
    Except JsError Transaction.Signing :=
  let frozen : Except JsError Unit × Transaction := match flow.freezeWithClient with
    | none => (.ok (), tx)
    | some client => (Transaction.freezeWith proto (some client) picked generated).run tx
  match frozen with
  | (.error e, _) => .error e
  | (.ok _, tx) => .ok (Transaction.Signing.step ⟨tx, []⟩ (.call flow.publicKey flow.transactionSigner))

/-- The message of a new transaction, and what filling it out meets. -/
structure Filling where
  message : Value
  picked : Except JsError (List AccountId) := .ok []
  generated : Timestamp := ⟨0, 0⟩

def newTransaction (filling : RejectPart → Filling) (part : RejectPart) : Transaction :=
  { data := .plain part.dataCase (filling part).message }

def fillPart (filling : RejectPart → Filling) (part : RejectPart) : Except JsError Transaction.Signing :=
  flow.fillOutTransaction proto (filling part).picked (filling part).generated (newTransaction filling part)

/-- `execute` up to the execution of the first transaction. -/
def start (filling : RejectPart → Filling) : RejectRun :=
  match flow.fillPart proto filling .tokenReject, flow.fillPart proto filling .tokenDissociate with
  | .ok tokenReject, .ok tokenDissociate => { tokenReject, tokenDissociate, stage := .executing .tokenReject }
  | .error e, _ => {
      tokenReject := ⟨newTransaction filling .tokenReject, []⟩
      tokenDissociate := ⟨newTransaction filling .tokenDissociate, []⟩
      stage := .rejected e }
  | .ok tokenReject, .error e => {
      tokenReject
      tokenDissociate := ⟨newTransaction filling .tokenDissociate, []⟩
      stage := .rejected e }

end RejectSigner

/-! ## Events -/

/-- What may happen next. -/
inductive RejectEvent where
  /-- A signer settles for a call of `signWith`: the first is the flow's own. -/
  | settle (part : RejectPart) (index moment : Nat)
  | prepare (picked : Except JsError (List AccountId)) (checksums : TransactionData → Except JsError Unit)
      (generated : Timestamp)
  /-- The wait for the operator is over when its call is. -/
  | resume
  /-- An attempt makes the request for the node under the cursor, which may be unhealthy; `node` is what the
  network picks for a transaction without nodes. -/
  | attempt (node : AccountId) (moment : Nat) (healthy : Bool)
  /-- The node under the cursor is none of the client's. -/
  | skip
  /-- An attempt throws before it makes a request: no time is left, or no node. -/
  | stop (error : JsError)
  | answer (precheckCode : Option Int) (generated : Timestamp)
  /-- The call of the node fails, which may be tried again. -/
  | fail (error : JsError) (again : Bool)
  | receipt (outcome : Except JsError Unit)

namespace RejectRun

variable (proto : Proto) (client : Client)

/-- `_beforeExecute` up to its first wait. -/
def prepare (picked : Except JsError (List AccountId)) (checksums : TransactionData → Except JsError Unit)
    (generated : Timestamp) : TransactionMethod Unit := do
  Method.update fun tx => { tx with transactionNodeIds := client.nodeTexts }
  Transaction.freezeForExecution proto client picked generated
  Transaction.validateOwnChecksums client checksums
  Method.update (Transaction.takeOperator client)

/-- The operator signs, if there is one. -/
def signWithOperator (signing : Transaction.Signing) : Transaction.Signing :=
  match signing.tx.operator with
  | none => signing
  | some operator => signing.step (.call operator.publicKey operator.transactionSigner)

/-- A transaction without nodes is given the one that the network picks. -/
def withNode (node : AccountId) (tx : Transaction) : Transaction :=
  if tx.nodeAccountIds.isEmpty then { tx with nodeAccountIds := { tx.nodeAccountIds with list := [node], index := 0 } }
  else tx

def advanceNode (tx : Transaction) : Transaction := { tx with nodeAccountIds := tx.nodeAccountIds.advance }

/-- What follows a transaction that has its receipt. -/
def afterReceipt : RejectPart → RejectStage
  | .tokenReject => .executing .tokenDissociate
  | .tokenDissociate => .returned

/-- `execute` of a part up to the wait for the operator. -/
def beginExecute (picked : Except JsError (List AccountId)) (checksums : TransactionData → Except JsError Unit)
    (generated : Timestamp) (part : RejectPart) (run : RejectRun) : RejectRun :=
  match (prepare proto client picked checksums generated).run (run.part part).tx with
  | (.error e, tx) => { run.setTx part tx with stage := .rejected e }
  | (.ok _, tx) =>
      { run.setPart part (signWithOperator { run.part part with tx }) with stage := .signing part }

def awaitOperator (part : RejectPart) (run : RejectRun) : RejectRun :=
  match (run.part part).tx.operator, (run.part part).calls.getLast? with
  | none, _ | _, none => { run with stage := .attempting part }
  | some _, some call =>
      match call.progress with
      | .waiting _ => run
      | .resolved => { run with stage := .attempting part }
      | .rejected e => { run with stage := .rejected e }

/-- The request is made first, and only then the node is asked for its health. -/
def attempt (node : AccountId) (moment : Nat) (healthy : Bool) (part : RejectPart) (run : RejectRun) :
    RejectRun :=
  match (Transaction.makeRequestAsync proto moment).run (withNode node (run.part part).tx) with
  | (.error e, tx) => { run.setTx part tx with stage := .rejected e }
  | (.ok request, tx) =>
      if healthy then
        { run.setTx part (advanceNode tx) with
          stage := .calling part ((withNode node (run.part part).tx).nodeAccountIds.current.getD node)
          requests := run.requests ++ [request] }
      else run.setTx part (advanceNode tx)

def judge (precheckCode : Option Int) (generated : Timestamp) (part : RejectPart) (nodeId : AccountId)
    (run : RejectRun) : RejectRun :=
  match (Transaction.shouldRetry precheckCode generated).run (run.part part).tx with
  | (.error e, tx) => { run.setTx part tx with stage := .rejected e }
  | (.ok (_, .retry), tx) => { run.setTx part tx with stage := .attempting part }
  | (.ok (_, .finished), tx) => { run.setTx part tx with stage := .receiving part }
  | (.ok (_, .error), tx) =>
      match (Transaction.mapStatusError precheckCode nodeId).run tx with
      | (.ok e, tx) | (.error e, tx) => { run.setTx part tx with stage := .rejected e }

def step (run : RejectRun) (event : RejectEvent) : RejectRun :=
  match event, run.stage with
  | .settle part index moment, _ => run.setPart part ((run.part part).step (.settle index moment))
  | .prepare picked checksums generated, .executing part =>
      beginExecute proto client picked checksums generated part run
  | .resume, .signing part => awaitOperator part run
  | .attempt node moment healthy, .attempting part => attempt proto node moment healthy part run
  | .skip, .attempting part => run.setTx part (advanceNode (run.part part).tx)
  | .stop e, .attempting _ => { run with stage := .rejected e }
  | .answer precheckCode generated, .calling part nodeId => judge precheckCode generated part nodeId run
  | .fail e again, .calling part _ =>
      { run with stage := if again then .attempting part else .rejected e }
  | .receipt (.ok _), .receiving part => { run with stage := afterReceipt part }
  | .receipt (.error e), .receiving _ => { run with stage := .rejected e }
  | _, _ => run

end RejectRun

end HederaSdk
