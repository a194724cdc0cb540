import HederaSdk.Transaction.Signing
import HederaSdk.Library.Runs

/-!
# Runs of a transaction before it is executed

A user freezes a transaction, signs it and removes signatures, in any order and
as often as wanted. Whatever was done, a signed transaction was made for the node
at its place in a row.
-/

namespace HederaSdk.Transaction

open Library

variable (proto : Proto)

inductive TransactionOp where
  | freezeWith (client : Option Client) (picked : Except JsError (List AccountId))
      (generated : Timestamp)
  | signWith (key : PublicKey) (signer : Signer) (moment : Nat)
  | addSignature (key : PublicKey) (signatures : SignatureMap) (generated : Timestamp)
  | removeSignature (key : PublicKey) (generated : Timestamp)
  | removeAllSignatures (generated : Timestamp)

def TransactionOp.method : TransactionOp → TransactionMethod Unit
  | .freezeWith client picked generated => Transaction.freezeWith proto client picked generated
  | .signWith key signer moment => Transaction.signWith key signer moment
  | .addSignature key signatures generated =>
      Transaction.addSignature proto key signatures generated
  | .removeSignature key generated => do
      let _ ← Transaction.removeSignature proto key generated
  | .removeAllSignatures generated => do
      let _ ← Transaction.removeAllSignatures proto generated

/-- The transaction after a call, also when the call throws. -/
def step (tx : Transaction) (op : TransactionOp) : Transaction := ((op.method proto).run tx).2

/-- A transaction as a user sets it up before anything is built or signed. -/
structure Fresh (tx : Transaction) : Prop where
  signOnDemand : tx.signOnDemand = false
  transactions : tx.transactions = {}
  signedTransactions : tx.signedTransactions = {}
  signerPublicKeys : tx.signerPublicKeys = ∅
  publicKeys : tx.publicKeys = []
  transactionSigners : tx.transactionSigners = []

/-! ## Bodies and nodes -/

variable {proto}

/-- The body was made for the node. -/
def MadeFor (proto : Proto) (nodeId : AccountId) (signed : SignedTransaction) : Prop :=
  ∃ body : TransactionBody, body.nodeAccountID = some nodeId ∧
    signed.bodyBytes = proto.encodeBody body

/-- The signed transactions are rows over the node ids. -/
def Rows (proto : Proto) (nodeIds : List AccountId) (signed : List SignedTransaction) : Prop :=
  ∀ p one, signed[p]? = some one → ∃ nodeId, nodeIds[p % nodeIds.length]? = some nodeId ∧
    MadeFor proto nodeId one

def Grid (proto : Proto) (tx : Transaction) : Prop :=
  Rows proto tx.nodeAccountIds.list tx.signedTransactions.list

section Rows

variable {nodeIds : List AccountId} {signed : List SignedTransaction}

theorem rows_nil : Rows proto nodeIds [] := by simp [Rows]

/-- Without nodes there is nothing. -/
theorem Rows.eq_nil (rows : Rows proto [] signed) : signed = [] := by
  cases signed with
  | nil => rfl
  | cons one rest =>
      obtain ⟨nodeId, found, _⟩ := rows 0 one rfl
      simp at found

theorem Rows.concat (rows : Rows proto nodeIds signed) {nodeId : AccountId}
    (turn : nodeIds[signed.length % nodeIds.length]? = some nodeId) {one : SignedTransaction}
    (made : MadeFor proto nodeId one) : Rows proto nodeIds (signed ++ [one]) := by
  intro p other found
  rcases Nat.lt_trichotomy p signed.length with before | rfl | behind
  · rw [List.getElem?_append_left before] at found
    exact rows p other found
  · rw [List.getElem?_concat_length] at found
    cases found
    exact ⟨nodeId, turn, made⟩
  · rw [List.getElem?_eq_none (by simp; omega)] at found
    cases found

/-- A row made for each node in order. -/
theorem rows_map {make : AccountId → SignedTransaction}
    (made : ∀ nodeId, MadeFor proto nodeId (make nodeId)) : Rows proto nodeIds (nodeIds.map make) := by
  intro p one found
  obtain ⟨nodeId, inList, rfl⟩ := List.getElem?_map .. ▸ found |> Option.map_eq_some_iff.mp
  have inside : p < nodeIds.length := (List.getElem?_eq_some_iff.mp inList).1
  exact ⟨nodeId, by rwa [Nat.mod_eq_of_lt inside], made nodeId⟩

/-- Only the bodies matter. -/
theorem Rows.congr {signed' : List SignedTransaction} (rows : Rows proto nodeIds signed)
    (bodies : signed'.map SignedTransaction.bodyBytes = signed.map SignedTransaction.bodyBytes) :
    Rows proto nodeIds signed' := by
  intro p one found
  have body := congrArg (·[p]?) bodies
  simp only [List.getElem?_map, found, Option.map_some] at body
  obtain ⟨other, inSigned, same⟩ := Option.map_eq_some_iff.mp body.symm
  obtain ⟨nodeId, turn, made, node, encoded⟩ := rows p other inSigned
  exact ⟨nodeId, turn, made, node, same ▸ encoded⟩

theorem madeFor_makeSignedTransaction (tx : Transaction) (nodeId : AccountId) :
    MadeFor proto nodeId (tx.makeSignedTransaction proto (some nodeId)) := ⟨_, rfl, rfl⟩

end Rows

/-! ## Freezing keeps the rows -/

section Freezing

theorem Grid.congr {tx tx' : Transaction} (grid : Grid proto tx)
    (nodes : tx'.nodeAccountIds.list = tx.nodeAccountIds.list)
    (bodies : tx'.signedTransactions.list.map SignedTransaction.bodyBytes =
      tx.signedTransactions.list.map SignedTransaction.bodyBytes) : Grid proto tx' := by
  rw [Grid, nodes]
  exact Rows.congr grid bodies

theorem grid_setNodeAccountIdsFrom (client : Option Client)
    (picked : Except JsError (List AccountId)) :
    Method.Keeps (Grid proto) (setNodeAccountIdsFrom client picked) := by
  intro tx grid
  rw [setNodeAccountIdsFrom, Method.run_this_bind]
  split
  · exact grid
  · rename_i none
    split
    · exact grid
    · have empty : tx.nodeAccountIds.list = [] := by simpa [SdkList.isEmpty] using none
      have unsigned : tx.signedTransactions.list = [] := by
        rw [Grid, empty] at grid
        exact grid.eq_nil
      cases picked with
      | error e => exact grid
      | ok nodeIds =>
          rw [Method.run_bind_ok (Method.run_ofExcept_ok _ _)]
          cases tx.nodeAccountIds.setList nodeIds with
          | error e => exact grid
          | ok list =>
              rw [Method.run_bind_ok (Method.run_ofExcept_ok _ _), Method.run_update, Grid, unsigned]
              exact rows_nil

theorem grid_buildSignedTransactions : Method.Keeps (Grid proto) (buildSignedTransactions proto) := by
  intro tx grid
  rw [buildSignedTransactions, Method.run_this_bind]
  split
  · exact grid
  · cases built : tx.signedTransactions.setList (tx.nodeAccountIds.list.map fun nodeId =>
        tx.makeSignedTransaction proto (some nodeId)) with
    | error e => exact grid
    | ok list =>
        obtain ⟨_, rfl⟩ := SdkList.setList_eq_ok built
        exact rows_map (madeFor_makeSignedTransaction tx)

theorem grid_buildNewTransactionIdList (generated : Timestamp) {tx : Transaction}
    (grid : Grid proto tx) : Grid proto (buildNewTransactionIdList generated tx) := by
  unfold buildNewTransactionIdList
  split <;> exact grid

theorem grid_freezeBase (client : Option Client) (picked : Except JsError (List AccountId))
    (generated : Timestamp) : Method.Keeps (Grid proto) (freezeBase proto client picked generated) :=
  .bind (.update fun _ grid => grid) fun _ =>
    .bind (grid_setNodeAccountIdsFrom client picked) fun _ =>
    .bind (.bind .this fun _ => .ite (.throwing _) (.pure _)) fun _ => .bind .this fun _ =>
    .bind (.ofExcept _) fun _ =>
    .bind (.update fun _ => grid_buildNewTransactionIdList generated) fun _ =>
    .bind .this fun _ => .ite (.pure _) grid_buildSignedTransactions

theorem grid_getTransactionId : Method.Keeps (Grid proto) getTransactionId := by
  refine .bind .this fun tx => .ite (.throwing _) (.bind (.update fun _ grid => grid) fun _ => ?_)
  cases tx.transactionIds.current with
  | some id => exact .pure _
  | none => exact .throwing _

/-- The rows are whole but for the last, which lacks the rest of the nodes. -/
structure Lacks (proto : Proto) (nodeIds rest : List AccountId) (tx : Transaction) : Prop where
  grid : Grid proto tx
  nodes : tx.nodeAccountIds.list = nodeIds
  suffix : rest <:+ nodeIds
  whole : nodeIds.length ∣ tx.signedTransactions.list.length + rest.length

theorem Lacks.congr {nodeIds rest : List AccountId} {tx tx' : Transaction}
    (lacks : Lacks proto nodeIds rest tx)
    (nodes : tx'.nodeAccountIds.list = tx.nodeAccountIds.list)
    (signed : tx'.signedTransactions.list = tx.signedTransactions.list) :
    Lacks proto nodeIds rest tx' :=
  ⟨lacks.grid.congr nodes (by rw [signed]), nodes.trans lacks.nodes, lacks.suffix,
    signed ▸ lacks.whole⟩

/-- The next in a row is the head of what it lacks. -/
theorem Lacks.turn {nodeIds rest : List AccountId} {nodeId : AccountId} {tx : Transaction}
    (lacks : Lacks proto nodeIds (nodeId :: rest) tx) :
    nodeIds[tx.signedTransactions.list.length % nodeIds.length]? = some nodeId := by
  obtain ⟨first, rfl⟩ := lacks.suffix
  obtain ⟨rows, whole⟩ := lacks.whole
  have place : tx.signedTransactions.list.length % (first ++ nodeId :: rest).length =
      first.length := by
    cases rows with
    | zero => simp at whole
    | succ rows =>
        have count : tx.signedTransactions.list.length =
            (first ++ nodeId :: rest).length * rows + first.length := by
          simp only [List.length_append, List.length_cons, Nat.mul_succ] at whole ⊢
          omega
        rw [count, Nat.mul_add_mod, Nat.mod_eq_of_lt (by simp)]
  rw [place, List.getElem?_append_right le_rfl]
  simp

theorem lacks_pushSignedTransaction (nodeIds rest : List AccountId) (nodeId : AccountId) :
    Method.Triple (Lacks proto nodeIds (nodeId :: rest)) (pushSignedTransaction proto nodeId)
      (fun _ => Lacks proto nodeIds rest) (fun _ => Grid proto) := by
  intro tx lacks
  rw [pushSignedTransaction, Method.run_this_bind]
  cases locked : tx.signedTransactions.locked with
  | true =>
      simp only [SdkList.push, locked, if_true]
      exact lacks.grid
  | false =>
      rw [SdkList.push_of_unlocked locked]
      have grid := lacks.grid
      have turn := lacks.turn
      rw [Grid] at grid
      rw [← lacks.nodes] at turn
      exact {
        grid := grid.concat turn (madeFor_makeSignedTransaction tx nodeId)
        nodes := lacks.nodes
        suffix := (List.suffix_cons nodeId rest).trans lacks.suffix
        whole := by
          have whole := lacks.whole
          simp only [List.length_append, List.length_cons, List.length_nil] at whole ⊢
          rwa [Nat.add_assoc, Nat.add_comm 1] }

/-- Whole rows over the nodes. -/
def Whole (proto : Proto) (nodeIds : List AccountId) : Transaction → Prop := Lacks proto nodeIds []

theorem Whole.grid {nodeIds : List AccountId} {tx : Transaction} (whole : Whole proto nodeIds tx) :
    Grid proto tx := Lacks.grid whole

theorem whole_pushTransactionId (nodeIds : List AccountId) (id : TransactionId) :
    Method.Triple (Whole proto nodeIds) (pushTransactionId id) (fun _ => Whole proto nodeIds)
      (fun _ => Grid proto) := by
  refine .this fun tx whole => .bind (M := fun _ tx' => tx' = tx) ?_ fun ids => ?_
  · exact .ofExcept _ (fun _ _ _ same => same) fun _ _ _ same => same ▸ whole.grid
  · exact .update _ fun tx' same => same ▸ Lacks.congr whole rfl rfl

theorem whole_buildChunks {prepare : Nat → Transaction → Transaction} {nodeIds : List AccountId}
    (prepares : ∀ chunk tx, Whole proto nodeIds tx → Whole proto nodeIds (prepare chunk tx))
    (interval : Int) (remaining chunk : Nat) (id : TransactionId) :
    Method.Triple (Whole proto nodeIds) (buildChunks proto prepare interval remaining chunk id)
      (fun _ => Whole proto nodeIds) (fun _ => Grid proto) := by
  induction remaining generalizing chunk id with
  | zero => exact .pure _ fun _ whole => whole
  | succ remaining inductionHypothesis =>
      refine .bind (.update _ (prepares chunk)) fun _ =>
        .bind (whole_pushTransactionId nodeIds id) fun _ => .this fun tx whole =>
        .bind (M := fun _ => Whole proto nodeIds) ?_ fun _ => inductionHypothesis _ _
      rw [Lacks.nodes whole]
      refine (Method.Triple.forEach (Lacks proto nodeIds)
        (fun nodeId rest => lacks_pushSignedTransaction nodeIds rest nodeId) nodeIds).weaken
        ?_ (fun _ _ h => h) fun _ _ h => h
      rintro _ rfl
      exact ⟨whole.grid, Lacks.nodes whole, List.suffix_refl _, by
        simpa using Lacks.whole whole⟩

theorem whole_clearForChunks (tx : Transaction) :
    Whole proto tx.nodeAccountIds.list (clearForChunks tx) :=
  ⟨rows_nil, rfl, List.nil_suffix, by simp [clearForChunks]⟩

/-- Freezing a transaction with chunks builds all rows anew. -/
theorem grid_chunks {prepare : Nat → Transaction → Transaction}
    (prepares : ∀ chunk tx nodeIds, Whole proto nodeIds tx → Whole proto nodeIds (prepare chunk tx))
    (interval : Int) (chunks : Nat) (id : TransactionId) {finish : Transaction → Transaction}
    (finishes : ∀ tx, Grid proto tx → Grid proto (finish tx)) :
    Method.Keeps (Grid proto) (do
      Method.update clearForChunks
      buildChunks proto prepare interval chunks 0 id
      Method.update finish) := by
  intro tx _
  rw [Method.run_update_bind]
  refine Method.Triple.snd (P := Whole proto tx.nodeAccountIds.list) (.bind
    (whole_buildChunks (fun chunk tx => prepares chunk tx _) interval chunks 0 id)
    fun _ => .update _ fun tx whole => finishes tx whole.grid) (whole_clearForChunks tx)

theorem grid_freezeFileAppend (append : FileAppend) :
    Method.Keeps (Grid proto) (freezeFileAppend proto append) := by
  unfold freezeFileAppend
  split
  · exact .pure _
  · exact .bind grid_getTransactionId fun id =>
      grid_chunks (fun _ _ _ h => h) _ _ id fun _ grid => grid

theorem grid_freezeTopicMessage (submit : TopicMessage) :
    Method.Keeps (Grid proto) (freezeTopicMessage proto submit) := by
  unfold freezeTopicMessage
  split
  · exact .pure _
  · refine .ite (.throwing _) (.bind grid_getTransactionId fun id =>
      grid_chunks ?_ _ _ id fun _ grid => grid.congr rfl rfl)
    exact fun _ _ _ whole => Lacks.congr whole rfl rfl

theorem grid_freezeWith (client : Option Client) (picked : Except JsError (List AccountId))
    (generated : Timestamp) : Method.Keeps (Grid proto) (freezeWith proto client picked generated) := by
  refine .bind (grid_freezeBase client picked generated) fun _ => .bind .this fun tx => ?_
  cases tx.data with
  | plain dataCase data => exact .pure _
  | fileAppend append => exact grid_freezeFileAppend append
  | topicMessageSubmit submit => exact grid_freezeTopicMessage submit

end Freezing

/-! ## Signing keeps the bodies -/

section Signing

theorem bodies_signEach (key : PublicKey) (signer : Signer) (moment : Nat)
    (list : List SignedTransaction) :
    (signEach key signer moment list).2.map SignedTransaction.bodyBytes =
      list.map SignedTransaction.bodyBytes := by
  induction list generalizing moment with
  | nil => rfl
  | cons signed rest inductionHypothesis =>
      unfold signEach
      split
      · rfl
      · simp [inductionHypothesis]

theorem bodies_addEach (key : PublicKey) (signatures : SignatureMap)
    (list : List SignedTransaction) :
    (addEach proto key signatures list).2.map SignedTransaction.bodyBytes =
      list.map SignedTransaction.bodyBytes := by
  induction list with
  | nil => rfl
  | cons signed rest inductionHypothesis =>
      unfold addEach
      split
      · rfl
      · simp [inductionHypothesis]

/-- A loop over the signed transactions that leaves the bodies keeps the rows. -/
theorem Grid.withSigned {tx : Transaction} (grid : Grid proto tx) {list : List SignedTransaction}
    (bodies : list.map SignedTransaction.bodyBytes =
      tx.signedTransactions.list.map SignedTransaction.bodyBytes) :
    Grid proto (tx.withSigned list) := grid.congr rfl bodies

theorem grid_mapSigned {tx : Transaction} (grid : Grid proto tx)
    {f : SignedTransaction → SignedTransaction} (bodies : ∀ one, (f one).bodyBytes = one.bodyBytes) :
    Grid proto (mapSigned f tx) := by
  refine grid.withSigned ?_
  rw [List.map_map]
  exact List.map_congr_left fun one _ => bodies one

theorem grid_freezeIfNeeded (generated : Timestamp) :
    Method.Keeps (Grid proto) (freezeIfNeeded proto generated) :=
  .bind .this fun _ => .ite (.pure _) (grid_freezeWith _ _ _)

theorem grid_signWith (key : PublicKey) (signer : Signer) (moment : Nat) :
    Method.Keeps (Grid proto) (signWith key signer moment) := by
  intro tx grid
  by_cases frozen : tx.isFrozenOrOnDemand = true
  · by_cases known : key.hex ∈ tx.signerPublicKeys
    · rw [run_signWith_known frozen known]
      exact grid
    · cases onDemand : tx.signOnDemand with
      | true =>
          rw [run_signWith_onDemand onDemand known]
          exact grid
      | false =>
          rw [run_signWith_immediate frozen onDemand known, replaceSigned, Method.run_update_bind]
          have locked : Grid proto (lockIds (noteSigner key tx)) := grid
          exact Method.Keeps.ofExcept _ _ (locked.withSigned (bodies_signEach ..))
  · simpa [signWith, requireFrozen, frozen, Method.run_bind] using grid

theorem grid_addSignature (key : PublicKey) (signatures : SignatureMap) (generated : Timestamp) :
    Method.Keeps (Grid proto) (addSignature proto key signatures generated) := by
  intro tx grid
  have kept := grid_freezeIfNeeded generated tx grid
  rcases freezes : (freezeIfNeeded proto generated).run tx with ⟨e | _, frozen⟩ <;>
    rw [freezes] at kept
  · rw [addSignature, Method.run_bind_error freezes]
    exact kept
  · by_cases known : key.hex ∈ frozen.signerPublicKeys
    · rw [run_addSignature_known freezes known]
      exact kept
    · have locked : Grid proto (lockForSignature frozen) := kept
      have added : Grid proto (withSigned
          (addEach proto key signatures frozen.signedTransactions.list).2 (lockForSignature frozen)) :=
        locked.withSigned (bodies_addEach ..)
      rw [run_addSignature_unknown freezes known]
      simp only
      split
      · exact added
      · exact added

theorem grid_removeSignature (key : PublicKey) (generated : Timestamp) :
    Method.Keeps (Grid proto) (removeSignature proto key generated) :=
  .bind (grid_freezeIfNeeded generated) fun _ => .bind .this fun _ => .ite
    (.bind (.update fun _ grid => grid_mapSigned grid fun _ => rfl) fun _ => .pure _) (.throwing _)

theorem grid_removeAllSignatures (generated : Timestamp) :
    Method.Keeps (Grid proto) (removeAllSignatures proto generated) :=
  .bind (grid_freezeIfNeeded generated) fun _ => .bind .this fun _ => .bind (.ofExcept _) fun _ =>
    .bind (.update fun _ grid => grid_mapSigned grid fun _ => rfl) fun _ => .pure _

end Signing

theorem grid_step (tx : Transaction) (op : TransactionOp) (grid : Grid proto tx) :
    Grid proto (step proto tx op) := by
  cases op with
  | freezeWith client picked generated => exact grid_freezeWith client picked generated tx grid
  | signWith key signer moment => exact grid_signWith key signer moment tx grid
  | addSignature key signatures generated => exact grid_addSignature key signatures generated tx grid
  | removeSignature key generated =>
      exact Method.Keeps.bind (grid_removeSignature key generated) (fun _ => .pure _) tx grid
  | removeAllSignatures generated =>
      exact Method.Keeps.bind (grid_removeAllSignatures generated) (fun _ => .pure _) tx grid

/-- The states a transaction can be in before it is executed. -/
def Built (proto : Proto) (tx : Transaction) : Prop :=
  ∃ start ops, Fresh start ∧ tx = runAll (step proto) start ops

/-- Whatever is done to a fresh transaction, the signed transactions are rows. -/
theorem Built.grid {tx : Transaction} (built : Built proto tx) : Grid proto tx := by
  obtain ⟨start, ops, fresh, rfl⟩ := built
  refine runAll_invariant_all grid_step ops ?_
  rw [Grid, fresh.signedTransactions]
  exact rows_nil

end HederaSdk.Transaction
