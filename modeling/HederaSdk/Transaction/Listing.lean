import HederaSdk.Transaction.Getters
import HederaSdk.Transaction.Incomplete
import HederaSdk.Transaction.Splitting

/-!
# The list of transactions

A frozen transaction is written as a list with one entry for each transaction id and
node, row by row. At once the entries are built from the signed transactions, over what
is left in the list; on demand they are appended to it, for the nodes from the cursor on.
-/

namespace HederaSdk.Transaction

open Library

variable {proto : Proto}

/-- The bytes of a body that names the ids. -/
def Names (proto : Proto) (id : TransactionId) (nodeId : AccountId) (bodyBytes : Bytes) : Prop :=
  ∃ value, proto.decodeBody bodyBytes = .ok value ∧
    value.get "transactionID" = id.toProtobuf proto.keys ∧
    value.get "nodeAccountID" = nodeId.toProtobuf proto.keys

theorem names_encodeBody (faithful : proto.Faithful) {body : TransactionBody} {id : TransactionId}
    {nodeId : AccountId} (transactionID : body.transactionID = some id)
    (nodeAccountID : body.nodeAccountID = some nodeId) : Names proto id nodeId (proto.encodeBody body) :=
  ⟨_, faithful.body body, get_transactionID _ _ transactionID, get_nodeAccountID _ _ nodeAccountID⟩

/-- The bodies are a grid: a row for each transaction id, a column for each node. -/
structure BodiesOf (proto : Proto) (ids : List TransactionId) (nodes : List AccountId)
    (bodies : List Bytes) : Prop where
  size : bodies.length = ids.length * nodes.length
  cells : ∀ (row column : Nat) (id : TransactionId) (nodeId : AccountId),
    ids[row]? = some id → nodes[column]? = some nodeId →
    ∃ bodyBytes, bodies[row * nodes.length + column]? = some bodyBytes ∧ Names proto id nodeId bodyBytes

/-- One entry for each transaction id and node, in the order of the grid. -/
def Lists (proto : Proto) (tx : Transaction) (entries : List ProtoTransaction) : Prop :=
  ∃ signed : List SignedTransaction, entries = signed.map proto.wrap ∧
    BodiesOf proto tx.transactionIds.list tx.nodeAccountIds.list
      (signed.map SignedTransaction.bodyBytes)

/-! ## Frozen transactions -/

/-- A transaction that was loaded is as unbuilt as one that was set up, if it has no contents to
split then with one id at most. -/
theorem unbuilt_of_fromBytes {types : TypeReaders} {bytes : Bytes} {copy : Transaction}
    (loaded : fromBytes proto types bytes = .ok copy)
    (ids : copy.data.contents = none → copy.transactionIds.list.length ≤ 1) : Unbuilt copy := by
  obtain ⟨list, parsed, _, _, known⟩ := fromBytes_eq_ok loaded
  exact ⟨ids, by rw [known.transactionIds], fun _ => by rw [known.transactionIds],
    by rw [known.signedTransactions], by rw [known.transactions]⟩

section Frozen

variable {client : Option Client} {picked : Except JsError (List AccountId)} {generated : Timestamp}
  {tx frozen : Transaction}

/-- At once, the base of freezing makes a signed transaction for each node. -/
theorem signed_of_freezeBase (unlocked : tx.signedTransactions.locked = false)
    (ran : (freezeBase proto client picked generated).run tx = (.ok (), frozen))
    (immediate : frozen.signOnDemand = false) :
    frozen.signedTransactions.list = frozen.nodeAccountIds.list.map fun nodeId =>
      frozen.makeSignedTransaction proto (some nodeId) := by
  obtain ⟨nodes, _, _, _, rfl⟩ := freezeBase_eq_ok ran
  have off : (settled client generated nodes tx).signOnDemand = false := by
    revert immediate
    split <;> exact fun off => off
  rw [if_neg (by rw [off, signedTransactions_settled, unlocked]; decide)]
  rfl

/-- Freezing at once makes the grid of signed transactions. -/
theorem bodiesOf_freezeWith (faithful : proto.Faithful) (unbuilt : Unbuilt tx)
    (ran : (freezeWith proto client picked generated).run tx = (.ok (), frozen))
    (immediate : frozen.signOnDemand = false) :
    BodiesOf proto frozen.transactionIds.list frozen.nodeAccountIds.list
      (frozen.signedTransactions.list.map SignedTransaction.bodyBytes) := by
  cases contents : tx.data.contents with
  | none =>
      rw [freezeWith_of_none contents] at ran
      obtain ⟨current, first, single, _, _⟩ := unbuilt.current_of_freezeBase ran
      have one := single (unbuilt.ids contents)
      obtain ⟨id, ids⟩ := List.length_eq_one_iff.mp one
      have currentIs : frozen.transactionIds.current = some id := by
        rw [SdkList.current, SdkList.get, first, ids]
        rfl
      have signed := signed_of_freezeBase unbuilt.signed ran immediate
      rw [signed, ids, List.map_map]
      refine ⟨by simp, fun row column rowId nodeId inRow inColumn => ?_⟩
      have zero : row = 0 := by
        have := (List.getElem?_eq_some_iff.mp inRow).1
        simpa using this
      subst zero
      cases inRow
      refine ⟨_, by rw [Nat.zero_mul, Nat.zero_add, List.getElem?_map, inColumn]; rfl, ?_⟩
      exact names_encodeBody faithful currentIs rfl
  | some data =>
      obtain ⟨based, basing, splits⟩ := freezeWith_eq_ok contents ran
      obtain ⟨plan, id, locked, _, ids, signed, _, _⟩ := splits.rows
      have list : frozen.transactionIds.list =
          chunkIds based.data.chunkInterval (based.data.chunks data) id := by
        rw [ids]
        rfl
      rw [list, signed, splits.nodes]
      refine ⟨by simp, fun row column rowId nodeId inRow inColumn => ?_⟩
      have cell := plan.rows_at based 0 inRow inColumn
      exact ⟨_, by rw [List.getElem?_map, cell]; rfl, names_encodeBody faithful rfl rfl⟩

/-- The lists of a transaction that was just frozen are not locked, and the cursor of the ids
is at a single id. -/
theorem locks_of_freezeWith (unbuilt : Unbuilt tx)
    (ran : (freezeWith proto client picked generated).run tx = (.ok (), frozen)) :
    frozen.transactions.locked = false ∧ frozen.signedTransactions.locked = false ∧
      (frozen.transactionIds.list.length = 1 → frozen.transactionIds.index = 0) := by
  cases contents : tx.data.contents with
  | none =>
      rw [freezeWith_of_none contents] at ran
      obtain ⟨_, first, _, signed, transactions⟩ := unbuilt.current_of_freezeBase ran
      exact ⟨by rw [transactions]; exact unbuilt.transactions, signed, fun _ => first⟩
  | some data =>
      obtain ⟨based, basing, splits⟩ := freezeWith_eq_ok contents ran
      obtain ⟨_, _, _, signed, transactions⟩ := unbuilt.current_of_freezeBase basing
      obtain ⟨_, id, locked, _, ids, _, _, _⟩ := splits.rows
      refine ⟨?_, splits.locks.2.trans signed, fun one => ?_⟩
      · rw [splits.locks.1, transactions]
        exact unbuilt.transactions
      · rw [ids] at one ⊢
        have some : based.data.chunks data ≠ 0 := by
          intro none
          simp [splitIds, none] at one
        exact if_neg some

end Frozen

/-! ## Calls -/

/-- The methods that show a frozen transaction. -/
inductive GetterCall where
  | getTransactionHash (moments : Nat → Nat)
  | getTransactionHashPerNode (moments : Nat → Nat)
  | getSignatures
  | getSignaturesAsync (moments : Nat → Nat)
  | toBytes (now : Timestamp)
  | toBytesAsync (moments : Nat → Nat)

/-- What a call does to the transaction. -/
def GetterCall.method (proto : Proto) (sha384 : Bytes → Bytes) : GetterCall → TransactionMethod Unit
  | .getTransactionHash moments => do let _ ← Transaction.getTransactionHash proto sha384 moments
  | .getTransactionHashPerNode moments => do
      let _ ← Transaction.getTransactionHashPerNode proto sha384 moments
  | .getSignatures => do let _ ← Transaction.getSignatures proto
  | .getSignaturesAsync moments => do let _ ← Transaction.getSignaturesAsync proto moments
  | .toBytes now => do let _ ← Transaction.toBytes proto now
  | .toBytesAsync moments => do let _ ← Transaction.toBytesAsync proto moments

/-- The transaction after a call, also when the call throws. -/
def getterStep (proto : Proto) (sha384 : Bytes → Bytes) (tx : Transaction) (call : GetterCall) :
    Transaction := ((call.method proto sha384).run tx).2

/-- What a call builds before it reads. -/
def GetterCall.building (proto : Proto) : GetterCall → TransactionMethod Unit
  | .getTransactionHash moments | .getSignaturesAsync moments | .toBytesAsync moments =>
      buildAndLock proto moments
  | .getTransactionHashPerNode moments => do
      Method.update lockIds
      buildAllTransactionsAsync proto moments
  | .getSignatures => do
      requireNotSignOnDemand
      buildAllTransactions proto
      Method.update lockIds
  | .toBytes now => do
      requireNotSignOnDemand
      buildForBytes proto now

theorem reads_ofExcept {α : Type} (read : Transaction → Except JsError α) (tx : Transaction) :
    ((Method.this >>= fun tx => Method.ofExcept (read tx) : TransactionMethod α).run tx).2 = tx := by
  rw [Method.run_this_bind]
  cases read tx <;> rfl

/-- A call leaves a frozen transaction as building leaves it. -/
theorem getterStep_eq {sha384 : Bytes → Bytes} {tx : Transaction} (frozen : tx.isFrozenOrOnDemand = true)
    (call : GetterCall) : getterStep proto sha384 tx call = ((call.building proto).run tx).2 := by
  have shown {α : Type} (m : TransactionMethod α) :
      ((m >>= fun _ => pure () : TransactionMethod Unit).run tx).2 = (m.run tx).2 :=
    Method.run_bind_snd m tx fun _ _ => rfl
  cases call with
  | getTransactionHash moments =>
      refine (shown _).trans ?_
      rw [Transaction.getTransactionHash, Method.run_bind_ok (run_requireFrozen frozen)]
      refine Method.run_bind_snd _ tx fun _ built => ?_
      rw [Method.run_this_bind]
      cases (built.transactions.get 0).join <;> rfl
  | getTransactionHashPerNode moments =>
      refine (shown _).trans ?_
      rw [Transaction.getTransactionHashPerNode, Method.run_bind_ok (run_requireFrozen frozen)]
      exact Method.run_bind_snd _ (lockIds tx) fun _ built => reads_ofExcept _ built
  | getSignatures =>
      refine (shown _).trans ?_
      rw [Transaction.getSignatures, Method.run_bind_ok (run_requireFrozen frozen)]
      rcases allowed : requireNotSignOnDemand.run tx with ⟨e | _, same⟩
      · rw [Method.run_bind_error allowed, GetterCall.building, Method.run_bind_error allowed]
      · rw [Method.run_bind_ok allowed, GetterCall.building, Method.run_bind_ok allowed]
        rcases built : (buildAllTransactions proto).run same with ⟨e | _, after⟩
        · rw [Method.run_bind_error built, Method.run_bind_error built]
        · rw [Method.run_bind_ok built, Method.run_bind_ok built]
          exact reads_ofExcept _ (lockIds after)
  | getSignaturesAsync moments =>
      refine (shown _).trans ?_
      exact Method.run_bind_snd _ tx fun _ built => reads_ofExcept _ built
  | toBytes now =>
      refine (shown _).trans ?_
      rw [Transaction.toBytes, GetterCall.building]
      rcases allowed : requireNotSignOnDemand.run tx with ⟨e | _, same⟩
      · rw [Method.run_bind_error allowed, Method.run_bind_error allowed]
      · rw [Method.run_bind_ok allowed, Method.run_bind_ok allowed]
        exact Method.run_bind_snd _ same fun _ built => reads_ofExcept _ built
  | toBytesAsync moments =>
      refine (shown _).trans ?_
      exact Method.run_bind_snd _ tx fun _ built => reads_ofExcept _ built

/-! ## At once -/

/-- A transaction that is signed at once, whose list has no more entries than there are bodies. -/
structure AtOnce (ids : List TransactionId) (nodes : List AccountId) (bodies : List Bytes)
    (tx : Transaction) : Prop where
  immediate : tx.signOnDemand = false
  sameIds : tx.transactionIds.list = ids
  sameNodes : tx.nodeAccountIds.list = nodes
  sameBodies : tx.signedTransactions.list.map SignedTransaction.bodyBytes = bodies
  fits : tx.transactions.list.length ≤ bodies.length
  nonempty : bodies ≠ []

section AtOnce

variable {ids : List TransactionId} {nodes : List AccountId} {bodies : List Bytes}

theorem AtOnce.keeps_buildAllTransactions :
    Method.Keeps (AtOnce ids nodes bodies) (buildAllTransactions proto) := by
  intro tx atOnce
  rw [buildAllTransactions, Method.run_this_bind]
  have count : tx.signedTransactions.list.length = bodies.length := by
    rw [← atOnce.sameBodies, List.length_map]
  refine Method.Keeps.bind (.ofExcept _) (fun _ => .forEach_mem fun index member => ?_) tx atOnce
  intro tx' atOnce'
  have inside : index < tx'.signedTransactions.list.length := by
    have same := congrArg List.length atOnce'.sameBodies
    rw [List.length_map] at same
    rw [same, ← count]
    exact List.mem_range.mp member
  rcases @run_buildTransaction_cases proto _ _ _
    (show tx'.signedTransactions.get index = some _ from List.getElem?_eq_getElem inside) with
    ⟨e, failed⟩ | built
  · rw [failed]
    exact atOnce'
  · rw [built]
    refine ⟨atOnce'.immediate, atOnce'.sameIds, atOnce'.sameNodes, atOnce'.sameBodies, ?_,
      atOnce'.nonempty⟩
    have same := congrArg List.length atOnce'.sameBodies
    have fits := atOnce'.fits
    rw [List.length_map] at same
    rw [withTransactions, length_builtAt]
    omega

theorem AtOnce.keeps_buildAllTransactionsAsync (moments : Nat → Nat) :
    Method.Keeps (AtOnce ids nodes bodies) (buildAllTransactionsAsync proto moments) := by
  intro tx atOnce
  rw [buildAllTransactionsAsync, Method.run_this_bind, if_pos (by simp [atOnce.immediate])]
  exact keeps_buildAllTransactions tx atOnce

theorem AtOnce.keeps_lockIds :
    Method.Keeps (AtOnce ids nodes bodies) (Method.update lockIds : TransactionMethod Unit) :=
  .update fun _ h => ⟨h.immediate, h.sameIds, h.sameNodes, h.sameBodies, h.fits, h.nonempty⟩

theorem AtOnce.keeps_buildAndLock (moments : Nat → Nat) :
    Method.Keeps (AtOnce ids nodes bodies) (buildAndLock proto moments) :=
  .bind keeps_lockIds fun _ => .bind (keeps_buildAllTransactionsAsync moments) fun _ =>
    .update fun _ h => ⟨h.immediate, h.sameIds, h.sameNodes, h.sameBodies, h.fits, h.nonempty⟩

theorem AtOnce.frozen {tx : Transaction} (atOnce : AtOnce ids nodes bodies tx) :
    tx.isFrozenOrOnDemand = true := by
  have count := congrArg List.length atOnce.sameBodies
  have positive := List.length_pos_iff.mpr atOnce.nonempty
  rw [List.length_map] at count
  rw [isFrozenOrOnDemand, isFrozen, SdkList.length, Bool.or_eq_true, decide_eq_true_eq]
  exact .inr (by omega)

theorem AtOnce.keeps_buildForBytes (now : Timestamp) :
    Method.Keeps (AtOnce ids nodes bodies) (buildForBytes proto now) := by
  intro tx atOnce
  rw [buildForBytes, Method.run_this_bind, if_pos atOnce.frozen]
  exact Method.Keeps.bind keeps_lockIds (fun _ => keeps_buildAllTransactions) tx atOnce

/-- A frozen transaction stays one that is signed at once with its bodies. -/
theorem AtOnce.step {sha384 : Bytes → Bytes} {tx : Transaction} (atOnce : AtOnce ids nodes bodies tx)
    (call : GetterCall) : AtOnce ids nodes bodies (getterStep proto sha384 tx call) := by
  have allowed : Method.Keeps (AtOnce ids nodes bodies) requireNotSignOnDemand :=
    .bind .this fun _ => .ite (.throwing _) (.pure _)
  rw [getterStep_eq atOnce.frozen]
  cases call with
  | getTransactionHash moments => exact keeps_buildAndLock moments tx atOnce
  | getTransactionHashPerNode moments =>
      exact Method.Keeps.bind keeps_lockIds (fun _ => keeps_buildAllTransactionsAsync moments) tx atOnce
  | getSignatures =>
      exact Method.Keeps.bind allowed (fun _ => .bind keeps_buildAllTransactions fun _ => keeps_lockIds)
        tx atOnce
  | getSignaturesAsync moments => exact keeps_buildAndLock moments tx atOnce
  | toBytes now => exact Method.Keeps.bind allowed (fun _ => keeps_buildForBytes now) tx atOnce
  | toBytesAsync moments => exact keeps_buildAndLock moments tx atOnce

theorem AtOnce.run {sha384 : Bytes → Bytes} {tx : Transaction} (start : AtOnce ids nodes bodies tx)
    (calls : List GetterCall) :
    AtOnce ids nodes bodies (runAll (getterStep proto sha384) tx calls) :=
  runAll_invariant_all (I := AtOnce ids nodes bodies) (fun _ call atOnce => atOnce.step call) calls start

/-- Building goes on from the entries before an index to the end. -/
theorem buildFrom_eq_ok {signed : List SignedTransaction} {count : Nat} {tx tx' : Transaction}
    {index : Nat} (list : tx.signedTransactions.list = signed) (all : index + count = signed.length)
    (before : ∀ i < index, tx.transactions.list[i]? = (signed[i]?).map fun one => some (proto.wrap one))
    (fits : tx.transactions.list.length ≤ signed.length)
    (built : (Method.forEach (buildTransaction proto) (List.range' index count)).run tx = (.ok (), tx')) :
    tx'.transactions.list = signed.map fun one => some (proto.wrap one) := by
  induction count generalizing tx index with
  | zero =>
      cases built
      refine List.ext_getElem? fun i => ?_
      rw [List.getElem?_map]
      by_cases inside : i < index
      · exact before i inside
      · rw [List.getElem?_eq_none (by omega), List.getElem?_eq_none (by omega)]
        rfl
  | succ count inductionHypothesis =>
      rw [List.range'_succ] at built
      obtain ⟨_, one, first, rest⟩ := Method.run_bind_eq_ok.mp built
      obtain ⟨here, found, rfl⟩ := buildTransaction_eq_ok first
      have foundIn : signed[index]? = some here := by
        rw [← list]
        exact found
      refine inductionHypothesis (by exact list) (by omega) ?_ ?_ rest
      · intro i inside
        by_cases last : i = index
        · subst last
          rw [foundIn]
          exact get_builtAt i here tx.transactions
        · have earlier := before i (by omega)
          rw [List.getElem?_eq_getElem (show i < signed.length by omega)] at earlier ⊢
          exact get_builtAt_before (by omega) here earlier
      · rw [withTransactions, length_builtAt]
        omega

theorem AtOnce.buildAllTransactions_eq_ok {tx tx' : Transaction} (atOnce : AtOnce ids nodes bodies tx)
    (built : (buildAllTransactions proto).run tx = (.ok (), tx')) :
    tx'.transactions.list = tx.signedTransactions.list.map fun one => some (proto.wrap one) := by
  rw [buildAllTransactions, Method.run_this_bind] at built
  obtain ⟨_, same, checking, built⟩ := Method.run_bind_eq_ok.mp built
  have unchanged : same = tx := by
    cases allowed : tx.checkChunks with
    | error e =>
        rw [allowed] at checking
        cases checking
    | ok _ =>
        rw [allowed] at checking
        cases checking
        rfl
  subst unchanged
  rw [List.range_eq_range'] at built
  have count := congrArg List.length atOnce.sameBodies
  have fits := atOnce.fits
  rw [List.length_map] at count
  exact buildFrom_eq_ok rfl (Nat.zero_add _) (fun i inside => absurd inside (Nat.not_lt_zero i))
    (by omega) built

end AtOnce

/-! ## On demand -/

/-- Every transaction of the list names the id and its node. -/
def AllNamed (proto : Proto) (ids : List TransactionId) (nodes : List AccountId) (tx : Transaction) :
    Prop :=
  ∃ signed : List SignedTransaction,
    tx.transactions.list = signed.map (fun one => some (proto.wrap one)) ∧
      BodiesOf proto ids nodes (signed.map SignedTransaction.bodyBytes)

/-- A transaction that is signed on demand, with one id or without nodes, whose list is complete
once it is locked. -/
structure InTurn (proto : Proto) (ids : List TransactionId) (nodes : List AccountId)
    (tx : Transaction) : Prop where
  onDemand : tx.signOnDemand = true
  sameIds : tx.transactionIds.list = ids
  sameNodes : tx.nodeAccountIds.list = nodes
  single : nodes = [] ∨ ids.length = 1 ∧ tx.transactionIds.index = 0
  locks : tx.signedTransactions.locked = tx.transactions.locked
  complete : tx.transactions.locked = true → AllNamed proto ids nodes tx

/-- Building on demand starts with an empty list at the first node, or not at all. -/
def Prepared (tx : Transaction) : Prop :=
  tx.signOnDemand = true → tx.transactions.locked = true ∨
    (tx.transactions.list = [] ∧ tx.nodeAccountIds.index = 0)

instance (tx : Transaction) : Decidable (Prepared tx) := inferInstanceAs (Decidable (_ → _ ∨ _ ∧ _))

section InTurn

variable {ids : List TransactionId} {nodes : List AccountId}

/-- A request on demand is appended; a signer that fails leaves the cursor moved. -/
theorem run_pushTransaction_cases {tx : Transaction} (unlocked : tx.transactions.locked = false)
    (moment : Nat) :
    (∃ e, (pushTransaction proto moment).run tx =
      (.error e, { tx with nodeAccountIds := tx.nodeAccountIds.advance })) ∨
    ∃ pairs, (pushTransaction proto moment).run tx = (.ok (), { tx with
      nodeAccountIds := tx.nodeAccountIds.advance
      transactions := { tx.transactions with
        list := tx.transactions.list ++ [some (proto.wrap
          { tx.makeSignedTransaction proto tx.nodeAccountIds.current with sigMap := some pairs })] } }) := by
  cases signing : signPairs (tx.makeSignedTransaction proto tx.nodeAccountIds.current).bodyBytes moment
      tx.publicKeys tx.transactionSigners with
  | error e =>
      have signed : (signTransaction proto moment).run tx =
          (.error e, { tx with nodeAccountIds := tx.nodeAccountIds.advance }) := by
        simp [signTransaction, signing, Method.run_bind]
      have failed : (buildTransactionAsync proto moment).run tx = (.error e, _) :=
        Method.run_bind_error signed
      exact .inl ⟨e, Method.run_bind_error failed⟩
  | ok pairs =>
      have signed : (signTransaction proto moment).run tx =
          (.ok { tx.makeSignedTransaction proto tx.nodeAccountIds.current with sigMap := some pairs },
            { tx with nodeAccountIds := tx.nodeAccountIds.advance }) := by
        simp [signTransaction, signing, Method.run_bind]
      have built : (buildTransactionAsync proto moment).run tx = _ := Method.run_bind_ok signed
      refine .inr ⟨pairs, (Method.run_bind_ok built).trans ?_⟩
      rw [Method.run_this_bind, SdkList.push_of_unlocked unlocked]
      rfl

theorem bodiesOf_nil (ids : List TransactionId) : BodiesOf proto ids [] [] where
  size := by simp
  cells _ _ _ _ _ inColumn := by simp at inColumn

/-- The next node of the only row. -/
theorem BodiesOf.concat {id : TransactionId} {bodies : List Bytes} (named : BodiesOf proto [id] nodes bodies)
    {nodeId : AccountId} {bodyBytes : Bytes} (last : Names proto id nodeId bodyBytes) :
    BodiesOf proto [id] (nodes ++ [nodeId]) (bodies ++ [bodyBytes]) where
  size := by
    have size := named.size
    simp only [List.length_singleton, List.length_append, Nat.one_mul] at size ⊢
    rw [size]
  cells row column rowId columnId inRow inColumn := by
    have size := named.size
    have zero : row = 0 := by
      have inside := (List.getElem?_eq_some_iff.mp inRow).1
      simpa using inside
    subst zero
    cases inRow
    rw [List.length_singleton, Nat.one_mul] at size
    rw [Nat.zero_mul, Nat.zero_add]
    by_cases before : column < nodes.length
    · rw [List.getElem?_append_left before] at inColumn
      rw [List.getElem?_append_left (by omega)]
      simpa using named.cells 0 column id columnId rfl inColumn
    · have inside := (List.getElem?_eq_some_iff.mp inColumn).1
      rw [List.length_append, List.length_singleton] at inside
      have isLast : column = nodes.length := by omega
      subst isLast
      rw [List.getElem?_concat_length] at inColumn
      cases inColumn
      exact ⟨bodyBytes, by rw [← size, List.getElem?_concat_length], last⟩

/-- The list while it is filled: it names the nodes before the cursor. -/
structure Filling (proto : Proto) (ids : List TransactionId) (nodes : List AccountId) (count : Nat)
    (tx : Transaction) : Prop extends InTurn proto ids nodes tx where
  unlocked : tx.transactions.locked = false
  filled : AllNamed proto ids (nodes.take count) tx
  turn : count < nodes.length → tx.nodeAccountIds.index = count

theorem Filling.pushTransaction (faithful : proto.Faithful) {count : Nat} (more : count < nodes.length)
    (moment : Nat) :
    Method.Triple (Filling proto ids nodes count) (pushTransaction proto moment)
      (fun _ => Filling proto ids nodes (count + 1)) (fun _ => InTurn proto ids nodes) := by
  intro tx filling
  have inTurn := filling.toInTurn
  rcases @run_pushTransaction_cases proto tx filling.unlocked moment with
    ⟨e, failed⟩ | ⟨pairs, pushed⟩
  · rw [failed]
    exact ⟨inTurn.onDemand, inTurn.sameIds, inTurn.sameNodes, inTurn.single, inTurn.locks,
      inTurn.complete⟩
  · rw [pushed]
    obtain ⟨id, idsIs, current⟩ : ∃ id, ids = [id] ∧ tx.transactionIds.current = some id := by
      rcases inTurn.single with none | ⟨one, first⟩
      · simp [none] at more
      · obtain ⟨id, idsIs⟩ := List.length_eq_one_iff.mp one
        exact ⟨id, idsIs, by rw [SdkList.current, SdkList.get, first, inTurn.sameIds, idsIs]; rfl⟩
    have node : tx.nodeAccountIds.current = some nodes[count] := by
      rw [SdkList.current, SdkList.get, filling.turn more, inTurn.sameNodes]
      exact List.getElem?_eq_getElem more
    have named : Names proto id nodes[count]
        (tx.makeSignedTransaction proto tx.nodeAccountIds.current).bodyBytes :=
      names_encodeBody faithful current node
    obtain ⟨signed, list, bodies⟩ := filling.filled
    refine ⟨⟨inTurn.onDemand, inTurn.sameIds, inTurn.sameNodes, inTurn.single, inTurn.locks,
      fun locked => absurd (filling.unlocked.symm.trans locked) Bool.false_ne_true⟩,
      filling.unlocked, ?_, fun next => ?_⟩
    · refine ⟨signed ++ [{ tx.makeSignedTransaction proto tx.nodeAccountIds.current with
        sigMap := some pairs }], by simp [list], ?_⟩
      rw [List.take_succ_eq_append_getElem more, List.map_append]
      subst idsIs
      exact bodies.concat named
    · rw [SdkList.index_advance, filling.turn more, inTurn.sameNodes, Nat.mod_eq_of_lt next]

/-- A list is filled to the last node, or a signer fails. -/
theorem Filling.pushAll (faithful : proto.Faithful) (moments : Nat → Nat) :
    Method.Triple (Filling proto ids nodes 0)
      (Method.forEach (fun i => Transaction.pushTransaction proto (moments i)) (List.range nodes.length))
      (fun _ => Filling proto ids nodes nodes.length) (fun _ => InTurn proto ids nodes) := by
  let remaining (rest : List Nat) (tx : Transaction) : Prop :=
    ∃ count, count + rest.length = nodes.length ∧ Filling proto ids nodes count tx
  have each (i : Nat) (rest : List Nat) : Method.Triple (remaining (i :: rest))
      (Transaction.pushTransaction proto (moments i)) (fun _ => remaining rest)
      (fun _ => InTurn proto ids nodes) := ?_
  · have loop := Method.Triple.forEach remaining each (List.range nodes.length)
    refine loop.weaken (fun tx filling => ⟨0, by simp, filling⟩) ?_ fun _ _ h => h
    rintro _ tx ⟨count, all, filling⟩
    have last : count = nodes.length := all
    exact last ▸ filling
  · rintro tx ⟨count, all, filling⟩
    rw [List.length_cons] at all
    refine (Filling.pushTransaction faithful (by omega) (moments i)).weaken (fun _ h => h) ?_
      (fun _ _ h => h) tx filling
    exact fun _ tx' filled => ⟨count + 1, by omega, filled⟩

/-- Building on demand, prepared, fills the list. -/
theorem InTurn.buildAllTransactionsAsync (faithful : proto.Faithful) (moments : Nat → Nat) :
    Method.Triple (fun tx => InTurn proto ids nodes tx ∧ Prepared tx)
      (Transaction.buildAllTransactionsAsync proto moments)
      (fun _ tx => InTurn proto ids nodes tx ∧ AllNamed proto ids nodes tx)
      (fun _ => InTurn proto ids nodes) := by
  rintro tx ⟨inTurn, prepared⟩
  rw [Transaction.buildAllTransactionsAsync, Method.run_this_bind,
    if_neg (by simp [inTurn.onDemand])]
  cases locked : tx.transactions.locked with
  | true =>
      have unchanged : (buildSignedTransactions proto).run tx = (.ok (), tx) := by
        rw [buildSignedTransactions, Method.run_this_bind, if_pos (inTurn.locks.trans locked)]
        rfl
      rw [Method.run_bind_ok unchanged, Method.run_this_bind, if_pos locked]
      exact ⟨inTurn, inTurn.complete locked⟩
  | false =>
      obtain ⟨empty, first⟩ := (prepared inTurn.onDemand).resolve_left (by simp [locked])
      have unlocked : tx.signedTransactions.locked = false := inTurn.locks.trans locked
      have built : (buildSignedTransactions proto).run tx = (.ok (), { tx with
          signedTransactions := { tx.signedTransactions with
            list := tx.nodeAccountIds.list.map fun nodeId => tx.makeSignedTransaction proto (some nodeId)
            index := 0 } }) := by
        rw [buildSignedTransactions, Method.run_this_bind, if_neg (by simp [unlocked]),
          SdkList.setList_of_unlocked unlocked]
        rfl
      rw [Method.run_bind_ok built, Method.run_this_bind, if_neg (by simp [locked])]
      have count : SdkList.length { tx.signedTransactions with
          list := tx.nodeAccountIds.list.map fun nodeId => tx.makeSignedTransaction proto (some nodeId)
          index := 0 } = nodes.length := by
        rw [SdkList.length, List.length_map, inTurn.sameNodes]
      rw [count]
      refine (Filling.pushAll faithful moments).weaken (fun _ h => h) ?_ (fun _ _ h => h) _ ?_
      · intro _ after filled
        refine ⟨filled.toInTurn, ?_⟩
        have all := filled.filled
        rwa [List.take_length] at all
      · exact ⟨⟨inTurn.onDemand, inTurn.sameIds, inTurn.sameNodes, inTurn.single, inTurn.locks,
          fun on => absurd (locked.symm.trans on) Bool.false_ne_true⟩, locked,
          ⟨[], by simp [empty], by simpa using bodiesOf_nil ids⟩, fun _ => first⟩

theorem InTurn.buildAndLock (faithful : proto.Faithful) (moments : Nat → Nat) :
    Method.Triple (fun tx => InTurn proto ids nodes tx ∧ Prepared tx)
      (Transaction.buildAndLock proto moments)
      (fun _ tx => InTurn proto ids nodes tx ∧ AllNamed proto ids nodes tx)
      (fun _ => InTurn proto ids nodes) := by
  refine .bind (.update _ ?_) fun _ => .bind (InTurn.buildAllTransactionsAsync faithful moments)
    fun _ => .update _ ?_
  · rintro tx ⟨h, prepared⟩
    exact ⟨⟨h.onDemand, h.sameIds, h.sameNodes, h.single, h.locks, h.complete⟩, prepared⟩
  · rintro tx ⟨h, named⟩
    exact ⟨⟨h.onDemand, h.sameIds, h.sameNodes, h.single, rfl, fun _ => named⟩, named⟩

/-- The calls that build when the transaction is signed on demand; the others throw. -/
def GetterCall.BuildsOnDemand : GetterCall → Prop
  | .getSignatures | .toBytes _ => False
  | _ => True

instance (call : GetterCall) : Decidable call.BuildsOnDemand :=
  match call with
  | .getSignatures | .toBytes _ => inferInstanceAs (Decidable False)
  | .getTransactionHash _ | .getTransactionHashPerNode _ | .getSignaturesAsync _ | .toBytesAsync _ =>
      inferInstanceAs (Decidable True)

/-- Calls that find the list prepared leave it complete once it is locked. -/
theorem InTurn.step (faithful : proto.Faithful) {sha384 : Bytes → Bytes} {tx : Transaction}
    (inTurn : InTurn proto ids nodes tx) (call : GetterCall)
    (guard : call.BuildsOnDemand → Prepared tx) :
    InTurn proto ids nodes (getterStep proto sha384 tx call) := by
  have refused : requireNotSignOnDemand.run tx =
      (.error (.error "Please use `toBytesAsync()` if `signOnDemand` is enabled"), tx) := by
    rw [requireNotSignOnDemand, Method.run_this_bind, if_pos inTurn.onDemand]
    rfl
  have locking (moments : Nat → Nat) (prepared : Prepared tx) :
      InTurn proto ids nodes ((Transaction.buildAndLock proto moments).run tx).2 :=
    ((InTurn.buildAndLock faithful moments).weaken (fun _ h => h) (fun _ _ h => h.1)
      fun _ _ h => h).snd ⟨inTurn, prepared⟩
  rw [getterStep_eq (by simp [isFrozenOrOnDemand, inTurn.onDemand])]
  cases call with
  | getTransactionHash moments => exact locking moments (guard trivial)
  | getTransactionHashPerNode moments =>
      have start : InTurn proto ids nodes (lockIds tx) := ⟨inTurn.onDemand, inTurn.sameIds,
        inTurn.sameNodes, inTurn.single, inTurn.locks, inTurn.complete⟩
      exact ((InTurn.buildAllTransactionsAsync faithful moments).weaken (fun _ h => h)
        (fun _ _ h => h.1) fun _ _ h => h).snd (s := lockIds tx) ⟨start, guard trivial⟩
  | getSignatures =>
      rw [GetterCall.building, Method.run_bind_error refused]
      exact inTurn
  | getSignaturesAsync moments => exact locking moments (guard trivial)
  | toBytes now =>
      rw [GetterCall.building, Method.run_bind_error refused]
      exact inTurn
  | toBytesAsync moments => exact locking moments (guard trivial)

theorem InTurn.run (faithful : proto.Faithful) {sha384 : Bytes → Bytes} {tx : Transaction}
    (start : InTurn proto ids nodes tx) {calls : List GetterCall}
    (guarded : Guarded (getterStep proto sha384) (fun tx call => call.BuildsOnDemand → Prepared tx) tx
      calls) : InTurn proto ids nodes (runAll (getterStep proto sha384) tx calls) :=
  runAll_invariant (I := InTurn proto ids nodes)
    (fun _ call inTurn guard => inTurn.step faithful call guard) start guarded

end InTurn

/-! ## Signing -/

/-- A key, its signer and the moment of its first signature. -/
abbrev Sign := PublicKey × Signer × Nat

/-- The transaction after `signWith`, also when a signer throws. -/
def signAlso (tx : Transaction) (sign : Sign) : Transaction :=
  ((signWith sign.1 sign.2.1 sign.2.2).run tx).2

/-- What signing leaves alone. -/
structure SameFrame (frozen tx : Transaction) : Prop where
  mode : tx.signOnDemand = frozen.signOnDemand
  ids : tx.transactionIds.list = frozen.transactionIds.list
  cursor : tx.transactionIds.index = frozen.transactionIds.index
  nodes : tx.nodeAccountIds.list = frozen.nodeAccountIds.list
  bodies : tx.signedTransactions.list.map SignedTransaction.bodyBytes =
    frozen.signedTransactions.list.map SignedTransaction.bodyBytes
  locks : tx.transactions.locked = frozen.transactions.locked ∧
    tx.signedTransactions.locked = frozen.signedTransactions.locked

theorem SameFrame.signAlso {frozen tx : Transaction} (same : SameFrame frozen tx) (sign : Sign) :
    SameFrame frozen (signAlso tx sign) := by
  obtain ⟨key, signer, moment⟩ := sign
  rw [Transaction.signAlso]
  by_cases ready : tx.isFrozenOrOnDemand = true
  · by_cases known : key.hex ∈ tx.signerPublicKeys
    · rw [run_signWith_known ready known]
      exact same
    · cases onDemand : tx.signOnDemand with
      | true =>
          rw [run_signWith_onDemand onDemand known]
          exact ⟨same.mode, same.ids, same.cursor, same.nodes, same.bodies, same.locks⟩
      | false =>
          rw [run_signWith_immediate ready onDemand known, replaceSigned, Method.run_update_bind]
          exact Method.Keeps.ofExcept (I := SameFrame frozen) _ _
            ⟨same.mode, same.ids, same.cursor, same.nodes, (bodies_signEach ..).trans same.bodies,
              same.locks⟩
  · simpa [signWith, requireFrozen, ready, Method.run_bind] using same

theorem SameFrame.signs (frozen : Transaction) (signs : List Sign) :
    SameFrame frozen (runAll Transaction.signAlso frozen signs) :=
  runAll_invariant_all (fun _ sign same => same.signAlso sign) signs ⟨rfl, rfl, rfl, rfl, rfl, rfl, rfl⟩

/-! ## Every pair is listed -/

/-- No more entries than signed transactions at once; no nodes or a single id on demand. -/
def Clean (tx : Transaction) : Prop :=
  if tx.signOnDemand then tx.nodeAccountIds.list = [] ∨ tx.transactionIds.list.length = 1
  else tx.transactions.list.length ≤ tx.signedTransactions.list.length

/-- The bytes are those of a list with one entry for each transaction id and node. -/
def WritesList (proto : Proto) (tx : Transaction) (bytes : Bytes) : Prop :=
  ∃ entries, bytes = proto.encodeList entries ∧ Lists proto tx entries

theorem readEntries_eq_ok {tx tx' : Transaction} {bytes : Bytes} {signed : List SignedTransaction}
    (list : tx.transactions.list = signed.map fun one => some (proto.wrap one))
    (read : (Method.this >>= fun tx => Method.ofExcept (encodeTransactions proto tx.transactions.list) :
      TransactionMethod Bytes).run tx = (.ok bytes, tx')) :
    bytes = proto.encodeList (signed.map proto.wrap) := by
  have entries : tx.transactions.list = (signed.map proto.wrap).map some := by
    rw [list, List.map_map]
    rfl
  rw [Method.run_this_bind, entries, encodeTransactions_some] at read
  cases read
  rfl

section Writing

variable {ids : List TransactionId} {nodes : List AccountId} {bodies : List Bytes} {tx tx' : Transaction}
  {bytes : Bytes}

theorem AtOnce.writesList (atOnce : AtOnce ids nodes bodies tx) (grid : BodiesOf proto ids nodes bodies) :
    WritesList proto tx (proto.encodeList (tx.signedTransactions.list.map proto.wrap)) :=
  ⟨_, rfl, _, rfl, by rw [atOnce.sameIds, atOnce.sameNodes, atOnce.sameBodies]; exact grid⟩

theorem AtOnce.toBytes_eq_ok (atOnce : AtOnce ids nodes bodies tx) {now : Timestamp}
    (written : (toBytes proto now).run tx = (.ok bytes, tx')) :
    bytes = proto.encodeList (tx.signedTransactions.list.map proto.wrap) := by
  have allowed : requireNotSignOnDemand.run tx = (.ok (), tx) := by
    rw [requireNotSignOnDemand, Method.run_this_bind, if_neg (by simp [atOnce.immediate])]
    rfl
  rw [toBytes, Method.run_bind_ok allowed] at written
  obtain ⟨_, after, building, read⟩ := Method.run_bind_eq_ok.mp written
  rw [buildForBytes, Method.run_this_bind, if_pos atOnce.frozen, Method.run_update_bind] at building
  exact readEntries_eq_ok ((AtOnce.keeps_lockIds tx atOnce).buildAllTransactions_eq_ok building) read

theorem AtOnce.toBytesAsync_eq_ok (atOnce : AtOnce ids nodes bodies tx) {moments : Nat → Nat}
    (written : (toBytesAsync proto moments).run tx = (.ok bytes, tx')) :
    bytes = proto.encodeList (tx.signedTransactions.list.map proto.wrap) := by
  obtain ⟨_, after, building, read⟩ := Method.run_bind_eq_ok.mp written
  rw [Transaction.buildAndLock, Method.run_update_bind] at building
  obtain ⟨_, built, all, locking⟩ := Method.run_bind_eq_ok.mp building
  cases locking
  rw [Transaction.buildAllTransactionsAsync, Method.run_this_bind,
    if_pos (by simp [lockIds, atOnce.immediate])] at all
  have list := (AtOnce.keeps_lockIds tx atOnce).buildAllTransactions_eq_ok all
  exact @readEntries_eq_ok proto (lockLists built) _ _ _ list read

theorem InTurn.toBytesAsync_eq_ok (faithful : proto.Faithful) (inTurn : InTurn proto ids nodes tx)
    (prepared : Prepared tx) {moments : Nat → Nat}
    (written : (toBytesAsync proto moments).run tx = (.ok bytes, tx')) : WritesList proto tx bytes := by
  obtain ⟨_, after, building, read⟩ := Method.run_bind_eq_ok.mp written
  obtain ⟨_, signed, list, grid⟩ :=
    (InTurn.buildAndLock faithful moments).of_ok ⟨inTurn, prepared⟩ building
  refine ⟨_, readEntries_eq_ok list read, signed, rfl, ?_⟩
  rwa [inTurn.sameIds, inTurn.sameNodes]

end Writing

section Run

variable {client : Option Client} {picked : Except JsError (List AccountId)} {generated : Timestamp}
  {tx frozen : Transaction}

/-- After any calls that find the list prepared, a frozen transaction is written with one entry
for each transaction id and node. -/
theorem lists_every_pair (faithful : proto.Faithful) (unbuilt : Unbuilt tx)
    (ran : (freezeWith proto client picked generated).run tx = (.ok (), frozen))
    (ready : frozen.isFrozenOrOnDemand = true) (signs : List Sign)
    (clean : Clean (runAll signAlso frozen signs)) {sha384 : Bytes → Bytes} {calls : List GetterCall}
    (guarded : Guarded (getterStep proto sha384) (fun tx call => call.BuildsOnDemand → Prepared tx)
      (runAll signAlso frozen signs) calls) {bytes : Bytes} {written : Transaction} :
    let after := runAll (getterStep proto sha384) (runAll signAlso frozen signs) calls
    (∀ now, (toBytes proto now).run after = (.ok bytes, written) → WritesList proto after bytes) ∧
      ∀ moments, Prepared after → (toBytesAsync proto moments).run after = (.ok bytes, written) →
        WritesList proto after bytes := by
  intro after
  have same := SameFrame.signs frozen signs
  obtain ⟨unlocked, signedUnlocked, first⟩ := locks_of_freezeWith unbuilt ran
  cases onDemand : frozen.signOnDemand with
  | false =>
      rw [Clean, if_neg (by simp [same.mode, onDemand])] at clean
      have grid := bodiesOf_freezeWith faithful unbuilt ran onDemand
      have start : AtOnce frozen.transactionIds.list frozen.nodeAccountIds.list
          (frozen.signedTransactions.list.map SignedTransaction.bodyBytes)
          (runAll signAlso frozen signs) := by
        refine ⟨same.mode.trans onDemand, same.ids, same.nodes, same.bodies, ?_, ?_⟩
        · rwa [← same.bodies, List.length_map]
        · simpa [isFrozenOrOnDemand, onDemand, isFrozen, SdkList.length, List.length_pos_iff] using ready
      have atOnce := @AtOnce.run proto _ _ _ sha384 _ start calls
      refine ⟨fun now write => ?_, fun moments _ write => ?_⟩
      · rw [atOnce.toBytes_eq_ok write]
        exact atOnce.writesList grid
      · rw [atOnce.toBytesAsync_eq_ok write]
        exact atOnce.writesList grid
  | true =>
      rw [Clean, if_pos (by simp [same.mode, onDemand]), same.ids, same.nodes] at clean
      have start : InTurn proto frozen.transactionIds.list frozen.nodeAccountIds.list
          (runAll signAlso frozen signs) := by
        refine ⟨same.mode.trans onDemand, same.ids, same.nodes,
          clean.imp_right fun one => ⟨one, same.cursor.trans (first one)⟩, ?_, fun locked => ?_⟩
        · rw [same.locks.1, same.locks.2, unlocked, signedUnlocked]
        · rw [same.locks.1, unlocked] at locked
          exact absurd locked Bool.false_ne_true
      have inTurn := start.run faithful guarded
      refine ⟨fun now write => ?_, fun moments prepared write =>
        inTurn.toBytesAsync_eq_ok faithful prepared write⟩
      rw [toBytes, requireNotSignOnDemand, Method.run_bind, Method.run_this_bind,
        if_pos inTurn.onDemand] at write
      cases write

end Run

section Samples

def laterClient : Client := { sampleClient [3] with signOnDemand := true }

/-- A transfer to one node, frozen to be signed on demand. -/
def preparedTransfer : Transaction :=
  ((freezeWith prefixProto (some laterClient) (.ok []) ⟨0, 0⟩).run (sampleTransfer [3])).2

theorem freezeWith_onDemand : (freezeWith prefixProto (some laterClient) (.ok []) ⟨0, 0⟩).run
    (sampleTransfer [3]) = (.ok (), preparedTransfer) :=
  Method.run_of_ok (by decide +kernel)

theorem unbuilt_sampleTransfer (nodes : List Int) : Unbuilt (sampleTransfer nodes) where
  ids _ := Nat.le_refl 1
  first := rfl
  named empty := by cases empty
  signed := rfl
  transactions := rfl

/-- The transaction after some calls. -/
def shownTransfer (calls : List GetterCall) : Transaction :=
  runAll (getterStep prefixProto id) preparedTransfer calls

theorem hash_leaves_one_entry :
    ∃ bytes written, (toBytesAsync prefixProto id).run (shownTransfer [.getTransactionHash id]) =
        (.ok bytes, written) ∧
      WritesList prefixProto (shownTransfer [.getTransactionHash id]) bytes := by
  obtain ⟨bytes, written, _⟩ := exists_ok
    ((toBytesAsync prefixProto id).run (shownTransfer [.getTransactionHash id])).1 (fun _ => true)
    (by decide +kernel)
  refine ⟨bytes, _, Method.run_of_ok written, ?_⟩
  exact (lists_every_pair prefixProto_faithful (unbuilt_sampleTransfer [3]) freezeWith_onDemand
    (by decide +kernel) [] (by unfold Clean; decide +kernel)
    (show Guarded (getterStep prefixProto id) _ _ [.getTransactionHash id] by decide +kernel)).2 id
    (by decide +kernel) (Method.run_of_ok written)

/-- The hashes for each node leave an entry in the list, to which the same is appended again. -/
theorem hashes_leave_an_entry :
    (freezeWith prefixProto (some laterClient) (.ok []) ⟨0, 0⟩).run (sampleTransfer [3]) =
        (.ok (), preparedTransfer) ∧
      ∃ bytes written, (toBytesAsync prefixProto id).run
          (shownTransfer [.getTransactionHashPerNode id]) = (.ok bytes, written) ∧
        ¬ WritesList prefixProto (shownTransfer [.getTransactionHashPerNode id]) bytes := by
  refine ⟨freezeWith_onDemand, ?_⟩
  obtain ⟨bytes, written, two⟩ := exists_ok
    ((toBytesAsync prefixProto id).run (shownTransfer [.getTransactionHashPerNode id])).1
    (fun bytes => decide ((prefixProto.decodeList bytes).toOption.map List.length = some 2))
    (by decide +kernel)
  refine ⟨bytes, _, Method.run_of_ok written, ?_⟩
  rintro ⟨entries, rfl, signed, rfl, grid⟩
  have size := grid.size
  have pairs : (shownTransfer [.getTransactionHashPerNode id]).transactionIds.list.length *
      (shownTransfer [.getTransactionHashPerNode id]).nodeAccountIds.list.length = 1 := by
    decide +kernel
  rw [List.length_map, pairs] at size
  have read := of_decide_eq_true two
  rw [prefixProto_faithful.list, Except.toOption, Option.map_some, List.length_map, size] at read
  cases read

end Samples

end HederaSdk.Transaction
