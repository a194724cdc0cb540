import HederaSdk.Transaction.Listing
import HederaSdk.Transaction.SplitCopies

/-!
# Copies of frozen transactions with contents

The bytes of a frozen transaction hold a row of bodies for each chunk. The copy of a
file append joins the chunks of all rows; the copy of a topic message has the message
of the first body only.
-/

namespace HederaSdk.Transaction

open Library
open Js (Value Properties)

variable {proto : Proto}

/-! ## Calls on a frozen transaction -/

/-- The methods that sign a frozen transaction or show it. -/
inductive FrozenCall where
  | signWith (key : PublicKey) (signer : Signer) (moment : Nat)
  | addSignature (key : PublicKey) (signatures : SignatureMap) (generated : Timestamp)
  | removeSignature (key : PublicKey) (generated : Timestamp)
  | removeAllSignatures (generated : Timestamp)
  | get (call : GetterCall)

/-- What a call does to the transaction. -/
def FrozenCall.method (proto : Proto) (sha384 : Bytes → Bytes) : FrozenCall → TransactionMethod Unit
  | .signWith key signer moment => Transaction.signWith key signer moment
  | .addSignature key signatures generated => Transaction.addSignature proto key signatures generated
  | .removeSignature key generated => do let _ ← Transaction.removeSignature proto key generated
  | .removeAllSignatures generated => do let _ ← Transaction.removeAllSignatures proto generated
  | .get call => call.method proto sha384

/-- The transaction after a call, also when the call throws. -/
def frozenStep (proto : Proto) (sha384 : Bytes → Bytes) (tx : Transaction) (call : FrozenCall) :
    Transaction := ((call.method proto sha384).run tx).2

/-- Every signature is for a key that can be read. -/
def Keyed (signed : SignedTransaction) : Prop :=
  ∀ pair ∈ signed.sigPair, ∃ key : PublicKey, pair.pubKeyPrefix = key.toBytesRaw

theorem Keyed.addPair {signed : SignedTransaction} (keyed : Keyed signed) (key : PublicKey)
    (signature : Bytes) : Keyed (signed.addPair (key.toProtobufSignature signature)) := by
  intro pair member
  rw [SignedTransaction.sigPair_addPair, List.mem_append, List.mem_singleton] at member
  rcases member with before | rfl
  · exact keyed pair before
  · exact ⟨key, rfl⟩

theorem keyed_signEach (key : PublicKey) (signer : Signer) (moment : Nat)
    {list : List SignedTransaction} (keyed : ∀ signed ∈ list, Keyed signed) :
    ∀ signed ∈ (signEach key signer moment list).2, Keyed signed := by
  induction list generalizing moment with
  | nil => exact keyed
  | cons one rest inductionHypothesis =>
      rw [List.forall_mem_cons] at keyed
      unfold signEach
      split
      · exact List.forall_mem_cons.mpr keyed
      · exact List.forall_mem_cons.mpr ⟨keyed.1.addPair key _, inductionHypothesis _ keyed.2⟩

theorem keyed_addEach (key : PublicKey) (signatures : SignatureMap)
    {list : List SignedTransaction} (keyed : ∀ signed ∈ list, Keyed signed) :
    ∀ signed ∈ (addEach proto key signatures list).2, Keyed signed := by
  induction list with
  | nil => exact keyed
  | cons one rest inductionHypothesis =>
      rw [List.forall_mem_cons] at keyed
      unfold addEach
      split
      · exact List.forall_mem_cons.mpr keyed
      · exact List.forall_mem_cons.mpr ⟨keyed.1.addPair key _, inductionHypothesis keyed.2⟩

section Standing

variable {ids : List TransactionId} {nodes : List AccountId} {bodies : List Bytes}

/-- A frozen transaction that is signed at once, with the bodies that it was frozen with. -/
structure Standing (ids : List TransactionId) (nodes : List AccountId) (bodies : List Bytes)
    (tx : Transaction) : Prop where
  atOnce : AtOnce ids nodes bodies tx
  keyed : ∀ signed ∈ tx.signedTransactions.list, Keyed signed

theorem AtOnce.isFrozen {tx : Transaction} (atOnce : AtOnce ids nodes bodies tx) : tx.isFrozen = true := by
  have frozen := atOnce.frozen
  rwa [isFrozenOrOnDemand, atOnce.immediate, Bool.false_or] at frozen

/-- Only the lists matter, and the list of transactions may be emptied. -/
theorem Standing.congr {tx tx' : Transaction} (standing : Standing ids nodes bodies tx)
    (mode : tx'.signOnDemand = tx.signOnDemand) (sameIds : tx'.transactionIds.list = tx.transactionIds.list)
    (sameNodes : tx'.nodeAccountIds.list = tx.nodeAccountIds.list)
    (signed : tx'.signedTransactions.list = tx.signedTransactions.list)
    (fits : tx'.transactions.list.length ≤ tx.transactions.list.length) :
    Standing ids nodes bodies tx' where
  atOnce := ⟨mode.trans standing.atOnce.immediate, sameIds.trans standing.atOnce.sameIds,
    sameNodes.trans standing.atOnce.sameNodes, signed ▸ standing.atOnce.sameBodies,
    fits.trans standing.atOnce.fits, standing.atOnce.nonempty⟩
  keyed := signed ▸ standing.keyed

/-- Signatures may change. -/
theorem Standing.withSigned {tx : Transaction} (standing : Standing ids nodes bodies tx)
    {list : List SignedTransaction} (same : list.map SignedTransaction.bodyBytes =
      tx.signedTransactions.list.map SignedTransaction.bodyBytes)
    (keyed : ∀ signed ∈ list, Keyed signed) : Standing ids nodes bodies (tx.withSigned list) where
  atOnce := ⟨standing.atOnce.immediate, standing.atOnce.sameIds, standing.atOnce.sameNodes,
    same.trans standing.atOnce.sameBodies, standing.atOnce.fits, standing.atOnce.nonempty⟩
  keyed := keyed

theorem Standing.mapSigned {tx : Transaction} (standing : Standing ids nodes bodies tx)
    {f : SignedTransaction → SignedTransaction} (same : ∀ one, (f one).bodyBytes = one.bodyBytes)
    (keyed : ∀ one, Keyed one → Keyed (f one)) : Standing ids nodes bodies (tx.mapSigned f) := by
  refine standing.withSigned ?_ ?_
  · rw [List.map_map]
    exact List.map_congr_left fun one _ => same one
  · intro signed member
    obtain ⟨one, inList, rfl⟩ := List.mem_map.mp member
    exact keyed one (standing.keyed one inList)

theorem Standing.keeps_signWith (key : PublicKey) (signer : Signer) (moment : Nat) :
    Method.Keeps (Standing ids nodes bodies) (Transaction.signWith key signer moment) := by
  intro tx standing
  by_cases known : key.hex ∈ tx.signerPublicKeys
  · rw [run_signWith_known standing.atOnce.frozen known]
    exact standing
  · rw [run_signWith_immediate standing.atOnce.frozen standing.atOnce.immediate known, replaceSigned,
      Method.run_update_bind]
    have noted : Standing ids nodes bodies (lockIds (noteSigner key tx)) :=
      standing.congr rfl rfl rfl rfl (Nat.zero_le _)
    apply Method.Keeps.ofExcept
    exact noted.withSigned (bodies_signEach ..) (keyed_signEach _ _ _ standing.keyed)

theorem Standing.keeps_addSignature (key : PublicKey) (signatures : SignatureMap) (generated : Timestamp) :
    Method.Keeps (Standing ids nodes bodies) (Transaction.addSignature proto key signatures generated) := by
  intro tx standing
  have freezes := @run_freezeIfNeeded proto tx standing.atOnce.isFrozen generated
  by_cases known : key.hex ∈ tx.signerPublicKeys
  · rw [run_addSignature_known freezes known]
    exact standing
  · have locked : Standing ids nodes bodies (lockForSignature tx) :=
      standing.congr rfl rfl rfl rfl (Nat.zero_le _)
    have added := locked.withSigned (@bodies_addEach proto key signatures _)
      (keyed_addEach key signatures standing.keyed)
    rw [run_addSignature_unknown freezes known]
    simp only
    split
    · exact added.congr rfl rfl rfl rfl le_rfl
    · exact added

theorem Standing.keeps_freezeIfNeeded (generated : Timestamp) :
    Method.Keeps (Standing ids nodes bodies) (freezeIfNeeded proto generated) := by
  intro tx standing
  rw [run_freezeIfNeeded proto standing.atOnce.isFrozen]
  exact standing

theorem Standing.keeps_removeSignature (key : PublicKey) (generated : Timestamp) :
    Method.Keeps (Standing ids nodes bodies) (Transaction.removeSignature proto key generated) := by
  refine .bind (keeps_freezeIfNeeded generated) fun _ => .bind .this fun tx => .ite ?_ (.throwing _)
  refine .bind (.update fun tx standing => ?_) fun _ => .pure _
  have removed := standing.mapSigned (f := removeSignaturesFromTransaction key.hex) (fun _ => rfl) ?_
  · exact removed.congr rfl rfl rfl rfl le_rfl
  · intro one keyed pair member
    rw [SignedTransaction.sigPair, removeSignaturesFromTransaction] at member
    cases pairs : one.sigMap with
    | none => simp [pairs] at member
    | some list =>
        rw [pairs] at member
        refine keyed pair ?_
        rw [SignedTransaction.sigPair, pairs]
        exact List.mem_of_mem_filter member

theorem Standing.keeps_removeAllSignatures (generated : Timestamp) :
    Method.Keeps (Standing ids nodes bodies) (Transaction.removeAllSignatures proto generated) := by
  refine .bind (keeps_freezeIfNeeded generated) fun _ => .bind .this fun tx => .bind (.ofExcept _)
    fun _ => .bind (.update fun tx standing => ?_) fun _ => .pure _
  have removed := standing.mapSigned
    (f := fun signed => { signed with sigMap := signed.sigMap.map fun _ => [] }) (fun _ => rfl) ?_
  · exact removed.congr rfl rfl rfl rfl le_rfl
  · intro one keyed pair member
    rw [SignedTransaction.sigPair] at member
    cases pairs : one.sigMap <;> simp [pairs] at member

/-- The signed transactions of a transaction that is signed at once. -/
def HasSigned (list : List SignedTransaction) (tx : Transaction) : Prop :=
  tx.signOnDemand = false ∧ tx.signedTransactions.list = list

section HasSigned

variable {list : List SignedTransaction}

theorem hasSigned_encodeAt (index : Nat) : Method.Keeps (HasSigned list) (encodeAt proto index) := by
  refine .bind .this fun tx => ?_
  split
  · exact .throwing _
  · exact .update fun _ has => has

theorem hasSigned_buildAllTransactions : Method.Keeps (HasSigned list) (buildAllTransactions proto) := by
  have pads (index : Nat) : Method.Keeps (HasSigned list) (pushAbsent index) :=
    .bind .this fun _ => .bind (.ofExcept _) fun _ => .update fun _ has => has
  refine .bind .this fun tx => .bind (.ofExcept _) fun _ => .forEach (fun index => ?_) _
  refine .bind .this fun tx => .bind (.forEach pads _) fun _ => .bind ?_ fun _ => ?_
  · exact .bind .this fun _ => .ite (hasSigned_encodeAt index) (.pure _)
  · exact .bind .this fun _ => .ite (hasSigned_encodeAt index) (.pure _)

theorem hasSigned_buildAllTransactionsAsync (moments : Nat → Nat) :
    Method.Keeps (HasSigned list) (buildAllTransactionsAsync proto moments) := by
  intro tx has
  rw [buildAllTransactionsAsync, Method.run_this_bind, if_pos (by simp [has.1])]
  exact hasSigned_buildAllTransactions tx has

theorem hasSigned_lockIds : Method.Keeps (HasSigned list) (Method.update lockIds : TransactionMethod Unit) :=
  .update fun _ has => has

theorem hasSigned_buildAndLock (moments : Nat → Nat) :
    Method.Keeps (HasSigned list) (buildAndLock proto moments) :=
  .bind hasSigned_lockIds fun _ => .bind (hasSigned_buildAllTransactionsAsync moments) fun _ =>
    .update fun _ has => has

/-- Showing a frozen transaction leaves its signatures. -/
theorem hasSigned_getterStep {sha384 : Bytes → Bytes} {tx : Transaction} (atOnce : AtOnce ids nodes bodies tx)
    (call : GetterCall) : (getterStep proto sha384 tx call).signedTransactions.list =
      tx.signedTransactions.list := by
  have has : HasSigned tx.signedTransactions.list tx := ⟨atOnce.immediate, rfl⟩
  have allowed : Method.Keeps (HasSigned tx.signedTransactions.list) requireNotSignOnDemand :=
    .bind .this fun _ => .ite (.throwing _) (.pure _)
  rw [getterStep_eq atOnce.frozen]
  cases call with
  | getTransactionHash moments => exact (hasSigned_buildAndLock moments tx has).2
  | getTransactionHashPerNode moments =>
      exact (Method.Keeps.bind hasSigned_lockIds
        (fun _ => hasSigned_buildAllTransactionsAsync moments) tx has).2
  | getSignatures =>
      exact (Method.Keeps.bind allowed
        (fun _ => .bind hasSigned_buildAllTransactions fun _ => hasSigned_lockIds) tx has).2
  | getSignaturesAsync moments => exact (hasSigned_buildAndLock moments tx has).2
  | toBytes now =>
      refine (Method.Keeps.bind allowed (fun _ => ?_) tx has).2
      intro tx' has'
      have frozen : tx'.isFrozenOrOnDemand = true := by
        have ready := atOnce.frozen
        rwa [isFrozenOrOnDemand, isFrozen, SdkList.length, atOnce.immediate, ← has'.2, ← has'.1] at ready
      rw [buildForBytes, Method.run_this_bind, if_pos frozen]
      exact Method.Keeps.bind hasSigned_lockIds (fun _ => hasSigned_buildAllTransactions) tx' has'
  | toBytesAsync moments => exact (hasSigned_buildAndLock moments tx has).2

end HasSigned

/-- Whatever is called on a frozen transaction, its bodies stay and its keys can be read. -/
theorem Standing.step {sha384 : Bytes → Bytes} {tx : Transaction} (standing : Standing ids nodes bodies tx)
    (call : FrozenCall) : Standing ids nodes bodies (frozenStep proto sha384 tx call) := by
  cases call with
  | signWith key signer moment => exact keeps_signWith key signer moment tx standing
  | addSignature key signatures generated => exact keeps_addSignature key signatures generated tx standing
  | removeSignature key generated =>
      exact Method.Keeps.bind (keeps_removeSignature key generated) (fun _ => .pure _) tx standing
  | removeAllSignatures generated =>
      exact Method.Keeps.bind (keeps_removeAllSignatures generated) (fun _ => .pure _) tx standing
  | get call =>
      refine ⟨standing.atOnce.step call, ?_⟩
      have same := @hasSigned_getterStep proto _ _ _ sha384 _ standing.atOnce call
      exact same ▸ standing.keyed

theorem Standing.run {sha384 : Bytes → Bytes} {tx : Transaction} (start : Standing ids nodes bodies tx)
    (calls : List FrozenCall) :
    Standing ids nodes bodies (runAll (frozenStep proto sha384) tx calls) :=
  runAll_invariant_all (I := Standing ids nodes bodies) (fun _ call standing => standing.step call) calls
    start

end Standing

/-! ## The bodies of the chunks -/

/-- The bodies of a plan for the ids: a row for each chunk. -/
def ChunkPlan.bodies (plan : ChunkPlan proto) (tx : Transaction) (ids : List TransactionId) : BodyGrid where
  ids
  nodes := tx.nodeAccountIds.list
  body row id nodeId :=
    { transactionID := id
      nodeAccountID := nodeId
      transactionFee := tx.maxTransactionFee
      transactionValidDuration := tx.transactionValidDuration
      memo := tx.transactionMemo
      dataCase := plan.dataCase
      data := plan.chunkAt row }

theorem ChunkPlan.sound_bodies {plan : ChunkPlan proto} {tx : Transaction} (ids : List TransactionId)
    (plain : ∀ row, (plan.chunkAt row).Plain)
    (nodes : (tx.nodeAccountIds.list.map AccountId.toString).Nodup) : (plan.bodies tx ids).Sound where
  id _ _ _ := rfl
  node _ _ _ := rfl
  same _ _ _ _ := rfl
  plain row _ _ := plain row
  nodes := nodes

/-- The rows are the bodies of the grid. -/
theorem ChunkPlan.cells_bodies (plan : ChunkPlan proto) {tx : Transaction} {ids : List TransactionId}
    (rows : ids ≠ []) (columns : tx.nodeAccountIds.list ≠ []) :
    (plan.bodies tx ids).cells.map proto.encodeBody =
      (plan.rows tx 0 ids).map SignedTransaction.bodyBytes := by
  have general (first : Nat) (more : List TransactionId) :
      (grid (fun row nodeId => (plan.bodies tx ids).body row.2 row.1 nodeId) ((more.map some).zipIdx first)
        (tx.nodeAccountIds.list.map some)).map proto.encodeBody =
      (plan.rows tx first more).map SignedTransaction.bodyBytes := by
    induction more generalizing first with
    | nil => rfl
    | cons id rest inductionHypothesis =>
        rw [List.map_cons, List.zipIdx_cons, Grid.grid_cons, List.map_append, inductionHypothesis,
          ChunkPlan.rows, List.map_append, ChunkPlan.row, List.map_map, List.map_map, List.map_map]
        rfl
  have some {α : Type} {l : List α} (nonempty : l ≠ []) : orNone l = l.map some := by
    rw [orNone, if_neg (by simpa using nonempty)]
  have cells := general 0 ids
  rw [← some rows, ← some columns] at cells
  exact cells

/-- The signers of readable pairs are noted, which leaves the data. -/
theorem noteSigners_of_keyed {pairs : List SignaturePair}
    (keyed : ∀ pair ∈ pairs, ∃ key : PublicKey, pair.pubKeyPrefix = key.toBytesRaw) (tx : Transaction) :
    ∃ noted, noteSigners proto pairs tx = .ok noted ∧ noted.data = tx.data := by
  induction pairs generalizing tx with
  | nil => exact ⟨tx, rfl, rfl⟩
  | cons pair rest inductionHypothesis =>
      rw [List.forall_mem_cons] at keyed
      obtain ⟨key, raw⟩ := keyed.1
      obtain ⟨noted, noting, same⟩ := inductionHypothesis keyed.2 (recordSigner key none
        { tx with signerPublicKeys := insert (hexEncode pair.pubKeyPrefix) tx.signerPublicKeys })
      refine ⟨noted, ?_, same⟩
      simp only [noteSigners, raw, PublicKey.fromBytes_toBytesRaw] at noting ⊢
      exact noting

/-! ## Reading the copy -/

section Reading

variable {bodies : BodyGrid} {signed : List SignedTransaction}

/-- A class reads the signed transactions of the bodies, and keeps its data. -/
theorem fromProtobufTransactions_keyed (sound : bodies.Sound)
    (made : signed.map SignedTransaction.bodyBytes = bodies.cells.map proto.encodeBody)
    (keyed : ∀ one ∈ signed, Keyed one) (tx : Transaction) :
    ∃ copy, fromProtobufTransactions proto tx (signed.map proto.wrap)
      (bodies.parsed proto.keys signed) = .ok copy ∧ copy.data = tx.data := by
  have reads : ∀ i < bodies.readNodes.length, pairsAt (signed.map proto.wrap) signed i =
      .ok (((signed[i]?).map SignedTransaction.sigPair).getD []) := by
    intro i inside
    have columns : bodies.readNodes.length ≤ (orNone bodies.nodes).length := by
      refine (List.length_filter_le _ _).trans ?_
      rw [List.length_map]
      cases nodes : bodies.nodes <;> simp [orNone]
    have rows := List.length_pos_iff.mpr (orNone_ne_nil bodies.ids)
    have wide := Nat.le_mul_of_pos_left (orNone bodies.nodes).length rows
    have count := congrArg List.length made
    rw [List.length_map, List.length_map, bodies.length_cells] at count
    rw [pairsAt, List.getElem?_eq_getElem (show i < signed.length by omega)]
    rfl
  rw [BodyGrid.fromProtobufTransactions_cells sound reads]
  refine noteSigners_of_keyed ?_ _
  intro pair member
  obtain ⟨pairs, inRows, inPairs⟩ := List.mem_flatten.mp member
  obtain ⟨i, _, rfl⟩ := List.mem_map.mp inRows
  cases found : signed[i]? with
  | none => simp [found] at inPairs
  | some one =>
      rw [found] at inPairs
      exact keyed one (List.mem_of_getElem? found) pair inPairs

end Reading

section Chunks

variable {plan : ChunkPlan proto} {tx : Transaction} {ids : List TransactionId} {contents : Bytes}
  {chunkSize : ℕ+} {signed : List SignedTransaction}

/-- The body for the first node in the row of a chunk. -/
theorem ChunkPlan.bodies_head (columns : tx.nodeAccountIds.list ≠ []) {row : Nat} (inside : row < ids.length)
    (signed : List SignedTransaction) :
    ∃ body, ((plan.bodies tx ids).parsed proto.keys signed).bodies[row * tx.nodeAccountIds.list.length]? =
        some body ∧
      body.get plan.dataCase.name = plan.chunkAt row := by
  obtain ⟨nodeId, rest, nodes⟩ := List.exists_cons_of_ne_nil columns
  have cell := @BodyGrid.cell_at (plan.bodies tx ids) row 0 _ nodeId (List.getElem?_eq_getElem inside)
    (by simp [bodies, nodes])
  rw [Nat.add_zero] at cell
  refine ⟨((plan.bodies tx ids).body row (some ids[row]) (some nodeId)).toObject proto.keys, ?_, ?_⟩
  · rw [BodyGrid.parsed, List.getElem?_map]
    exact congrArg (Option.map (TransactionBody.toObject proto.keys)) cell
  · exact TransactionBody.get_data proto.keys ((plan.bodies tx ids).body row (some ids[row]) (some nodeId))

/-- The contents of a file are joined from the first bodies of all rows. -/
theorem ChunkPlan.readFileAppend_bodies {fileId : Option Value} (file : plan.dataCase = .fileAppend)
    (shows : ∀ row, plan.chunkAt row = .object (.consSome "fileID" fileId
      (.cons "contents" (.bytes (chunkOf contents chunkSize row)) .nil)))
    (count : ids.length = requiredChunks contents.length chunkSize) (rows : ids ≠ [])
    (columns : tx.nodeAccountIds.list ≠ []) (signed : List SignedTransaction) :
    ∃ copied, readFileAppend ((plan.bodies tx ids).parsed proto.keys signed) = .ok copied ∧
      copied.contents = some contents := by
  have wide := List.length_pos_iff.mpr columns
  have heads : ∀ row < ids.length, ∃ body,
      ((plan.bodies tx ids).parsed proto.keys signed).bodies[row * tx.nodeAccountIds.list.length]? =
        some body ∧ (body.get "fileAppend").isNullish = false ∧
      ((body.get "fileAppend").get "contents").toBytes?.getD [] = chunkOf contents chunkSize row := by
    intro row inside
    obtain ⟨body, found, data⟩ := @ChunkPlan.bodies_head proto plan tx ids columns row inside signed
    rw [file, shows] at data
    refine ⟨body, found, ?_, ?_⟩
    · rw [show "fileAppend" = DataCase.fileAppend.name from rfl, data]
      rfl
    · rw [show "fileAppend" = DataCase.fileAppend.name from rfl, data]
      cases fileId <;> simp [Properties.consSome]
  have length : ((plan.bodies tx ids).parsed proto.keys signed).bodies.length =
      ids.length * tx.nodeAccountIds.list.length := by
    have some {α : Type} {l : List α} (nonempty : l ≠ []) : (orNone l).length = l.length := by
      rw [orNone, if_neg (by simpa using nonempty), List.length_map]
    rw [BodyGrid.parsed, List.length_map, BodyGrid.length_cells]
    exact congrArg₂ (· * ·) (some rows) (some columns)
  have joined := joinContents_rows length heads (Nat.zero_add ids.length)
    (Nat.le_mul_of_pos_right ids.length wide)
  rw [Nat.zero_mul, ← List.range_eq_range', flatten_chunks, count,
    List.take_of_length_le (requiredChunks_mul _ _), ← count, ← length] at joined
  have step : (if 0 < ((plan.bodies tx ids).parsed proto.keys signed).nodeIds.length then
      ((plan.bodies tx ids).parsed proto.keys signed).nodeIds.length else 1) =
        tx.nodeAccountIds.list.length := by
    have nodes : ((plan.bodies tx ids).parsed proto.keys signed).nodeIds.length =
        tx.nodeAccountIds.list.length := by simp [BodyGrid.parsed, bodies]
    rw [nodes, if_pos wide]
  rw [readFileAppend]
  simp only [step, joined, bind, Except.bind, Except.ok.injEq, exists_eq_left']

/-- The message of a topic is that of the first body. -/
theorem ChunkPlan.readTopicMessage_bodies {topicId : Option Value} {info : Nat → Value}
    (topic : plan.dataCase = .consensusSubmitMessage)
    (shows : ∀ row, plan.chunkAt row = .object (.consSome "topicID" topicId
      (.cons "message" (.bytes (chunkOf contents chunkSize row)) (.cons "chunkInfo" (info row) .nil))))
    (rows : ids ≠ []) (columns : tx.nodeAccountIds.list ≠ []) (signed : List SignedTransaction) :
    (readTopicMessage ((plan.bodies tx ids).parsed proto.keys signed)).message =
      some (chunkOf contents chunkSize 0) := by
  obtain ⟨body, found, data⟩ := @ChunkPlan.bodies_head proto plan tx ids columns 0
    (List.length_pos_iff.mpr rows) signed
  rw [topic, shows] at data
  rw [Nat.zero_mul] at found
  have first : bodyAt ((plan.bodies tx ids).parsed proto.keys signed).bodies 0 = body := by
    rw [bodyAt, found]
    rfl
  rw [readTopicMessage, first, show "consensusSubmitMessage" = DataCase.consensusSubmitMessage.name from rfl,
    data]
  cases topicId <;> simp [Properties.consSome]

variable {types : TypeReaders}

/-- The copy of a file append has the contents. -/
theorem ChunkPlan.fromBytes_file (faithful : proto.Faithful) (sound : (plan.bodies tx ids).Sound)
    (made : signed.map SignedTransaction.bodyBytes = (plan.bodies tx ids).cells.map proto.encodeBody)
    (keyed : ∀ one ∈ signed, Keyed one) {fileId : Option Value} (file : plan.dataCase = .fileAppend)
    (shows : ∀ row, plan.chunkAt row = .object (.consSome "fileID" fileId
      (.cons "contents" (.bytes (chunkOf contents chunkSize row)) .nil)))
    (count : ids.length = requiredChunks contents.length chunkSize) (rows : ids ≠ [])
    (columns : tx.nodeAccountIds.list ≠ []) :
    ∃ copy, fromBytes proto types (proto.encodeList (signed.map proto.wrap)) = .ok copy ∧
      copy.data.contents = some contents := by
  obtain ⟨copied, read, whole⟩ := plan.readFileAppend_bodies file shows count rows columns signed
  obtain ⟨copy, loaded, data⟩ := fromProtobufTransactions_keyed sound made keyed
    { data := .fileAppend copied, defaultMaxTransactionFee := 500000000 }
  refine ⟨copy, ?_, ?_⟩
  · rw [BodyGrid.fromBytes_cells faithful sound (carriesAll_signed made) fun _ _ _ => file, readTransaction,
      read]
    exact loaded
  · rw [data]
    exact whole

/-- The copy of a topic message has the first chunk. -/
theorem ChunkPlan.fromBytes_topic (faithful : proto.Faithful) (sound : (plan.bodies tx ids).Sound)
    (made : signed.map SignedTransaction.bodyBytes = (plan.bodies tx ids).cells.map proto.encodeBody)
    (keyed : ∀ one ∈ signed, Keyed one) {topicId : Option Value} {info : Nat → Value}
    (topic : plan.dataCase = .consensusSubmitMessage)
    (shows : ∀ row, plan.chunkAt row = .object (.consSome "topicID" topicId
      (.cons "message" (.bytes (chunkOf contents chunkSize row)) (.cons "chunkInfo" (info row) .nil))))
    (rows : ids ≠ []) (columns : tx.nodeAccountIds.list ≠ []) :
    ∃ copy, fromBytes proto types (proto.encodeList (signed.map proto.wrap)) = .ok copy ∧
      copy.data.contents = some (chunkOf contents chunkSize 0) := by
  have read := plan.readTopicMessage_bodies topic shows rows columns signed
  obtain ⟨copy, loaded, data⟩ := fromProtobufTransactions_keyed sound made keyed
    { data := .topicMessageSubmit (readTopicMessage ((plan.bodies tx ids).parsed proto.keys signed)) }
  refine ⟨copy, ?_, ?_⟩
  · rw [BodyGrid.fromBytes_cells faithful sound (carriesAll_signed made) fun _ _ _ => topic, readTransaction]
    exact loaded
  · rw [data]
    exact read

end Chunks

/-! ## The contents of the copy -/

/-- The first chunk is the whole contents exactly when it is the only one. -/
theorem chunkOf_zero_eq_iff {contents : Bytes} {chunkSize : ℕ+} :
    chunkOf contents chunkSize 0 = contents ↔ requiredChunks contents.length chunkSize ≤ 1 := by
  have positive := chunkSize.pos
  have first : chunkOf contents chunkSize 0 = contents.take chunkSize := by
    rw [chunkOf, Nat.zero_mul, List.drop_zero]
  have whole : contents.length ≤ chunkSize ↔ requiredChunks contents.length chunkSize ≤ 1 := by
    rw [requiredChunks, ← Nat.lt_succ_iff (m := _ / _), Nat.div_lt_iff_lt_mul positive]
    omega
  rw [first, List.take_eq_self_iff, whole]

theorem ChunkPlan.keyed_rows (plan : ChunkPlan proto) {tx : Transaction} {first : Nat}
    {ids : List TransactionId} {signed : SignedTransaction} (member : signed ∈ plan.rows tx first ids) :
    Keyed signed := by
  induction ids generalizing first with
  | nil => cases member
  | cons id rest inductionHypothesis =>
      rw [ChunkPlan.rows, List.mem_append] at member
      rcases member with inRow | inRest
      · obtain ⟨nodeId, _, rfl⟩ := List.mem_map.mp inRow
        intro pair inPairs
        cases inPairs
      · exact inductionHypothesis inRest

/-- A transaction that was just split stands as it was frozen. -/
theorem ChunkPlan.standing (plan : ChunkPlan proto) {based frozen : Transaction} {ids : List TransactionId}
    (signed : frozen.signedTransactions.list = plan.rows based 0 ids)
    (emptied : frozen.transactions.list = []) (immediate : frozen.signOnDemand = false)
    (ready : frozen.isFrozen = true) :
    Standing frozen.transactionIds.list frozen.nodeAccountIds.list
      (frozen.signedTransactions.list.map SignedTransaction.bodyBytes) frozen where
  atOnce := by
    refine ⟨immediate, rfl, rfl, rfl, by simp [emptied], fun none => ?_⟩
    rw [List.map_eq_nil_iff] at none
    simp [isFrozen, SdkList.length, none] at ready
  keyed one member := by
    rw [signed] at member
    exact plan.keyed_rows member

section Copying

variable {client : Option Client} {picked : Except JsError (List AccountId)} {generated now : Timestamp}
  {tx frozen after : Transaction} {contents bytes : Bytes} {types : TypeReaders}

/-- Splitting empties the list of transactions. -/
theorem transactions_freezeWith (set : tx.data.contents = some contents)
    (ran : (freezeWith proto client picked generated).run tx = (.ok (), frozen)) :
    frozen.transactions.list = [] := by
  obtain ⟨_, based, basing, ran⟩ := Method.run_bind_eq_ok.mp ran
  rw [Method.run_this_bind] at ran
  rw [← (freezeBase_frame basing).2.1] at set
  cases data : based.data with
  | plain dataCase value => simp [data, TransactionData.contents] at set
  | fileAppend append =>
      rw [data] at ran set
      obtain ⟨id, _, rfl⟩ := freezeFileAppend_eq_ok set data ran
      rfl
  | topicMessageSubmit submit =>
      rw [data] at ran set
      obtain ⟨_, id, _, rfl⟩ := freezeTopicMessage_eq_ok set ran
      rfl

/-- The bytes hold a copy that has the contents. -/
def CopiesContents (proto : Proto) (types : TypeReaders) (bytes contents : Bytes) : Prop :=
  ∃ copy, fromBytes proto types bytes = .ok copy ∧ copy.data.contents = some contents

/-- Whatever is called on a transaction that was split, the bytes hold a copy of its contents
exactly when it is a file append or has one chunk. -/
theorem copiesContents_iff (faithful : proto.Faithful) (set : tx.data.contents = some contents)
    (plain : ∀ value, tx.subject = some value → value.Plain)
    (ran : (freezeWith proto client picked generated).run tx = (.ok (), frozen))
    (ready : frozen.isFrozen = true) (immediate : frozen.signOnDemand = false)
    (long : ∀ nodeId ∈ frozen.nodeAccountIds.list, nodeId.name.IsLong)
    (different : (frozen.nodeAccountIds.list.map AccountId.identity).Nodup)
    {sha384 : Bytes → Bytes} (calls : List FrozenCall)
    (written : (toBytes proto now).run (runAll (frozenStep proto sha384) frozen calls) =
      (.ok bytes, after)) :
    CopiesContents proto types bytes contents ↔
      tx.dataCase = .fileAppend ∨ tx.data.chunks contents ≤ 1 := by
  obtain ⟨based, basing, splits⟩ := freezeWith_eq_ok set ran
  obtain ⟨plan, id, locked, _, _, signed, type, shows⟩ := splits.rows
  have sameData := (freezeBase_frame basing).2.1
  have emptied := transactions_freezeWith set ran
  generalize idsIs : chunkIds based.data.chunkInterval (based.data.chunks contents) id = ids at signed
  have count : ids.length = requiredChunks contents.length based.data.chunkSize := by
    rw [← idsIs, length_chunkIds]
    rfl
  have size : frozen.signedTransactions.list.length = ids.length * based.nodeAccountIds.list.length := by
    rw [signed, ChunkPlan.length_rows]
  have frozenNow := ready
  rw [isFrozen, SdkList.length, size, decide_eq_true_eq] at ready
  have rows : ids ≠ [] := by
    rintro rfl
    simp at ready
  have columns : based.nodeAccountIds.list ≠ [] := by
    intro none
    simp [none] at ready
  have made := plan.cells_bodies rows columns
  rw [← signed] at made
  have standing := plan.standing signed emptied immediate frozenNow
  have later := @Standing.run proto _ _ _ sha384 _ standing calls
  have bytesAre := later.atOnce.toBytes_eq_ok written
  have same := later.atOnce.sameBodies.trans made.symm
  have keyed := later.keyed
  rw [splits.nodes] at long different
  have nodes := AccountId.nodup_toString long different
  generalize (runAll (frozenStep proto sha384) frozen calls).signedTransactions.list = list
    at bytesAre same keyed
  subst bytesAre
  rw [dataCase, splits.data] at type
  rw [splits.data] at shows
  rw [dataCase, ← sameData]
  cases data : based.data with
  | plain dataCase value =>
      rw [← sameData, data] at set
      cases set
  | fileAppend append =>
      rw [data] at type shows count
      have sound := plan.sound_bodies ids (fun row => ?_) nodes
      · refine iff_of_true ?_ (.inl rfl)
        exact plan.fromBytes_file faithful sound same keyed type shows count rows columns
      · rw [shows]
        refine Properties.plain_consSome (fun value is => plain value ?_) ⟨Js.plain_bytes _, trivial⟩
        rw [subject, ← sameData, data]
        exact is
  | topicMessageSubmit submit =>
      rw [data] at type shows count
      have sound := plan.sound_bodies ids (fun row => ?_) nodes
      · obtain ⟨copy, read, first⟩ := @ChunkPlan.fromBytes_topic proto plan based ids contents
          submit.chunkSize list types faithful sound same keyed _ _ type shows rows columns
        rw [or_iff_right (by simp), TransactionData.chunks]
        change _ ↔ requiredChunks contents.length submit.chunkSize ≤ 1
        rw [← chunkOf_zero_eq_iff]
        constructor
        · rintro ⟨copy', read', whole⟩
          obtain rfl := Except.ok.inj (read.symm.trans read')
          exact Option.some.inj (first.symm.trans whole)
        · intro single
          exact ⟨copy, read, first.trans (congrArg some single)⟩
      · rw [shows]
        refine Properties.plain_consSome (fun value is => plain value ?_)
          ⟨Js.plain_bytes _, ⟨id.plain_toProtobuf proto.keys, trivial, trivial, trivial⟩, trivial⟩
        rw [subject, ← sameData, data]
        exact is

end Copying

section Samples

/-- A key that signs whatever it is given, and the bytes shown before they are written. -/
def sampleCalls : List FrozenCall := [.signWith sampleKey (fun _ _ => .ok [1]) 0, .get (.toBytes ⟨0, 0⟩)]

theorem signed_file_is_copied :
    ∃ bytes after, (toBytes prefixProto ⟨0, 0⟩).run
        (runAll (frozenStep prefixProto id) (frozenAppend ⟨5, 0⟩) sampleCalls) = (.ok bytes, after) ∧
      CopiesContents prefixProto wholeMessage bytes [1, 2, 3] := by
  have froze : ((freezeWith prefixProto none (.ok []) ⟨0, 0⟩).run (sampleAppend ⟨5, 0⟩)).1 = .ok () := by
    decide +kernel
  obtain ⟨bytes, written, _⟩ := exists_ok ((toBytes prefixProto ⟨0, 0⟩).run
    (runAll (frozenStep prefixProto id) (frozenAppend ⟨5, 0⟩) sampleCalls)).1 (fun _ => true)
    (by decide +kernel)
  refine ⟨bytes, _, Method.run_of_ok written, ?_⟩
  exact (copiesContents_iff prefixProto_faithful rfl (unsplit_sampleAppend ⟨5, 0⟩).plain
    (Method.run_of_ok froze) (by decide +kernel) (by decide +kernel) (by decide +kernel)
    (by decide +kernel) sampleCalls (Method.run_of_ok written)).mpr (.inl rfl)

/-- The copy of a message of two chunks has the first. -/
theorem second_chunk_is_lost :
    (freezeWith prefixProto none (.ok []) ⟨0, 0⟩).run (sampleMessage [1, 2, 3]) =
        (.ok (), frozenMessage [1, 2, 3]) ∧
      (frozenMessage [1, 2, 3]).isFrozen = true ∧
      (frozenMessage [1, 2, 3]).transactionIds.list.Nodup ∧
      ∃ bytes after, (toBytes prefixProto ⟨0, 0⟩).run (frozenMessage [1, 2, 3]) = (.ok bytes, after) ∧
        ¬ CopiesContents prefixProto wholeMessage bytes [1, 2, 3] := by
  have froze : ((freezeWith prefixProto none (.ok []) ⟨0, 0⟩).run (sampleMessage [1, 2, 3])).1 = .ok () := by
    decide +kernel
  obtain ⟨bytes, written, short⟩ := exists_ok
    ((toBytes prefixProto ⟨0, 0⟩).run (frozenMessage [1, 2, 3])).1
    (fun bytes => (fromBytes prefixProto wholeMessage bytes).toOption.any
      fun copy : Transaction => decide (copy.data.contents = some [1, 2]))
    (by decide +kernel)
  refine ⟨Method.run_of_ok froze, by decide +kernel, by decide +kernel, bytes, _,
    Method.run_of_ok written, ?_⟩
  rintro ⟨copy, read, whole⟩
  rw [read] at short
  have first := of_decide_eq_true short
  rw [whole] at first
  cases first

end Samples

end HederaSdk.Transaction
