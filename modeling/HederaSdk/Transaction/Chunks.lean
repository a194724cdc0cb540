import HederaSdk.Transaction.Freezing
import HederaSdk.Transaction.Operations

/-!
# The chunks of a frozen transaction

Freezing a transaction whose contents are split builds one transaction id for
each chunk and one row of signed transactions for each id. `ChunkPlan` is what
the two ways of choosing a chunk have in common; the rows are then a function of
the plan, the settings, the nodes and the first id.
-/

namespace HederaSdk

open Library
open Js (Value)

/-! ## Splitting -/

/-- The chunks of the contents, in order. -/
def chunksOf (data : Bytes) (chunkSize : ℕ+) : List Bytes :=
  (List.range (requiredChunks data.length chunkSize)).map (chunkOf data chunkSize)

theorem requiredChunks_mul (length : Nat) (chunkSize : ℕ+) :
    length ≤ requiredChunks length chunkSize * chunkSize := by
  have positive := chunkSize.pos
  have division := Nat.div_add_mod (length + (chunkSize - 1)) chunkSize
  have remainder := Nat.mod_lt (length + (chunkSize - 1)) positive
  rw [requiredChunks, Nat.mul_comm]
  omega

theorem requiredChunks_pos {length : Nat} (nonempty : 0 < length) (chunkSize : ℕ+) :
    0 < requiredChunks length chunkSize := by
  have positive := chunkSize.pos
  exact Nat.div_pos (by omega) positive

@[simp] theorem requiredChunks_zero (chunkSize : ℕ+) : requiredChunks 0 chunkSize = 0 := by
  have positive := chunkSize.pos
  rw [requiredChunks, Nat.zero_add]
  exact Nat.div_eq_of_lt (by omega)

/-- The first chunks hold the first bytes. -/
theorem flatten_chunks (data : Bytes) (chunkSize : ℕ+) (count : Nat) :
    ((List.range count).map (chunkOf data chunkSize)).flatten = data.take (count * chunkSize) := by
  induction count with
  | zero => simp
  | succ count inductionHypothesis =>
      rw [List.range_succ, List.map_append, List.flatten_append, inductionHypothesis]
      simp only [List.map_cons, List.map_nil, List.flatten_cons, List.flatten_nil, List.append_nil,
        chunkOf]
      rw [Nat.succ_mul, List.take_add]

/-- Joining the chunks undoes the split. -/
theorem flatten_chunksOf (data : Bytes) (chunkSize : ℕ+) : (chunksOf data chunkSize).flatten = data := by
  rw [chunksOf, flatten_chunks, List.take_of_length_le (requiredChunks_mul _ _)]

@[simp] theorem length_chunksOf (data : Bytes) (chunkSize : ℕ+) :
    (chunksOf data chunkSize).length = requiredChunks data.length chunkSize := by
  simp [chunksOf]

namespace Transaction

variable {proto : Proto}

/-! ## Plans -/

/-- How the data of a transaction stands while a chunk is built, and what is read
from it then. -/
structure ChunkPlan (proto : Proto) where
  prepare : Nat → Transaction → Transaction
  /-- The data that `prepare` may be given. -/
  Own : TransactionData → Prop
  dataAt : Nat → TransactionData
  dataCase : DataCase
  chunkAt : Nat → Value
  prepare_eq : ∀ chunk (tx : Transaction), Own tx.data → prepare chunk tx = { tx with data := dataAt chunk }
  own_dataAt : ∀ chunk, Own (dataAt chunk)
  dataCase_eq : ∀ chunk (tx : Transaction), tx.data = dataAt chunk → tx.dataCase = dataCase
  makes : ∀ chunk (tx : Transaction), tx.data = dataAt chunk → tx.transactionIds.index = chunk →
    tx.makeTransactionData proto = chunkAt chunk

def fileChunk (append : FileAppend) (contents : Bytes) (chunk : Nat) : Value :=
  .object <| .consSome "fileID" append.fileId <|
    .cons "contents" (.bytes (chunkOf contents append.chunkSize chunk)) .nil

/-- A file's chunk is chosen by the cursor of the ids. -/
def filePlan (proto : Proto) (append : FileAppend) (contents : Bytes)
    (set : append.contents = some contents) : ChunkPlan proto where
  prepare _ tx := tx
  Own data := data = .fileAppend append
  dataAt _ := .fileAppend append
  dataCase := .fileAppend
  chunkAt := fileChunk append contents
  prepare_eq _ tx own := by
    obtain ⟨data⟩ := tx
    cases own
    rfl
  own_dataAt _ := rfl
  dataCase_eq _ tx data := by rw [dataCase, data]
  makes chunk tx data index := by
    simp [makeTransactionData, data, index, fileChunk, set, Js.Properties.consSome]

def topicChunk (proto : Proto) (submit : TopicMessage) (message : Bytes) (initial : TransactionId)
    (total chunk : Nat) : Value :=
  .object <| .consSome "topicID" submit.topicId <|
    .cons "message" (.bytes (chunkOf message submit.chunkSize chunk)) <|
    .cons "chunkInfo" (ChunkInfo.toProtobuf proto.keys ⟨initial, total, chunk + 1⟩) .nil

/-- A topic's chunk is chosen by the chunk info. -/
def topicPlan (proto : Proto) (submit : TopicMessage) (message : Bytes)
    (set : submit.message = some message) (initial : TransactionId) (total : Nat) :
    ChunkPlan proto where
  prepare chunk := setChunkInfo submit (some ⟨initial, total, chunk + 1⟩)
  Own _ := True
  dataAt chunk := .topicMessageSubmit { submit with chunkInfo := some ⟨initial, total, chunk + 1⟩ }
  dataCase := .consensusSubmitMessage
  chunkAt := topicChunk proto submit message initial total
  prepare_eq _ _ _ := rfl
  own_dataAt _ := trivial
  dataCase_eq _ tx data := by rw [dataCase, data]
  makes chunk tx data _ := by simp [makeTransactionData, data, topicChunk, set]

/-! ## Rows -/

/-- The ids of the chunks from one on. -/
def chunkIds (interval : Int) : Nat → TransactionId → List TransactionId
  | 0, _ => []
  | count + 1, id => id :: chunkIds interval count (nextChunkId interval id)

@[simp] theorem length_chunkIds (interval : Int) (count : Nat) (id : TransactionId) :
    (chunkIds interval count id).length = count := by
  induction count generalizing id with
  | zero => rfl
  | succ count inductionHypothesis => simp [chunkIds, inductionHypothesis]

/-- The body of a chunk for a node: only the settings of the transaction matter. -/
def ChunkPlan.body (plan : ChunkPlan proto) (tx : Transaction) (chunk : Nat) (id : TransactionId)
    (nodeId : AccountId) : TransactionBody where
  transactionID := some id
  nodeAccountID := some nodeId
  transactionFee := tx.maxTransactionFee
  transactionValidDuration := tx.transactionValidDuration
  memo := tx.transactionMemo
  dataCase := plan.dataCase
  data := plan.chunkAt chunk

def ChunkPlan.row (plan : ChunkPlan proto) (tx : Transaction) (chunk : Nat) (id : TransactionId) :
    List SignedTransaction :=
  tx.nodeAccountIds.list.map fun nodeId =>
    { bodyBytes := proto.encodeBody (plan.body tx chunk id nodeId), sigMap := some [] }

/-- The rows of the chunks from one on, each with its id. -/
def ChunkPlan.rows (plan : ChunkPlan proto) (tx : Transaction) :
    Nat → List TransactionId → List SignedTransaction
  | _, [] => []
  | chunk, id :: rest => plan.row tx chunk id ++ plan.rows tx (chunk + 1) rest

@[simp] theorem ChunkPlan.length_row (plan : ChunkPlan proto) (tx : Transaction) (chunk : Nat)
    (id : TransactionId) : (plan.row tx chunk id).length = tx.nodeAccountIds.list.length := by
  simp [row]

@[simp] theorem ChunkPlan.length_rows (plan : ChunkPlan proto) (tx : Transaction) (chunk : Nat)
    (ids : List TransactionId) :
    (plan.rows tx chunk ids).length = ids.length * tx.nodeAccountIds.list.length := by
  induction ids generalizing chunk with
  | nil => simp [rows]
  | cons id rest inductionHypothesis =>
      simp only [rows, List.length_append, length_row, inductionHypothesis, List.length_cons]
      rw [Nat.succ_mul, Nat.add_comm]

/-- The rows are made of the nodes and the settings. -/
theorem ChunkPlan.rows_congr (plan : ChunkPlan proto) {tx tx' : Transaction}
    (same : plan.row tx' = plan.row tx) (chunk : Nat) (ids : List TransactionId) :
    plan.rows tx' chunk ids = plan.rows tx chunk ids := by
  induction ids generalizing chunk with
  | nil => rfl
  | cons id rest inductionHypothesis => rw [rows, rows, same, inductionHypothesis]

/-- The signed transaction in a row and a column. -/
theorem ChunkPlan.rows_at (plan : ChunkPlan proto) (tx : Transaction) (first : Nat)
    {ids : List TransactionId} {row column : Nat} {id : TransactionId} {nodeId : AccountId}
    (inRow : ids[row]? = some id) (inColumn : tx.nodeAccountIds.list[column]? = some nodeId) :
    (plan.rows tx first ids)[row * tx.nodeAccountIds.list.length + column]? =
      some { bodyBytes := proto.encodeBody (plan.body tx (first + row) id nodeId),
             sigMap := some [] } := by
  have inside : column < tx.nodeAccountIds.list.length := (List.getElem?_eq_some_iff.mp inColumn).1
  induction ids generalizing first row with
  | nil => simp at inRow
  | cons head rest inductionHypothesis =>
      cases row with
      | zero =>
          simp only [List.getElem?_cons_zero, Option.some.injEq] at inRow
          subst inRow
          rw [Nat.zero_mul, Nat.zero_add, rows, List.getElem?_append_left (by simpa using inside)]
          simp [ChunkPlan.row, inColumn]
      | succ row =>
          have behind := @inductionHypothesis (first + 1) row (by simpa using inRow)
          rw [rows, List.getElem?_append_right (by rw [length_row, Nat.succ_mul]; omega), length_row,
            Nat.succ_mul, Nat.add_right_comm, Nat.add_sub_cancel, behind, Nat.add_right_comm,
            Nat.add_assoc]

/-! ## Building -/

theorem pushSignedTransaction_eq_ok {tx tx' : Transaction} {nodeId : AccountId}
    (pushed : (pushSignedTransaction proto nodeId).run tx = (.ok (), tx')) :
    tx' = { tx with signedTransactions := { tx.signedTransactions with
      list := tx.signedTransactions.list ++ [tx.makeSignedTransaction proto (some nodeId)] } } := by
  rw [pushSignedTransaction, Method.run_this_bind] at pushed
  cases locked : tx.signedTransactions.locked with
  | true =>
      simp only [SdkList.push, locked, if_true] at pushed
      cases pushed
  | false =>
      rw [SdkList.push_of_unlocked locked] at pushed
      cases pushed
      rfl

theorem pushRow_eq_ok {nodeIds : List AccountId} {tx tx' : Transaction}
    (pushed : (Method.forEach (pushSignedTransaction proto) nodeIds).run tx = (.ok (), tx')) :
    tx' = { tx with signedTransactions := { tx.signedTransactions with
      list := tx.signedTransactions.list ++
        nodeIds.map fun nodeId => tx.makeSignedTransaction proto (some nodeId) } } := by
  induction nodeIds generalizing tx with
  | nil =>
      cases pushed
      simp
  | cons nodeId rest inductionHypothesis =>
      obtain ⟨_, one, first, others⟩ := Method.run_bind_eq_ok.mp pushed
      have more := inductionHypothesis others
      rw [pushSignedTransaction_eq_ok first] at more
      rw [more]
      simp only [List.map_cons, List.append_assoc, List.singleton_append]
      rfl

theorem pushTransactionId_eq_ok {tx tx' : Transaction} {id : TransactionId}
    (pushed : (pushTransactionId id).run tx = (.ok (), tx')) :
    tx' = { tx with transactionIds := { tx.transactionIds with
      list := tx.transactionIds.list ++ [id]
      index := (tx.transactionIds.index + 1) % (tx.transactionIds.list.length + 1) } } := by
  rw [pushTransactionId, Method.run_this_bind] at pushed
  cases locked : tx.transactionIds.locked with
  | true =>
      simp only [SdkList.push, locked, if_true] at pushed
      cases pushed
  | false =>
      rw [SdkList.push_of_unlocked locked] at pushed
      cases pushed
      simp [SdkList.advance, SdkList.length]

/-- The cursor of the ids while the chunks are built: at the last id. -/
def AtLast (ids : SdkList TransactionId) : Prop := ids.index = ids.list.length - 1

theorem AtLast.push {ids : SdkList TransactionId} (last : AtLast ids) :
    (ids.index + 1) % (ids.list.length + 1) = ids.list.length := by
  rw [last]
  cases ids.list.length with
  | zero => rfl
  | succ length => rw [Nat.succ_sub_one, Nat.mod_eq_of_lt (by omega)]

theorem ChunkPlan.makeSignedTransaction_eq (plan : ChunkPlan proto) {tx : Transaction} {chunk : Nat}
    {id : TransactionId} (data : tx.data = plan.dataAt chunk)
    (index : tx.transactionIds.index = chunk) (current : tx.transactionIds.current = some id)
    (nodeId : AccountId) :
    tx.makeSignedTransaction proto (some nodeId) =
      { bodyBytes := proto.encodeBody (plan.body tx chunk id nodeId), sigMap := some [] } := by
  simp only [makeSignedTransaction, makeTransactionBody, plan.makes chunk tx data index,
    plan.dataCase_eq chunk tx data, current, body]

/-- What building chunks adds to a transaction. -/
structure Adds (plan : ChunkPlan proto) (chunk : Nat) (ids : List TransactionId)
    (tx tx' : Transaction) : Prop where
  built : tx' = { tx with
    data := tx'.data
    transactionIds := { tx.transactionIds with
      list := tx.transactionIds.list ++ ids
      index := tx'.transactionIds.index }
    signedTransactions := { tx.signedTransactions with
      list := tx.signedTransactions.list ++ plan.rows tx chunk ids } }
  last : AtLast tx'.transactionIds
  own : plan.Own tx'.data
  data : tx'.data = tx.data ∨ ∃ chunk, tx'.data = plan.dataAt chunk

theorem ChunkPlan.buildChunks_eq_ok (plan : ChunkPlan proto) {interval : Int} {remaining : Nat}
    {id : TransactionId} {tx tx' : Transaction} (own : plan.Own tx.data)
    (last : AtLast tx.transactionIds)
    (built : (buildChunks proto plan.prepare interval remaining tx.transactionIds.list.length id).run
      tx = (.ok (), tx')) :
    Adds plan tx.transactionIds.list.length (chunkIds interval remaining id) tx tx' := by
  generalize count : tx.transactionIds.list.length = chunk at built ⊢
  induction remaining generalizing tx chunk id with
  | zero =>
      cases built
      exact ⟨by simp [chunkIds, rows], last, own, .inl rfl⟩
  | succ remaining inductionHypothesis =>
      rw [buildChunks, Method.run_update_bind, plan.prepare_eq _ _ own] at built
      obtain ⟨_, named, naming, built⟩ := Method.run_bind_eq_ok.mp built
      rw [Method.run_this_bind] at built
      obtain ⟨_, filled, filling, built⟩ := Method.run_bind_eq_ok.mp built
      obtain rfl := pushTransactionId_eq_ok naming
      obtain rfl := pushRow_eq_ok filling
      have cursor : (tx.transactionIds.index + 1) % (chunk + 1) = chunk := count ▸ last.push
      simp only [count, cursor] at built
      have row : (tx.nodeAccountIds.list.map fun nodeId => makeSignedTransaction proto
          { tx with
            data := plan.dataAt chunk
            transactionIds := { tx.transactionIds with
              list := tx.transactionIds.list ++ [id]
              index := chunk } } (some nodeId)) = plan.row tx chunk id := by
        apply List.map_congr_left
        intro nodeId _
        exact @plan.makeSignedTransaction_eq _ _ _ id rfl rfl
          (by simp [SdkList.current, SdkList.get, ← count]) nodeId
      rw [row] at built
      let filled : Transaction := { tx with
        data := plan.dataAt chunk
        transactionIds := { tx.transactionIds with
          list := tx.transactionIds.list ++ [id]
          index := chunk }
        signedTransactions := { tx.signedTransactions with
          list := tx.signedTransactions.list ++ plan.row tx chunk id } }
      have rest : Adds plan (chunk + 1) (chunkIds interval remaining (nextChunkId interval id))
          filled tx' :=
        inductionHypothesis (plan.own_dataAt chunk) (by simp [filled, AtLast, count]) (chunk + 1)
          (by simp [filled, count]) built
      have same : plan.rows filled = plan.rows tx := by
        funext chunk ids
        exact @plan.rows_congr _ tx filled rfl chunk ids
      refine ⟨rest.built.trans ?_, rest.last, rest.own, ?_⟩
      · simp only [same, filled, chunkIds, rows, List.append_assoc, List.singleton_append]
      · rcases rest.data with same | other
        · exact .inr ⟨chunk, same⟩
        · exact .inr other

/-! ## Freezing -/

/-- The ids of a split transaction; its cursor is at the first, unless there is none. -/
def splitIds (interval : Int) (count : Nat) (id : TransactionId) (locked : Bool) :
    SdkList TransactionId where
  list := chunkIds interval count id
  locked
  index := if count = 0 then 1 else 0

/-- The transaction once it is split, but for its data. -/
def ChunkPlan.split (plan : ChunkPlan proto) (interval : Int) (count : Nat) (id : TransactionId)
    (locked : Bool) (tx : Transaction) : Transaction :=
  { tx with
    transactions := tx.transactions.clear
    transactionIds := splitIds interval count id locked
    signedTransactions := { tx.signedTransactions.clear with
      list := plan.rows tx 0 (chunkIds interval count id) } }

/-- The ids there were before do not matter. -/
theorem ChunkPlan.split_withIds (plan : ChunkPlan proto) (interval : Int) (count : Nat)
    (id : TransactionId) (locked : Bool) (tx : Transaction) (ids : SdkList TransactionId) :
    plan.split interval count id locked { tx with transactionIds := ids } =
      plan.split interval count id locked tx := by
  simp only [split, @plan.rows_congr _ tx { tx with transactionIds := ids } rfl]

theorem AtLast.advance {ids : SdkList TransactionId} (last : AtLast ids) :
    ids.advance.index = if ids.list.length = 0 then 1 else 0 := by
  rw [SdkList.index_advance, last]
  cases ids.list.length with
  | zero => rfl
  | succ length => simp

/-- Emptying the lists and building the chunks splits the transaction. -/
theorem ChunkPlan.split_eq_ok (plan : ChunkPlan proto) {interval : Int} {count : Nat}
    {id : TransactionId} {tx tx' : Transaction} (own : plan.Own tx.data)
    (ran : (do
      Method.update clearForChunks
      buildChunks proto plan.prepare interval count 0 id : TransactionMethod Unit).run tx =
        (.ok (), tx')) :
    { tx' with data := tx.data, transactionIds := tx'.transactionIds.advance } =
        plan.split interval count id false tx ∧
      (tx'.data = tx.data ∨ ∃ chunk, tx'.data = plan.dataAt chunk) := by
  rw [Method.run_update_bind] at ran
  have adds := @plan.buildChunks_eq_ok _ _ _ _ (clearForChunks tx) _ own rfl ran
  have same : plan.rows (clearForChunks tx) = plan.rows tx := by
    funext chunk ids
    exact @plan.rows_congr _ tx (clearForChunks tx) rfl chunk ids
  refine ⟨?_, adds.data⟩
  have list : tx'.transactionIds.list = chunkIds interval count id := by
    rw [adds.built]
    simp [clearForChunks]
  have locked : tx'.transactionIds.locked = false := by
    rw [adds.built]
    rfl
  have index := adds.last.advance
  rw [list, length_chunkIds] at index
  have ids : tx'.transactionIds.advance = splitIds interval count id false := by
    rw [splitIds, ← list, ← index, ← locked]
    rfl
  rw [ids, adds.built, same]
  simp [clearForChunks, split]

theorem freezeFileAppend_eq_ok {append : FileAppend} {contents : Bytes}
    (set : append.contents = some contents) {tx tx' : Transaction}
    (data : tx.data = .fileAppend append)
    (frozen : (freezeFileAppend proto append).run tx = (.ok (), tx')) :
    ∃ id, tx.transactionIds.current = some id ∧
      tx' = (filePlan proto append contents set).split append.chunkInterval
        (requiredChunks contents.length append.chunkSize) id true tx := by
  simp only [freezeFileAppend, set] at frozen
  obtain ⟨id, read, reading, frozen⟩ := Method.run_bind_eq_ok.mp frozen
  obtain ⟨current, rfl⟩ := getTransactionId_eq_ok reading
  rw [Method.run_update_bind] at frozen
  obtain ⟨_, built, building, finishing⟩ := Method.run_bind_eq_ok.mp frozen
  obtain ⟨splits, own⟩ := @(filePlan proto append contents set).split_eq_ok _ append.chunkInterval _ _
    { tx with transactionIds := tx.transactionIds.setLocked } built data building
  have same : built.data = tx.data := by
    rcases own with same | ⟨_, other⟩
    · exact same
    · exact other.trans data.symm
  rw [ChunkPlan.split_withIds] at splits
  have locked := congrArg
    (fun t : Transaction => { t with transactionIds := t.transactionIds.setLocked }) splits
  have unchanged : { built with transactionIds := built.transactionIds.advance.setLocked } =
      { built with
        data := tx.data
        transactionIds := built.transactionIds.advance.setLocked } := by rw [← same]
  cases finishing
  exact ⟨id, current, unchanged.trans locked⟩

theorem freezeTopicMessage_eq_ok {submit : TopicMessage} {message : Bytes}
    (set : submit.message = some message) {tx tx' : Transaction}
    (frozen : (freezeTopicMessage proto submit).run tx = (.ok (), tx')) :
    (requiredChunks message.length submit.chunkSize : ℚ) ≤ submit.maxChunks ∧
    ∃ id, tx.transactionIds.current = some id ∧
      tx' = setChunkInfo submit none
        ((topicPlan proto submit message set id (requiredChunks message.length submit.chunkSize)).split
          1 (requiredChunks message.length submit.chunkSize) id false tx) := by
  simp only [freezeTopicMessage, set] at frozen
  split at frozen
  · cases frozen
  · rename_i few
    obtain ⟨id, read, reading, frozen⟩ := Method.run_bind_eq_ok.mp frozen
    obtain ⟨current, rfl⟩ := getTransactionId_eq_ok reading
    rw [Method.run_update_bind] at frozen
    obtain ⟨_, built, building, finishing⟩ := Method.run_bind_eq_ok.mp frozen
    obtain ⟨splits, _⟩ := @(topicPlan proto submit message set id
      (requiredChunks message.length submit.chunkSize)).split_eq_ok _ _ _ _
      { tx with transactionIds := tx.transactionIds.setLocked } _ trivial building
    rw [ChunkPlan.split_withIds] at splits
    have renewed := congrArg (setChunkInfo submit none) splits
    cases finishing
    exact ⟨not_lt.mp few, id, current, renewed⟩

end Transaction

end HederaSdk
