import HederaSdk.Transaction.ExecuteAll
import HederaSdk.Transaction.Reading

/-!
# Contents split by freezing

Freezing at once makes a grid of signed transactions out of the contents: a row for
each chunk, a column for each node. Executing all chunks then submits the rows in
order. Empty contents have no chunks, so nothing is frozen.
-/

namespace HederaSdk

open Library
open Js (Value)

/-- The size of a chunk; there is none in a plain transaction. -/
def TransactionData.chunkSize : TransactionData → ℕ+
  | .plain _ _ => 1
  | .fileAppend append => append.chunkSize
  | .topicMessageSubmit submit => submit.chunkSize

/-- The nanoseconds between the valid starts of two chunks. -/
def TransactionData.chunkInterval : TransactionData → Int
  | .fileAppend append => append.chunkInterval
  | _ => 1

/-- The number of chunks that the contents take. -/
def TransactionData.chunks (contents : Bytes) (data : TransactionData) : Nat :=
  requiredChunks contents.length data.chunkSize

/-- What a body shows of a chunk. -/
def TransactionData.shown (keys : KeyCodec) (initial : TransactionId) (total row : Nat) (chunk : Bytes) :
    TransactionData → Value
  | .plain _ data => data
  | .fileAppend append =>
      .object <| .consSome "fileID" append.fileId <| .cons "contents" (.bytes chunk) .nil
  | .topicMessageSubmit submit =>
      .object <| .consSome "topicID" submit.topicId <|
        .cons "message" (.bytes chunk) <|
        .cons "chunkInfo" (ChunkInfo.toProtobuf keys ⟨initial, total, row + 1⟩) .nil

/-- Freezing leaves no chunk info behind. -/
def TransactionData.finished : TransactionData → TransactionData
  | .topicMessageSubmit submit => .topicMessageSubmit { submit with chunkInfo := none }
  | data => data

namespace Transaction

variable {proto : Proto}

/-- The signed transactions are a grid: each row has the id and the chunk of the same
number, and each column is for the node of the same number. -/
structure IsSplit (proto : Proto) (tx : Transaction) (chunks : List Bytes) : Prop where
  ids : tx.transactionIds.list.length = chunks.length
  size : tx.signedTransactions.list.length = chunks.length * tx.nodeAccountIds.list.length
  cells : ∀ (row column : Nat) (id : TransactionId) (nodeId : AccountId) (chunk : Bytes),
    tx.transactionIds.list[row]? = some id → tx.nodeAccountIds.list[column]? = some nodeId →
    chunks[row]? = some chunk →
    ∃ signed value initial,
      tx.signedTransactions.list[row * tx.nodeAccountIds.list.length + column]? = some signed ∧
      proto.decodeBody signed.bodyBytes = .ok value ∧
      tx.transactionIds.list.head? = some initial ∧
      value.get "transactionID" = id.toProtobuf proto.keys ∧
      value.get "nodeAccountID" = nodeId.toProtobuf proto.keys ∧
      value.get tx.dataCase.name = tx.data.shown proto.keys initial chunks.length row chunk

/-- The request carries a signed transaction of the row. -/
def FromRow (proto : Proto) (tx : Transaction) (row : Nat) (request : ProtoTransaction) : Prop :=
  ∃ column signed sigMap, column < tx.nodeAccountIds.list.length ∧
    tx.signedTransactions.list[row * tx.nodeAccountIds.list.length + column]? = some signed ∧
    request = proto.wrap { signed with sigMap }

/-- One request of the execution was accepted, and all were from the row. -/
structure ExecutesRow (proto : Proto) (tx : Transaction) (row : Nat)
    (events : List (Event ProtoTransaction)) : Prop where
  accepted : ∃ request, accepted events = [request] ∧ FromRow proto tx row request
  sent : ∀ node nodeId request time, .sent node nodeId request time ∈ events →
    FromRow proto tx row request

theorem RequestOf.fromRow {tx : Transaction} (immediate : tx.signOnDemand = false) {row : Nat}
    {request : ProtoTransaction} (made : RequestOf proto (onRow row tx) request) :
    FromRow proto tx row request := by
  obtain ⟨column, signed, inside, rfl, body⟩ := made
  change (if tx.signOnDemand = true then _ else _) = _ at body
  rw [if_neg (by simp [immediate]), List.getElem?_map] at body
  obtain ⟨built, found, bytes⟩ := Option.map_eq_some_iff.mp body
  refine ⟨column, built, signed.sigMap, inside, found, ?_⟩
  rw [bytes]

theorem SubmitsRow.executesRow {tx : Transaction} (immediate : tx.signOnDemand = false) {row : Nat}
    {events : List (Event ProtoTransaction)} (submits : SubmitsRow proto tx row events) :
    ExecutesRow proto tx row events where
  accepted := by
    obtain ⟨request, single, made⟩ := submits.accepted
    exact ⟨request, single, made.fromRow immediate⟩
  sent node nodeId request time member :=
    RequestOf.fromRow immediate (submits.own (.sent node nodeId request time) member)

/-- The transaction is frozen as a grid whose chunks join to the contents, and executing
all chunks submits each row once, in order. -/
structure Splits (proto : Proto) (contents : Bytes) (tx : Transaction) : Prop where
  frozen : tx.isFrozen = true
  grid : ∃ chunks, chunks ≠ [] ∧ chunks.flatten = contents ∧ IsSplit proto tx chunks
  submits : ∀ (sha384 : Bytes → Bytes) (client : Client) (requestTimeout : Option ℚ)
    (schedule : ChunksSchedule) (network : Network) (responses : List TransactionResponse)
    (after : Session),
    (Session.executeAll proto sha384 client requestTimeout schedule).run { tx, network } =
      (.ok responses, after) →
    List.Forall₂ (ExecutesRow proto tx) (List.range tx.transactionIds.list.length) after.log

/-- A transaction with the rows of a plan is split. -/
theorem ChunkPlan.isSplit (faithful : proto.Faithful) (plan : ChunkPlan proto) {interval : Int}
    {id : TransactionId} {locked : Bool} {based tx : Transaction} {chunkSize : ℕ+} {contents : Bytes}
    (ids : tx.transactionIds =
      splitIds interval (requiredChunks contents.length chunkSize) id locked)
    (signed : tx.signedTransactions.list =
      plan.rows based 0 (chunkIds interval (requiredChunks contents.length chunkSize) id))
    (nodes : tx.nodeAccountIds.list = based.nodeAccountIds.list) (dataCase : plan.dataCase = tx.dataCase)
    (shows : ∀ row, plan.chunkAt row = tx.data.shown proto.keys id
      (requiredChunks contents.length chunkSize) row (chunkOf contents chunkSize row)) :
    IsSplit proto tx (chunksOf contents chunkSize) where
  ids := by simp [ids, splitIds]
  size := by simp [signed, nodes]
  cells row column rowId nodeId chunk inRow inColumn inChunks := by
    rw [ids, splitIds] at inRow
    rw [nodes] at inColumn
    have cell := plan.rows_at based 0 inRow inColumn
    have first : tx.transactionIds.list.head? = some id := by
      rw [ids, splitIds]
      cases count : requiredChunks contents.length chunkSize with
      | zero => simp [count, chunkIds] at inRow
      | succ count => rfl
    have chunkIs : chunk = chunkOf contents chunkSize row := by
      rw [chunksOf, List.getElem?_map] at inChunks
      obtain ⟨row', found, same⟩ := Option.map_eq_some_iff.mp inChunks
      rw [List.getElem?_range (by simpa using (List.getElem?_eq_some_iff.mp found).1)] at found
      cases found
      exact same.symm
    refine ⟨_, _, id, by rw [signed, nodes, cell], faithful.body _, first,
      get_transactionID _ _ rfl, get_nodeAccountID _ _ rfl, ?_⟩
    rw [← dataCase, Nat.zero_add]
    refine (TransactionBody.get_data _ (plan.body based row rowId nodeId)).trans ?_
    rw [length_chunksOf, chunkIs]
    exact shows row

/-! ## Freezing -/

section Freezing

variable {client : Option Client} {picked : Except JsError (List AccountId)} {generated : Timestamp}
  {tx tx' : Transaction} {contents : Bytes}

/-- How a transaction with contents stands once it is frozen. -/
structure SplitFrom (proto : Proto) (contents : Bytes) (tx tx' : Transaction) : Prop where
  nodes : tx'.nodeAccountIds = tx.nodeAccountIds
  mode : tx'.signOnDemand = tx.signOnDemand
  data : tx'.data = tx.data.finished
  locks : tx'.transactions.locked = tx.transactions.locked ∧
    tx'.signedTransactions.locked = tx.signedTransactions.locked
  rows : ∃ (plan : ChunkPlan proto) (id : TransactionId) (locked : Bool),
    tx.transactionIds.current = some id ∧
      tx'.transactionIds = splitIds tx.data.chunkInterval (tx.data.chunks contents) id locked ∧
      tx'.signedTransactions.list =
        plan.rows tx 0 (chunkIds tx.data.chunkInterval (tx.data.chunks contents) id) ∧
      plan.dataCase = tx'.dataCase ∧
      ∀ row, plan.chunkAt row = tx'.data.shown proto.keys id (tx.data.chunks contents) row
        (chunkOf contents tx.data.chunkSize row)

theorem freezeWith_eq_ok (set : tx.data.contents = some contents)
    (ran : (freezeWith proto client picked generated).run tx = (.ok (), tx')) :
    ∃ based, (freezeBase proto client picked generated).run tx = (.ok (), based) ∧
      SplitFrom proto contents based tx' := by
  obtain ⟨_, based, basing, ran⟩ := Method.run_bind_eq_ok.mp ran
  obtain ⟨_, same, _⟩ := freezeBase_frame basing
  rw [Method.run_this_bind] at ran
  refine ⟨based, basing, ?_⟩
  rw [← same] at set
  cases data : based.data with
  | plain dataCase data' => simp [data, TransactionData.contents] at set
  | fileAppend append =>
      rw [data] at ran set
      obtain ⟨id, current, rfl⟩ := freezeFileAppend_eq_ok set data ran
      exact {
        nodes := rfl
        mode := rfl
        data := by rw [data]; exact data
        locks := ⟨rfl, rfl⟩
        rows := by
          rw [data]
          refine ⟨_, id, true, current, rfl, rfl, ?_, fun row => ?_⟩
          · simp only [dataCase, ChunkPlan.split, data]
            rfl
          · simp only [ChunkPlan.split, data]
            rfl }
  | topicMessageSubmit submit =>
      rw [data] at ran set
      obtain ⟨_, id, current, rfl⟩ := freezeTopicMessage_eq_ok set ran
      exact {
        nodes := rfl
        mode := rfl
        data := by rw [data]; rfl
        locks := ⟨rfl, rfl⟩
        rows := by
          rw [data]
          exact ⟨_, id, false, current, rfl, rfl, rfl, fun row => rfl⟩ }

/-- The grid of a transaction that was frozen, and its ids. -/
theorem freezeWith_isSplit (faithful : proto.Faithful) (set : tx.data.contents = some contents)
    (ran : (freezeWith proto client picked generated).run tx = (.ok (), tx')) :
    IsSplit proto tx' (chunksOf contents tx.data.chunkSize) ∧
      ∃ id locked, tx'.transactionIds =
        splitIds tx.data.chunkInterval (tx.data.chunks contents) id locked := by
  obtain ⟨based, basing, splits⟩ := freezeWith_eq_ok set ran
  obtain ⟨plan, id, locked, _, ids, signed, case, shows⟩ := splits.rows
  rw [(freezeBase_frame basing).2.1] at ids signed shows
  exact ⟨plan.isSplit faithful ids signed (congrArg SdkList.list splits.nodes) case shows,
    id, locked, ids⟩

theorem freezeWith_of_nodes (nodes : tx.nodeAccountIds.list ≠ [])
    (set : tx.data.contents = some contents)
    (ran : (freezeWith proto client picked generated).run tx = (.ok (), tx')) :
    tx'.nodeAccountIds = tx.nodeAccountIds := by
  obtain ⟨based, basing, splits⟩ := freezeWith_eq_ok set ran
  rcases (freezeBase_frame basing).1 with ⟨_, same⟩ | ⟨none, _⟩
  · exact splits.nodes.trans same
  · exact absurd none nodes

theorem freezeWith_splits (faithful : proto.Faithful) (set : tx.data.contents = some contents)
    (ran : (freezeWith proto client picked generated).run tx = (.ok (), tx'))
    (nodes : tx'.nodeAccountIds.list ≠ []) (immediate : tx'.signOnDemand = false)
    (nonempty : contents ≠ []) : Splits proto contents tx' := by
  obtain ⟨grid, id, locked, ids⟩ := freezeWith_isSplit faithful set ran
  have columns : 0 < tx'.nodeAccountIds.list.length := List.length_pos_iff.mpr nodes
  have count : 0 < tx.data.chunks contents :=
    requiredChunks_pos (List.length_pos_iff.mpr nonempty) tx.data.chunkSize
  have rows : 0 < (chunksOf contents tx.data.chunkSize).length := by
    rw [length_chunksOf]
    exact count
  have frozen : tx'.isFrozen = true := by
    rw [isFrozen, SdkList.length, grid.size, decide_eq_true_iff]
    exact Nat.mul_pos rows columns
  refine ⟨frozen, ⟨_, List.length_pos_iff.mp rows, flatten_chunksOf .., grid⟩, ?_⟩
  intro sha384 client requestTimeout schedule network responses after ran
  have first : tx'.transactionIds.index = 0 := by
    rw [ids, splitIds]
    exact if_neg (by omega)
  obtain ⟨log, logged, submits⟩ := Session.executeAll_eq_ok
    (by rw [isFrozenOrOnDemand, Bool.or_eq_true]; exact .inr frozen)
    (List.length_pos_iff.mp columns) first rfl ran
  rw [logged]
  exact submits.imp fun _ _ row => row.executesRow immediate

/-- Freezing at once splits the contents exactly when there are any. -/
theorem freezeWith_splits_iff (faithful : proto.Faithful) (nodes : tx.nodeAccountIds.list ≠ [])
    (set : tx.data.contents = some contents)
    (ran : (freezeWith proto client picked generated).run tx = (.ok (), tx'))
    (immediate : tx'.signOnDemand = false) : Splits proto contents tx' ↔ contents ≠ [] := by
  constructor
  · rintro split rfl
    have frozen := split.frozen
    rw [isFrozen, SdkList.length, (freezeWith_isSplit faithful set ran).1.size] at frozen
    simp at frozen
  · exact freezeWith_splits faithful set ran (freezeWith_of_nodes nodes set ran ▸ nodes) immediate

end Freezing

section Samples

/-- A message for two nodes, before it is frozen. -/
def sampleMessage (message : Bytes) : Transaction where
  nodeAccountIds := { list := [.ofNum 3, .ofNum 4], locked := true }
  transactionIds := { list := [.withValidStart (.ofNum 2) ⟨5, 0⟩], locked := true }
  data := .topicMessageSubmit { message := some message, chunkSize := 2 }

def frozenMessage (message : Bytes) : Transaction :=
  ((freeze prefixProto ⟨0, 0⟩).run (sampleMessage message)).2

theorem three_bytes_are_split : Splits prefixProto [1, 2, 3] (frozenMessage [1, 2, 3]) := by
  have returned : ((freeze prefixProto ⟨0, 0⟩).run (sampleMessage [1, 2, 3])).1 = .ok () := by
    decide +kernel
  exact (freezeWith_splits_iff prefixProto_faithful (by decide) rfl (Method.run_of_ok returned)
    (by decide +kernel)).mpr (by decide)

/-- An empty message is frozen without an error, and yet it is not frozen. -/
theorem empty_message_is_not_split :
    (sampleMessage []).data.contents = some [] ∧ (sampleMessage []).nodeAccountIds.list.Nodup ∧
      (freeze prefixProto ⟨0, 0⟩).run (sampleMessage []) = (.ok (), frozenMessage []) ∧
      (frozenMessage []).signOnDemand = false ∧ ¬ Splits prefixProto [] (frozenMessage []) := by
  have returned : ((freeze prefixProto ⟨0, 0⟩).run (sampleMessage [])).1 = .ok () := by
    decide +kernel
  have unfrozen : (frozenMessage []).isFrozen = false := by decide +kernel
  refine ⟨rfl, by decide, Method.run_of_ok returned, by decide +kernel, fun split => ?_⟩
  exact absurd (unfrozen.symm.trans split.frozen) (by decide)

end Samples

end Transaction

end HederaSdk
