import HederaSdk.IdText
import HederaSdk.Topic.Assembly
import HederaSdk.Transaction.Splitting

/-!
# Interleaved messages

A message that was split by freezing is submitted chunk by chunk, and its chunks
arrive among those of other messages, in any order. Whatever the order, a stream
passes a message when its last chunk has arrived, with the bytes that were
submitted: the chunks are told apart by the texts of their initial transaction
ids, and sorting by number undoes the split.
-/

namespace HederaSdk.Topic

open Library
open Js (Value)

universe u

/-! ## Submissions -/

/-- A message that was split by freezing. -/
structure Submission (proto : Proto) where
  before : Transaction
  submit : TopicMessage
  message : Bytes
  tx : Transaction
  data : before.data = .topicMessageSubmit submit
  set : submit.message = some message
  frozen : ∃ client picked generated,
    (Transaction.freezeWith proto client picked generated).run before = (.ok (), tx)

/-- The chunk info of a body as the mirror node shows it. -/
def readChunkInfo (info : Value) : Option ConsensusMessageChunkInfo :=
  if info.isNullish then none
  else
    some
      { initialTransactionID :=
          if (info.get "initialTransactionID").isNullish then none
          else some (info.get "initialTransactionID")
        total := (info.get "total").toNumber?.getD 0
        number := (info.get "number").toNumber?.getD 0 }

theorem readChunkInfo_toProtobuf (keys : KeyCodec) (info : ChunkInfo) :
    readChunkInfo (info.toProtobuf keys) =
      some ⟨some (info.initialTransactionID.toProtobuf keys), info.total, info.number⟩ := by
  simp [readChunkInfo, ChunkInfo.toProtobuf, Value.isNullish, TransactionId.toProtobuf,
    Value.toNumber?]

/-- The response shows what a body of a message carries. -/
structure ConsensusTopicResponse.Shows (data : Value) (response : ConsensusTopicResponse) : Prop where
  timestamp : ∃ timestamp, response.consensusTimestamp = some timestamp
  message : response.message = (data.get "message").toBytes?.getD []
  chunkInfo : response.chunkInfo = readChunkInfo (data.get "chunkInfo")

namespace Submission

variable {proto : Proto} (submission : Submission proto)

/-- The number of chunks of the message. -/
def total : Nat := requiredChunks submission.message.length submission.submit.chunkSize

def chunk (row : Nat) : Bytes := chunkOf submission.message submission.submit.chunkSize row

/-- The id of the first chunk. -/
def initial : Option TransactionId := submission.tx.transactionIds.list.head?

/-- The response is to a chunk, submitted to some node. -/
def Answers (row : Nat) (response : ConsensusTopicResponse) : Prop :=
  ∃ column signed value, column < submission.tx.nodeAccountIds.list.length ∧
    submission.tx.signedTransactions.list[
      row * submission.tx.nodeAccountIds.list.length + column]? = some signed ∧
    proto.decodeBody signed.bodyBytes = .ok value ∧
    response.Shows (value.get "consensusSubmitMessage")

variable {submission}

/-- A frozen message is a grid of its chunks. -/
theorem isSplit (faithful : proto.Faithful) :
    Transaction.IsSplit proto submission.tx
        (chunksOf submission.message submission.submit.chunkSize) ∧
      submission.tx.data = .topicMessageSubmit { submission.submit with chunkInfo := none } := by
  obtain ⟨client, picked, generated, ran⟩ := submission.frozen
  have set : submission.before.data.contents = some submission.message := by
    rw [submission.data]
    exact submission.set
  obtain ⟨split_, _⟩ := Transaction.freezeWith_isSplit faithful set ran
  obtain ⟨based, basing, splits⟩ := Transaction.freezeWith_eq_ok set ran
  rw [submission.data] at split_
  refine ⟨split_, ?_⟩
  rw [splits.data, (Transaction.freezeBase_frame basing).2.1, submission.data]
  rfl

/-- What the response to a chunk shows. -/
structure Reads (submission : Submission proto) (row : Nat) (initial : TransactionId)
    (response : ConsensusTopicResponse) : Prop where
  first : submission.initial = some initial
  inside : row < submission.total
  timestamp : ∃ timestamp, response.consensusTimestamp = some timestamp
  message : response.message = submission.chunk row
  chunkInfo : response.chunkInfo =
    some ⟨some (initial.toProtobuf proto.keys), submission.total, row + 1⟩

/-- What a body of the message shows, read back. -/
theorem shown_data {value : Value} {initial : TransactionId} {row : Nat}
    {inRow : row < (chunksOf submission.message submission.submit.chunkSize).length}
    (shown : value.get submission.tx.dataCase.name = submission.tx.data.shown proto.keys initial
      (chunksOf submission.message submission.submit.chunkSize).length row
      ((chunksOf submission.message submission.submit.chunkSize).get ⟨row, inRow⟩))
    (data : submission.tx.data = .topicMessageSubmit { submission.submit with chunkInfo := none }) :
    ((value.get "consensusSubmitMessage").get "message").toBytes?.getD [] = submission.chunk row ∧
      readChunkInfo ((value.get "consensusSubmitMessage").get "chunkInfo") =
        some ⟨some (initial.toProtobuf proto.keys), submission.total, row + 1⟩ := by
  have case : submission.tx.dataCase.name = "consensusSubmitMessage" := by
    rw [Transaction.dataCase, data]
    rfl
  have chunk : (chunksOf submission.message submission.submit.chunkSize).get ⟨row, inRow⟩ =
      submission.chunk row := by
    simp [chunksOf, Submission.chunk]
  rw [case, data, chunk, length_chunksOf] at shown
  have info : (value.get "consensusSubmitMessage").get "chunkInfo" =
      ChunkInfo.toProtobuf proto.keys ⟨initial, submission.total, row + 1⟩ := by
    rw [shown]
    cases topic : submission.submit.topicId <;>
      simp [TransactionData.shown, Js.Properties.consSome, topic, total]
  refine ⟨?_, ?_⟩
  · rw [shown]
    cases topic : submission.submit.topicId <;>
      simp [TransactionData.shown, Js.Properties.consSome, topic]
  · rw [info, readChunkInfo_toProtobuf]
    rfl

theorem Answers.reads (faithful : proto.Faithful) {row : Nat} {response : ConsensusTopicResponse}
    (answers : submission.Answers row response) : ∃ initial, submission.Reads row initial response := by
  obtain ⟨column, signed, value, inColumn, found, decoded, shows⟩ := answers
  obtain ⟨grid, data⟩ := submission.isSplit faithful
  have inRow : row < (chunksOf submission.message submission.submit.chunkSize).length := by
    have inside := (List.getElem?_eq_some_iff.mp found).1
    rw [grid.size] at inside
    by_contra outside
    have most := Nat.mul_le_mul_right submission.tx.nodeAccountIds.list.length (not_lt.mp outside)
    omega
  have inIds : row < submission.tx.transactionIds.list.length := by rw [grid.ids]; exact inRow
  obtain ⟨signed', value', initial, found', decoded', first, _, _, shown⟩ :=
    grid.cells row column _ _ _ (List.getElem?_eq_getElem inIds) (List.getElem?_eq_getElem inColumn)
      (List.getElem?_eq_getElem inRow)
  obtain rfl : signed = signed' := Option.some.inj (found.symm.trans found')
  obtain rfl : value = value' := Except.ok.inj (decoded.symm.trans decoded')
  rw [length_chunksOf] at inRow
  have fields := submission.shown_data shown data
  exact ⟨initial, first, inRow, shows.timestamp, shows.message.trans fields.1,
    shows.chunkInfo.trans fields.2⟩

/-- What the body of a chunk for the first node carries is such a response. -/
theorem Reads.answers (faithful : proto.Faithful)
    (nodes : 0 < submission.tx.nodeAccountIds.list.length) {row : Nat} {initial : TransactionId}
    {response : ConsensusTopicResponse} (reads : submission.Reads row initial response) :
    submission.Answers row response := by
  obtain ⟨grid, data⟩ := submission.isSplit faithful
  have inRow : row < (chunksOf submission.message submission.submit.chunkSize).length := by
    rw [length_chunksOf]
    exact reads.inside
  have inIds : row < submission.tx.transactionIds.list.length := by rw [grid.ids]; exact inRow
  obtain ⟨signed, value, first, found, decoded, head, _, _, shown⟩ :=
    grid.cells row 0 _ _ _ (List.getElem?_eq_getElem inIds) (List.getElem?_eq_getElem nodes)
      (List.getElem?_eq_getElem inRow)
  obtain rfl : initial = first := Option.some.inj (reads.first.symm.trans head)
  have fields := submission.shown_data shown data
  exact ⟨0, signed, value, nodes, found, decoded, reads.timestamp,
    reads.message.trans fields.1.symm, reads.chunkInfo.trans fields.2.symm⟩

section Reads

variable {row : Nat} {initial : TransactionId} {response : ConsensusTopicResponse}
  (reads : submission.Reads row initial response)
include reads

theorem Reads.readable (faithful : proto.Faithful) : response.Readable proto.keys where
  timestamp := reads.timestamp
  initialId id named := by
    rw [ConsensusTopicResponse.initialTransactionID, reads.chunkInfo] at named
    obtain rfl : initial.toProtobuf proto.keys = id := Option.some.inj named
    exact ⟨_, by rw [readTransactionId, TransactionId.fromProtobuf_toProtobuf faithful.keys]; rfl⟩
  chunk info chunked _ := by
    rw [reads.chunkInfo] at chunked
    rw [← Option.some.inj chunked]
    exact Option.some_ne_none _

theorem Reads.total_eq : response.total = submission.total := by
  rw [ConsensusTopicResponse.total, reads.chunkInfo]

theorem Reads.chunkNumber_eq : response.chunkNumber = row + 1 := by
  rw [ConsensusTopicResponse.chunkNumber, reads.chunkInfo]

/-- A chunk waits under the text of the initial id as it is read. -/
theorem Reads.groupKey_eq (faithful : proto.Faithful) : response.groupKey proto.keys =
    if submission.total = 1 then none else some initial.onWire.toString := by
  rw [ConsensusTopicResponse.groupKey, reads.chunkInfo]
  simp only [readTransactionId, TransactionId.fromProtobuf_toProtobuf faithful.keys,
    Except.mapError, Nat.cast_eq_one]

end Reads

end Submission

/-! ## Deliveries -/

/-- The response to a chunk of a message. -/
structure Delivery (ι : Type u) where
  message : ι
  row : Nat
  response : ConsensusTopicResponse

section Deliveries

variable {proto : Proto} {ι : Type u} {submission : ι → Submission proto}

/-- The chunk responses of messages, each once and in any order, where split messages
have different initial ids. -/
structure Interleaved (submission : ι → Submission proto) (deliveries : List (Delivery ι)) : Prop where
  answers : ∀ d ∈ deliveries, (submission d.message).Answers d.row d.response
  once : (deliveries.map fun d => (d.message, d.row)).Nodup
  carried : ∀ d ∈ deliveries, 1 < (submission d.message).total →
    ∀ id, (submission d.message).initial = some id → id.Carried
  distinct : ∀ d ∈ deliveries, ∀ e ∈ deliveries, d.message ≠ e.message →
    1 < (submission d.message).total → 1 < (submission e.message).total →
    ∀ id, (submission d.message).initial = some id →
    ∀ other, (submission e.message).initial = some other → id.identity ≠ other.identity

/-- All chunks of the message have arrived. -/
abbrev HasArrived (submission : ι → Submission proto) (seen : List (Delivery ι)) (message : ι) : Prop :=
  Gather.Arrived Delivery.message Delivery.row (fun i => (submission i).total) seen message

variable {deliveries : List (Delivery ι)}

theorem Interleaved.initial {first second : List (Delivery ι)}
    (interleaved : Interleaved submission (first ++ second)) : Interleaved submission first where
  answers d inD := interleaved.answers d (List.mem_append_left _ inD)
  once := by
    have once := interleaved.once
    rw [List.map_append] at once
    exact once.of_append_left
  carried d inD := interleaved.carried d (List.mem_append_left _ inD)
  distinct d inD e inE :=
    interleaved.distinct d (List.mem_append_left _ inD) e (List.mem_append_left _ inE)

/-- The chunks of a message are the parts that a stream gathers. -/
theorem Interleaved.parted (faithful : proto.Faithful)
    (interleaved : Interleaved submission deliveries) :
    Gather.Parted (ConsensusTopicResponse.groupKey proto.keys ∘ Delivery.response)
      (ConsensusTopicResponse.total ∘ Delivery.response) Delivery.message Delivery.row
      (fun i => (submission i).total) deliveries where
  inside d inD := by
    obtain ⟨_, reads⟩ := (interleaved.answers d inD).reads faithful
    exact reads.inside
  once := by
    refine (List.pairwise_map.mp interleaved.once).imp ?_
    intro d e different sameMessage sameRow
    exact different (Prod.ext sameMessage sameRow)
  size d inD := by
    obtain ⟨_, reads⟩ := (interleaved.answers d inD).reads faithful
    exact reads.total_eq
  same d inD e inE k here := by
    obtain ⟨id, reads⟩ := (interleaved.answers d inD).reads faithful
    obtain ⟨other, readsOther⟩ := (interleaved.answers e inE).reads faithful
    simp only [Function.comp_apply, reads.groupKey_eq faithful,
      readsOther.groupKey_eq faithful] at here ⊢
    have more : 1 < (submission d.message).total := by
      have some_ := reads.inside
      split at here
      · cases here
      · omega
    rw [if_neg (by omega), Option.some.injEq] at here
    have carried := interleaved.carried d inD more id reads.first
    by_cases single : (submission e.message).total = 1
    · rw [if_pos single]
      refine ⟨fun none => (by cases none), fun same => ?_⟩
      rw [same] at single
      omega
    · have moreOther : 1 < (submission e.message).total := by
        have some_ := readsOther.inside
        omega
      have carriedOther := interleaved.carried e inE moreOther other readsOther.first
      rw [if_neg single, Option.some.injEq, ← here, carriedOther.toString_onWire_inj carried]
      constructor
      · intro same
        by_contra differ
        exact interleaved.distinct e inE d inD differ moreOther more other readsOther.first id
          reads.first same
      · intro same
        have sameId := readsOther.first
        rw [same, reads.first] at sameId
        rw [Option.some.inj sameId]
  alone d inD none := by
    obtain ⟨_, reads⟩ := (interleaved.answers d inD).reads faithful
    simp only [Function.comp_apply, reads.groupKey_eq faithful] at none
    by_contra more
    rw [if_neg more] at none
    cases none

theorem Interleaved.readable (faithful : proto.Faithful)
    (interleaved : Interleaved submission deliveries) :
    ∀ response ∈ deliveries.map Delivery.response, response.Readable proto.keys := by
  intro response inResponses
  obtain ⟨d, inD, rfl⟩ := List.mem_map.mp inResponses
  obtain ⟨_, reads⟩ := (interleaved.answers d inD).reads faithful
  exact reads.readable faithful

/-- Sorted by number, the responses to all chunks of a message hold its bytes. -/
theorem flatMap_sortChunks {i : ι} {group : List (Delivery ι)}
    (rows : (group.map Delivery.row).Perm (List.range (submission i).total))
    (reads : ∀ d ∈ group, ∃ id, (submission i).Reads d.row id d.response) :
    (Message.sortChunks (group.map Delivery.response)).flatMap ConsensusTopicResponse.message =
      (submission i).message := by
  have numbers : (group.map Delivery.response).map ConsensusTopicResponse.chunkNumber =
      (group.map Delivery.row).map fun row : Nat => (row : Int) + 1 := by
    rw [List.map_map, List.map_map]
    apply List.map_congr_left
    intro d inGroup
    obtain ⟨_, read⟩ := reads d inGroup
    exact read.chunkNumber_eq
  have sorted : (Message.sortChunks (group.map Delivery.response)).map
      ConsensusTopicResponse.chunkNumber =
        (List.range (submission i).total).map fun row : Nat => (row : Int) + 1 := by
    refine List.Perm.eq_of_pairwise' (r := (· ≤ ·)) ?_ ?_ ?_
    · exact List.pairwise_map.mpr (List.pairwise_insertionSort _ _)
    · refine List.pairwise_map.mpr (List.pairwise_lt_range.imp ?_)
      intro a b before
      omega
    · rw [Message.sortChunks]
      refine ((List.perm_insertionSort _ _).map _).trans ?_
      rw [numbers]
      exact rows.map _
  have chunks : ∀ response ∈ Message.sortChunks (group.map Delivery.response),
      response.message = (submission i).chunk (response.chunkNumber - 1).toNat := by
    intro response inSorted
    obtain ⟨d, inGroup, rfl⟩ := List.mem_map.mp (Message.mem_sortChunks.mp inSorted)
    obtain ⟨_, read⟩ := reads d inGroup
    rw [read.message, read.chunkNumber_eq, Int.add_sub_cancel, Int.toNat_natCast]
  calc (Message.sortChunks (group.map Delivery.response)).flatMap ConsensusTopicResponse.message
      = (Message.sortChunks (group.map Delivery.response)).flatMap fun response =>
          (submission i).chunk (response.chunkNumber - 1).toNat :=
        List.flatMap_congr chunks
    _ = ((Message.sortChunks (group.map Delivery.response)).map
          ConsensusTopicResponse.chunkNumber).flatMap fun number =>
            (submission i).chunk (number - 1).toNat := by
        rw [List.flatMap_map]
    _ = ((List.range (submission i).total).map (submission i).chunk).flatten := by
        rw [sorted, List.flatMap_map, List.flatMap_def]
        congr 2
        funext row
        rw [Int.add_sub_cancel, Int.toNat_natCast]
    _ = (submission i).message := flatten_chunksOf _ _

/-! ## Passing -/

/-- What a subscription has passed once the responses have arrived on its stream. -/
def passedAfter (keys : KeyCodec) (query : TopicMessageQuery) (listener : Message → Option String)
    (deliveries : List (Delivery ι)) : List Message :=
  (runAll (Subscription.step keys) (query.subscribe listener)
    (deliveries.map fun d => .data 0 d.response)).passed

theorem completeMessages_append (keys : KeyCodec) (responses : List ConsensusTopicResponse)
    (response : ConsensusTopicResponse) :
    completeMessages keys (responses ++ [response]) = completeMessages keys responses ++
      ((Gather.completed (ConsensusTopicResponse.groupKey keys) ConsensusTopicResponse.total responses
        response).bind fun group => (Message.ofGroup keys group).toOption).toList := by
  rw [completeMessages, Gather.completions_append, List.filterMap_append, completeMessages,
    List.nil_append]
  congr 1
  cases Gather.completed (ConsensusTopicResponse.groupKey keys) ConsensusTopicResponse.total
    responses response with
  | none => rfl
  | some group => cases made : (Message.ofGroup keys group).toOption <;> simp [made]

variable (query : TopicMessageQuery) (listener : Message → Option String)

theorem Interleaved.passedAfter_eq (faithful : proto.Faithful)
    (interleaved : Interleaved submission deliveries) :
    passedAfter proto.keys query listener deliveries =
      completeMessages proto.keys (deliveries.map Delivery.response) := by
  have passed := (Subscription.runAll_data query listener _ (interleaved.readable faithful)).1
  rw [List.map_map] at passed
  exact passed.trans (gatheredMessages_eq ((interleaved.parted faithful).sized.map Delivery.response))

section Arrival

variable {seen : List (Delivery ι)} {d : Delivery ι}

theorem Interleaved.passedAfter_append (faithful : proto.Faithful)
    (interleaved : Interleaved submission (seen ++ [d])) :
    passedAfter proto.keys query listener (seen ++ [d]) =
      passedAfter proto.keys query listener seen ++
        ((Gather.completed (ConsensusTopicResponse.groupKey proto.keys ∘ Delivery.response)
          (ConsensusTopicResponse.total ∘ Delivery.response) seen d).bind fun group =>
            (Message.ofGroup proto.keys (group.map Delivery.response)).toOption).toList := by
  rw [interleaved.passedAfter_eq query listener faithful,
    interleaved.initial.passedAfter_eq query listener faithful, List.map_append, List.map_singleton,
    completeMessages_append, Gather.completed_map, Option.bind_map]
  rfl

/-- The last chunk of a message passes it. -/
theorem Interleaved.passes (faithful : proto.Faithful)
    (interleaved : Interleaved submission (seen ++ [d]))
    (arrived : HasArrived submission (seen ++ [d]) d.message) :
    ∃ message, message.contents = (submission d.message).message ∧
      passedAfter proto.keys query listener (seen ++ [d]) =
        passedAfter proto.keys query listener seen ++ [message] := by
  have parted := interleaved.parted faithful
  obtain ⟨group, completed, rows, members⟩ := parted.completed_of_arrived arrived
  have reads : ∀ e ∈ group, ∃ id, (submission d.message).Reads e.row id e.response := by
    intro e inGroup
    obtain ⟨inSeen, same⟩ := members e inGroup
    obtain ⟨id, reads⟩ := (interleaved.answers e inSeen).reads faithful
    exact ⟨id, same ▸ reads⟩
  have nonempty : group.map Delivery.response ≠ [] := by
    intro none
    have lengths := rows.length_eq
    have inside := parted.inside d (List.mem_append_right _ (List.mem_singleton_self d))
    simp only [List.map_eq_nil_iff] at none
    simp only [none, List.map_nil, List.length_nil, List.length_range] at lengths
    omega
  have readable : ∀ response ∈ group.map Delivery.response, response.Readable proto.keys := by
    intro response inGroup
    obtain ⟨e, member, rfl⟩ := List.mem_map.mp inGroup
    obtain ⟨_, read⟩ := reads e member
    exact read.readable faithful
  obtain ⟨message, made, contents⟩ := Message.ofGroup_ok nonempty readable
  refine ⟨message, contents.trans (flatMap_sortChunks rows reads), ?_⟩
  rw [interleaved.passedAfter_append query listener faithful, completed]
  simp [made, Except.toOption]

/-- A chunk passes nothing while another one is missing. -/
theorem Interleaved.passes_nothing (faithful : proto.Faithful)
    (interleaved : Interleaved submission (seen ++ [d]))
    (missing : ¬ HasArrived submission (seen ++ [d]) d.message) :
    passedAfter proto.keys query listener (seen ++ [d]) =
      passedAfter proto.keys query listener seen := by
  rw [interleaved.passedAfter_append query listener faithful,
    (interleaved.parted faithful).completed_of_missing missing]
  exact List.append_nil _

/-- A chunk leaves the other messages as they were. -/
theorem hasArrived_append_other {i : ι} (differs : d.message ≠ i) :
    HasArrived submission (seen ++ [d]) i ↔ HasArrived submission seen i := by
  refine forall₂_congr fun r _ => ⟨?_, ?_⟩
  · rintro ⟨e, member, own, same⟩
    rcases List.mem_append.mp member with inSeen | last
    · exact ⟨e, inSeen, own, same⟩
    · rw [List.mem_singleton.mp last] at own
      exact absurd own differs
  · rintro ⟨e, inSeen, own, same⟩
    exact ⟨e, List.mem_append_left _ inSeen, own, same⟩

end Arrival

/-- The messages of which chunks arrived, all of them. -/
def IsComplete (submission : ι → Submission proto) (deliveries : List (Delivery ι)) (i : ι) : Prop :=
  (∃ d ∈ deliveries, d.message = i) ∧ HasArrived submission deliveries i

/-- Each complete message is passed once, at the arrival of its last chunk, as it was
submitted, and nothing else is passed. -/
structure PassesEachOnce (submission : ι → Submission proto) (query : TopicMessageQuery)
    (listener : Message → Option String) (deliveries : List (Delivery ι)) : Prop where
  once : ∃ order : List ι, order.Nodup ∧ (∀ i, i ∈ order ↔ IsComplete submission deliveries i) ∧
    List.Forall₂ (fun (message : Message) i => message.contents = (submission i).message)
      (passedAfter proto.keys query listener deliveries) order
  atLast : ∀ seen d rest, deliveries = seen ++ d :: rest →
    HasArrived submission (seen ++ [d]) d.message →
    ∃ message, message.contents = (submission d.message).message ∧
      passedAfter proto.keys query listener (seen ++ [d]) =
        passedAfter proto.keys query listener seen ++ [message]
  notBefore : ∀ seen d rest, deliveries = seen ++ d :: rest →
    ¬ HasArrived submission (seen ++ [d]) d.message →
    passedAfter proto.keys query listener (seen ++ [d]) =
      passedAfter proto.keys query listener seen

theorem Interleaved.passes_once (faithful : proto.Faithful)
    (interleaved : Interleaved submission deliveries) :
    ∃ order : List ι, order.Nodup ∧ (∀ i, i ∈ order ↔ IsComplete submission deliveries i) ∧
      List.Forall₂ (fun (message : Message) i => message.contents = (submission i).message)
        (passedAfter proto.keys query listener deliveries) order := by
  induction deliveries using List.reverseRecOn with
  | nil => exact ⟨[], List.nodup_nil, by simp [IsComplete], List.Forall₂.nil⟩
  | append_singleton seen d inductionHypothesis =>
      obtain ⟨order, different, members, passed⟩ := inductionHypothesis interleaved.initial
      have last : d ∈ seen ++ [d] := List.mem_append_right _ (List.mem_singleton_self d)
      have others : ∀ i, d.message ≠ i →
          (IsComplete submission (seen ++ [d]) i ↔ IsComplete submission seen i) := by
        intro i differs
        rw [IsComplete, IsComplete, hasArrived_append_other differs]
        simp [differs]
      have fresh : d.message ∉ order := fun member =>
        (interleaved.parted faithful).not_arrived ((members d.message).mp member).2
      by_cases arrived : HasArrived submission (seen ++ [d]) d.message
      · obtain ⟨message, contents, more⟩ := interleaved.passes query listener faithful arrived
        refine ⟨order ++ [d.message], ?_, fun i => ?_, ?_⟩
        · exact List.nodup_append.mpr ⟨different, List.nodup_singleton _, by
            rintro i inOrder j inLast rfl
            exact fresh (List.mem_singleton.mp inLast ▸ inOrder)⟩
        · by_cases same : d.message = i
          · subst same
            simp only [List.mem_append, List.mem_singleton, or_true, true_iff]
            exact ⟨⟨d, last, rfl⟩, arrived⟩
          · rw [others i same, List.mem_append, members]
            simp [Ne.symm same]
        · rw [more]
          exact List.rel_append passed (List.Forall₂.cons contents List.Forall₂.nil)
      · refine ⟨order, different, fun i => ?_, ?_⟩
        · by_cases same : d.message = i
          · subst same
            exact ⟨fun member => absurd member fresh, fun complete => absurd complete.2 arrived⟩
          · rw [others i same, members]
        · rw [interleaved.passes_nothing query listener faithful arrived]
          exact passed

/-- In whatever order chunks arrive, each message is passed once, with its last chunk. -/
theorem passes_each_once (faithful : proto.Faithful)
    (interleaved : Interleaved submission deliveries) :
    PassesEachOnce submission query listener deliveries where
  once := interleaved.passes_once query listener faithful
  atLast seen d rest whole arrived := by
    rw [whole, List.append_cons] at interleaved
    exact interleaved.initial.passes query listener faithful arrived
  notBefore seen d rest whole missing := by
    rw [whole, List.append_cons] at interleaved
    exact interleaved.initial.passes_nothing query listener faithful missing

end Deliveries

section Samples

open Transaction (sampleMessage)

/-- A message of two chunks, whose id starts at the second. -/
def sampleBefore (seconds : Int) (message : Bytes) : Transaction :=
  { sampleMessage message with
    transactionIds := { list := [.withValidStart (.ofNum 2) ⟨seconds, 0⟩], locked := true } }

theorem sampleBefore_freezes (seconds : Int) (message : Bytes)
    (returned : ((Transaction.freeze prefixProto ⟨0, 0⟩).run (sampleBefore seconds message)).1 = .ok ()) :
    ∃ client picked generated,
      (Transaction.freezeWith prefixProto client picked generated).run (sampleBefore seconds message) =
        (.ok (), ((Transaction.freeze prefixProto ⟨0, 0⟩).run (sampleBefore seconds message)).2) :=
  ⟨none, .ok [], ⟨0, 0⟩, Method.run_of_ok returned⟩

/-- Two messages of two chunks. -/
def sampleSubmission : Bool → Submission prefixProto
  | false =>
      { before := sampleBefore 5 [1, 2, 3]
        submit := { message := some [1, 2, 3], chunkSize := Nat.succPNat 1 }
        message := [1, 2, 3]
        tx := ((Transaction.freeze prefixProto ⟨0, 0⟩).run (sampleBefore 5 [1, 2, 3])).2
        data := rfl
        set := rfl
        frozen := sampleBefore_freezes 5 [1, 2, 3] (by decide +kernel) }
  | true =>
      { before := sampleBefore 6 [4, 5, 6]
        submit := { message := some [4, 5, 6], chunkSize := Nat.succPNat 1 }
        message := [4, 5, 6]
        tx := ((Transaction.freeze prefixProto ⟨0, 0⟩).run (sampleBefore 6 [4, 5, 6])).2
        data := rfl
        set := rfl
        frozen := sampleBefore_freezes 6 [4, 5, 6] (by decide +kernel) }

def sampleInitial (which : Bool) : TransactionId :=
  .withValidStart (.ofNum 2) ⟨if which then 6 else 5, 0⟩

def sampleDelivery (which : Bool) (row : Nat) : Delivery Bool where
  message := which
  row
  response :=
    { consensusTimestamp := some ⟨9, row⟩
      message := (sampleSubmission which).chunk row
      chunkInfo := some ⟨some ((sampleInitial which).toProtobuf prefixKeys), 2, row + 1⟩ }

/-- The chunks of two messages take turns, the second chunk of each first. -/
def sampleDeliveries : List (Delivery Bool) :=
  [sampleDelivery false 1, sampleDelivery true 1, sampleDelivery false 0, sampleDelivery true 0]

theorem two_messages_are_passed :
    PassesEachOnce sampleSubmission {} (fun _ => none) sampleDeliveries := by
  have first : ∀ which, (sampleSubmission which).initial = some (sampleInitial which) := by
    decide +kernel
  have nodes : ∀ which, 0 < (sampleSubmission which).tx.nodeAccountIds.list.length := by
    decide +kernel
  have carried : ∀ which, (sampleInitial which).Carried := by
    intro which
    cases which <;> exact ⟨by decide, by decide, by decide, fun _ none => by cases none⟩
  have answers : ∀ which, ∀ row < 2,
      (sampleSubmission which).Answers row (sampleDelivery which row).response := by
    intro which row inside
    have reads : (sampleSubmission which).Reads row (sampleInitial which)
        (sampleDelivery which row).response := {
      first := first which
      inside := by cases which <;> exact inside
      timestamp := ⟨_, rfl⟩
      message := rfl
      chunkInfo := by cases which <;> rfl }
    exact reads.answers prefixProto_faithful (nodes which)
  refine passes_each_once {} (fun _ => none) prefixProto_faithful ⟨?_, by decide, ?_, ?_⟩
  · simp only [sampleDeliveries, List.forall_mem_cons, List.not_mem_nil, false_implies, implies_true,
      and_true]
    exact ⟨answers _ 1 (by decide), answers _ 1 (by decide), answers _ 0 (by decide),
      answers _ 0 (by decide)⟩
  · intro d _ _ id named
    rw [first, Option.some.injEq] at named
    exact named ▸ carried d.message
  · intro d _ e _ differ _ _ id named other otherNamed
    rw [first, Option.some.injEq] at named otherNamed
    subst named otherNamed
    revert differ
    cases d.message <;> cases e.message <;> decide

end Samples

end HederaSdk.Topic
