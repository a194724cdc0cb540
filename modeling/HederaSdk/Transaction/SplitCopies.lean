import HederaSdk.Transaction.FileBytes
import HederaSdk.Transaction.Splitting

/-!
# Copies of unfrozen transactions with contents

The copy of an unfrozen file append takes its contents, chunk size and interval from
the chunks that it was written in; the copy of a topic message has the message and
none of the settings of its chunks. Both are split anew when they are frozen.
-/

namespace HederaSdk

open Library
open Js (Value Properties)

namespace Transaction

variable {proto : Proto} {append : FileAppend}

/-! ## Freezing the copy -/

/-- The lists that chunks are pushed to are not locked. -/
def Open (tx : Transaction) : Prop :=
  tx.transactionIds.locked = false ∧ tx.signedTransactions.locked = false

theorem pushSignedTransaction_returns (nodeId : AccountId) :
    Method.Triple Open (pushSignedTransaction proto nodeId) (fun _ => Open) fun _ _ => False := by
  refine .this fun tx isOpen => .bind (.ofExcept _ (fun list s pushed here => ?_) ?_) fun list =>
    .update (fun tx => { tx with signedTransactions := list }) fun s (h : Open s ∧ list.locked = false) => ⟨h.1.1, h.2⟩
  · rw [SdkList.push_of_unlocked isOpen.2] at pushed
    cases pushed
    exact ⟨here ▸ isOpen, isOpen.2⟩
  · intro e s failed _
    rw [SdkList.push_of_unlocked isOpen.2] at failed
    cases failed

theorem pushTransactionId_returns (id : TransactionId) :
    Method.Triple Open (pushTransactionId id) (fun _ => Open) fun _ _ => False := by
  refine .this fun tx isOpen => .bind (.ofExcept _ (fun list s pushed here => ?_) ?_) fun list =>
    .update (fun tx => { tx with transactionIds := list.advance }) fun s (h : Open s ∧ list.locked = false) => ⟨h.2, h.1.2⟩
  · rw [SdkList.push_of_unlocked isOpen.1] at pushed
    cases pushed
    exact ⟨here ▸ isOpen, isOpen.1⟩
  · intro e s failed _
    rw [SdkList.push_of_unlocked isOpen.1] at failed
    cases failed

/-- Building chunks throws nothing while the lists are not locked. -/
theorem buildChunks_returns {prepare : Nat → Transaction → Transaction}
    (prepares : ∀ chunk tx, Open tx → Open (prepare chunk tx)) (interval : Int) (remaining chunk : Nat)
    (id : TransactionId) :
    Method.Triple Open (buildChunks proto prepare interval remaining chunk id) (fun _ => Open)
      fun _ _ => False := by
  induction remaining generalizing chunk id with
  | zero => exact .pure _ fun _ h => h
  | succ remaining inductionHypothesis =>
      refine .bind (.update _ (prepares chunk)) fun _ => .bind (pushTransactionId_returns id) fun _ =>
        .this fun tx isOpen => .bind (M := fun _ => Open) ?_ fun _ => inductionHypothesis _ _
      refine (Method.Triple.forEach (fun _ => Open) (fun nodeId _ => pushSignedTransaction_returns nodeId)
        _).weaken ?_ (fun _ _ h => h) fun _ _ h => h
      rintro _ rfl
      exact isOpen

theorem run_buildChunks {prepare : Nat → Transaction → Transaction}
    (prepares : ∀ chunk tx, Open tx → Open (prepare chunk tx)) (interval : Int) (count : Nat)
    (id : TransactionId) {tx : Transaction} (isOpen : Open tx) :
    ∃ after, (buildChunks proto prepare interval count 0 id).run tx = (.ok (), after) := by
  have built := @buildChunks_returns proto _ prepares interval count 0 id tx isOpen
  rcases ran : (buildChunks proto prepare interval count 0 id).run tx with ⟨e | _, after⟩
  · rw [ran] at built
    exact built.elim
  · exact ⟨after, rfl⟩

theorem run_getTransactionId {tx : Transaction} {id : TransactionId}
    (current : tx.transactionIds.current = some id) :
    getTransactionId.run tx = (.ok id, { tx with transactionIds := tx.transactionIds.setLocked }) := by
  have some : tx.transactionIds.isEmpty = false := by
    cases list : tx.transactionIds.list with
    | nil => simp [SdkList.current, SdkList.get, list] at current
    | cons first rest => simp [SdkList.isEmpty, list]
  rw [getTransactionId, Method.run_this_bind, if_neg (by simp [some]), Method.run_update_bind, current]
  rfl

theorem freezeFileAppend_returns {append : FileAppend} {tx : Transaction}
    (current : tx.transactionIds.current ≠ none) (unlocked : tx.signedTransactions.locked = false) :
    ((freezeFileAppend proto append).run tx).1 = .ok () := by
  unfold freezeFileAppend
  split
  · rfl
  · rename_i contents set
    obtain ⟨id, current⟩ := Option.ne_none_iff_exists'.mp current
    rw [Method.run_bind_ok (run_getTransactionId current), Method.run_update_bind]
    obtain ⟨after, ran⟩ := @run_buildChunks proto _ (fun _ _ h => h) append.chunkInterval
      (requiredChunks contents.length append.chunkSize) id _
      (show Open (clearForChunks { tx with transactionIds := tx.transactionIds.setLocked }) from
        ⟨rfl, unlocked⟩)
    rw [Method.run_bind_ok ran]
    rfl

theorem freezeTopicMessage_returns {submit : TopicMessage} {tx : Transaction} {message : Bytes}
    (set : submit.message = some message)
    (few : (requiredChunks message.length submit.chunkSize : ℚ) ≤ submit.maxChunks)
    (current : tx.transactionIds.current ≠ none) (unlocked : tx.signedTransactions.locked = false) :
    ((freezeTopicMessage proto submit).run tx).1 = .ok () := by
  obtain ⟨id, current⟩ := Option.ne_none_iff_exists'.mp current
  simp only [freezeTopicMessage, set]
  rw [if_neg (not_lt.mpr few), Method.run_bind_ok (run_getTransactionId current), Method.run_update_bind]
  obtain ⟨after, ran⟩ := @run_buildChunks proto _
    (fun chunk tx h => show Open (setChunkInfo submit
      (some ⟨id, requiredChunks message.length submit.chunkSize, chunk + 1⟩) tx) from h) 1
    (requiredChunks message.length submit.chunkSize) id _
    (show Open (clearForChunks { tx with transactionIds := tx.transactionIds.setLocked }) from
      ⟨rfl, unlocked⟩)
  rw [Method.run_bind_ok ran]
  rfl

/-! ## The copy -/

/-- The subject of a transaction: its file or its topic. -/
def subject (tx : Transaction) : Option Value :=
  match tx.data with
  | .plain _ _ => none
  | .fileAppend append => append.fileId
  | .topicMessageSubmit submit => submit.topicId

/-- An unfrozen transaction with contents, as a user sets it up. -/
structure Unsplit (tx : Transaction) : Prop where
  immediate : tx.signOnDemand = false
  unsigned : tx.signedTransactions.list = []
  plain : ∀ value, tx.subject = some value → value.Plain
  unnumbered : ∀ submit, tx.data = .topicMessageSubmit submit → submit.chunkInfo = none
  long : ∀ nodeId ∈ tx.nodeAccountIds.list, nodeId.name.IsLong
  different : (tx.nodeAccountIds.list.map AccountId.identity).Nodup

theorem Unsplit.unfrozen {tx : Transaction} (unsplit : Unsplit tx) : tx.isFrozenOrOnDemand = false := by
  simp [isFrozenOrOnDemand, isFrozen, SdkList.length, unsplit.immediate, unsplit.unsigned]

/-- Bytes without a message are read as a message without fields. -/
structure ReadsNothing (proto : Proto) : Prop where
  transaction : ∀ transaction, proto.decodeTransaction (proto.encodeList []) = .ok transaction →
    transaction = {}
  body : ∀ body, proto.decodeBody [] = .ok body → proto.dataCase body = none
  undefined : proto.dataCase .undefined = none

variable {types : TypeReaders}

/-- A list without transactions is not read. -/
theorem fromBytes_nothing (faithful : proto.Faithful) (nothing : ReadsNothing proto)
    (copy : Transaction) : fromBytes proto types (proto.encodeList []) ≠ .ok copy := by
  intro read
  rw [fromBytes] at read
  obtain ⟨list, listing, read⟩ := except_bind_eq_ok.mp read
  obtain ⟨parsed, noting, read⟩ := except_bind_eq_ok.mp read
  have listIs : list = [proto.wrap { bodyBytes := [], sigMap := none }] := by
    rw [readList, faithful.list] at listing
    obtain ⟨_, empty, listing⟩ := except_bind_eq_ok.mp listing
    cases empty
    obtain ⟨transaction, decoded, listing⟩ := except_bind_eq_ok.mp listing
    rw [nothing.transaction transaction decoded] at listing
    exact (Except.ok.inj listing).symm
  subst listIs
  have none : proto.dataCase (bodyAt parsed.bodies 0) = none := by
    obtain ⟨one, first, rest⟩ := except_bind_eq_ok.mp noting
    cases rest
    obtain ⟨before, bare, signed⟩ := except_bind_eq_ok.mp first
    cases bare
    rw [noteSignedTransaction] at signed
    split at signed
    · cases signed
      exact nothing.undefined
    · simp only [Proto.wrap, faithful.signed, bind, Except.bind, noteBody] at signed
      cases decoded : proto.decodeBody [] with
      | error e => simp [decoded] at signed
      | ok body =>
          have unset := nothing.body body decoded
          simp only [decoded, unset, Option.isNone_none, if_true] at signed
          split at signed
          · cases signed
          · split at signed <;> cases signed
  rw [none] at read
  cases read

/-- The copy that is read from the bytes of a file append. -/
theorem fromBytes_fileBodies (faithful : proto.Faithful) {append : FileAppend} {now : Timestamp}
    {tx : Transaction} {contents : Bytes} (unsplit : Unsplit tx) (data : tx.data = .fileAppend append)
    (set : append.contents = some contents) (nonempty : 0 < append.chunks) :
    ∃ copied copy, CopiesFile contents append.chunkSize (fileBodies append now tx).readIds copied ∧
      fromBytes proto types (proto.encodeList ((fileBodies append now tx).cells.map (bare proto))) =
        .ok copy ∧ copy.data = .fileAppend copied ∧ Unbuilt copy := by
  have sound : (fileBodies append now tx).Sound :=
    sound_fileBodies (fun fileId is => unsplit.plain fileId (by rw [subject, data]; exact is))
      (AccountId.nodup_toString unsplit.long unsplit.different)
  obtain ⟨copied, read, copies⟩ := @readFileAppend_fileBodies append now tx contents set nonempty
    proto.keys
  have loaded := @BodyGrid.fromProtobufTransactions_bare proto _ sound
    { data := .fileAppend copied, defaultMaxTransactionFee := 500000000 }
  have class_ : fromBytes proto types
      (proto.encodeList ((fileBodies append now tx).cells.map (bare proto))) =
        fromProtobufTransactions proto { data := .fileAppend copied, defaultMaxTransactionFee := 500000000 }
          ((fileBodies append now tx).cells.map (bare proto))
          ((fileBodies append now tx).parsed proto.keys []) := by
    rw [BodyGrid.fromBytes_cells faithful sound (carriesAll_bare proto _) fun _ _ _ => rfl,
      readTransaction, read]
    rfl
  exact ⟨copied, _, copies, class_.trans loaded, rfl,
    fun none => absurd (none.symm.trans copies.whole) (by simp), rfl, fun _ => rfl, rfl, rfl⟩

/-- The copy that is read from the bytes of a topic message. -/
theorem fromBytes_topicMessage (faithful : proto.Faithful) {submit : TopicMessage} {tx : Transaction}
    {message : Bytes} (unsplit : Unsplit tx) (data : tx.data = .topicMessageSubmit submit)
    (set : submit.message = some message) :
    ∃ copied copy, copied.message = some message ∧ copied.maxChunks = 20 ∧ copied.chunkSize = 1024 ∧
      fromBytes proto types (proto.encodeList ((incompleteBodies proto tx).cells.map (bare proto))) =
        .ok copy ∧ copy.data = .topicMessageSubmit copied ∧ Unbuilt copy := by
  have value : tx.makeTransactionData proto = .object (.consSome "topicID" submit.topicId
      (.cons "message" (.bytes message) .nil)) := by
    rw [makeTransactionData, data]
    simp only [unsplit.unnumbered submit data, set]
    rfl
  have plain : (tx.makeTransactionData proto).Plain := by
    rw [value]
    exact Properties.plain_consSome
      (fun topicId is => unsplit.plain topicId (by rw [subject, data]; exact is))
      ⟨Js.plain_bytes _, trivial⟩
  have sound : (incompleteBodies proto tx).Sound := sound_incompleteBodies plain
    (AccountId.nodup_toString unsplit.long unsplit.different)
  have type : ∀ row id node,
      ((incompleteBodies proto tx).body row id node).dataCase = .consensusSubmitMessage := by
    intro row id node
    change tx.dataCase = _
    rw [Transaction.dataCase, data]
  obtain ⟨first, rest, cells⟩ := List.exists_cons_of_ne_nil (incompleteBodies proto tx).cells_ne_nil
  have firstData : (first.toObject proto.keys).get "consensusSubmitMessage" =
      tx.makeTransactionData proto := by
    have member : first ∈ (incompleteBodies proto tx).cells := cells ▸ List.mem_cons_self
    obtain ⟨row, _, node, _, same⟩ := Grid.mem_grid.mp member
    have shown := TransactionBody.get_data proto.keys first
    rw [← same] at shown ⊢
    rw [type] at shown
    exact shown
  have bodyIs : bodyAt ((incompleteBodies proto tx).parsed proto.keys []).bodies 0 =
      first.toObject proto.keys := by
    simp [BodyGrid.parsed, bodyAt, cells]
  have read : (readTopicMessage ((incompleteBodies proto tx).parsed proto.keys [])).message =
      some message := by
    simp only [readTopicMessage, bodyIs, firstData, value]
    cases submit.topicId <;> simp [Properties.consSome]
  have loaded := @BodyGrid.fromProtobufTransactions_bare proto _ sound
    { data := .topicMessageSubmit (readTopicMessage ((incompleteBodies proto tx).parsed proto.keys [])) }
  have class_ : fromBytes proto types
      (proto.encodeList ((incompleteBodies proto tx).cells.map (bare proto))) =
        fromProtobufTransactions proto
          { data := .topicMessageSubmit
              (readTopicMessage ((incompleteBodies proto tx).parsed proto.keys [])) }
          ((incompleteBodies proto tx).cells.map (bare proto))
          ((incompleteBodies proto tx).parsed proto.keys []) := by
    rw [BodyGrid.fromBytes_cells faithful sound (carriesAll_bare proto _) type]
    rfl
  exact ⟨_, _, read, rfl, rfl, class_.trans loaded, rfl,
    fun none => absurd (none.symm.trans read) (by simp), rfl, fun _ => rfl, rfl, rfl⟩

/-! ## Splitting the copy -/

theorem chunksOf_of_le {data : Bytes} {chunkSize : ℕ+} (nonempty : data ≠ [])
    (few : data.length ≤ chunkSize) : chunksOf data chunkSize = [data] := by
  have positive := List.length_pos_iff.mpr nonempty
  have one : requiredChunks data.length chunkSize = 1 := by
    rw [requiredChunks]
    exact Nat.div_eq_of_lt_le (by omega) (by omega)
  rw [chunksOf, one]
  simp [chunkOf, List.take_of_length_le few]

theorem two_le_requiredChunks {length : Nat} {chunkSize : ℕ+} (many : chunkSize < length) :
    2 ≤ requiredChunks length chunkSize := by
  have positive := chunkSize.pos
  rw [requiredChunks, Nat.le_div_iff_mul_le positive]
  omega

theorem coe_readChunkSize {length : Nat} (positive : 0 < length) :
    (readChunkSize length : Nat) = length := by
  have read : readChunkSize length = ⟨length, positive⟩ := dif_pos positive
  rw [read]
  rfl

/-- The size of the first chunk splits the contents at the same places. -/
theorem chunksOf_readChunkSize {contents : Bytes} (nonempty : contents ≠ []) (chunkSize : ℕ+) :
    chunksOf contents (readChunkSize (chunkOf contents chunkSize 0).length) =
      chunksOf contents chunkSize := by
  have positive := List.length_pos_iff.mpr nonempty
  have length : (chunkOf contents chunkSize 0).length = min (chunkSize : Nat) contents.length := by
    simp [chunkOf]
  rw [length]
  by_cases few : contents.length ≤ chunkSize
  · have whole := coe_readChunkSize positive
    rw [Nat.min_eq_right few, chunksOf_of_le nonempty few, chunksOf_of_le nonempty (by omega)]
  · rw [Nat.min_eq_left (by omega), PNat.eq (coe_readChunkSize chunkSize.pos)]

/-- The differences between the valid starts of neighbours, in seconds and nanoseconds. -/
def startGaps (ids : List TransactionId) : List (Int × Int) :=
  ids.zipWith (fun id next => (next.validStart.seconds - id.validStart.seconds,
    next.validStart.nanos - id.validStart.nanos)) ids.tail

theorem startGaps_chunkIds (interval : Int) (count : Nat) (id : TransactionId) :
    startGaps (chunkIds interval count id) = List.replicate (count - 1) (0, interval) := by
  induction count generalizing id with
  | zero => rfl
  | succ count inductionHypothesis =>
      cases count with
      | zero => rfl
      | succ count =>
          have rest := inductionHypothesis (nextChunkId interval id)
          have gap : startGaps (chunkIds interval (count + 2) id) =
              (0, interval) :: startGaps (chunkIds interval (count + 1) (nextChunkId interval id)) := by
            simp [startGaps, chunkIds, nextChunkId, TransactionId.withValidStart]
          rw [gap, rest]
          rfl

/-- A copy of the bytes has the whole contents, and freezing it splits them; a file is split
into the chunks, and at the spacing of the valid starts, of the frozen original. -/
def SplitsAlike (proto : Proto) (types : TypeReaders) (bytes : Bytes) (client : Option Client)
    (picked : Except JsError (List AccountId)) (generated : Timestamp) (tx original : Transaction) :
    Prop :=
  ∃ copy frozen chunks, fromBytes proto types bytes = .ok copy ∧
    copy.data.contents = tx.data.contents ∧
    (freezeWith proto client picked generated).run copy = (.ok (), frozen) ∧
    IsSplit proto frozen chunks ∧ tx.data.contents = some chunks.flatten ∧
    ∀ append, tx.data = .fileAppend append → IsSplit proto original chunks ∧
      startGaps frozen.transactionIds.list = startGaps original.transactionIds.list

/-- When the contents are split alike: a file is not empty, and has one chunk or an interval
that carries nothing into the seconds; a topic message fits 20 chunks of 1024 bytes. -/
def KeptBySplit (start : Timestamp) : TransactionData → Prop
  | .plain _ _ => False
  | .fileAppend append => ∃ contents, append.contents = some contents ∧ contents ≠ [] ∧
      (contents.length ≤ append.chunkSize ∨ Carryless start.nanos append.chunkInterval)
  | .topicMessageSubmit submit => ∃ message, submit.message = some message ∧ message.length ≤ 20480

section SplitsAlike

variable {client client' : Option Client} {picked picked' : Except JsError (List AccountId)}
  {generated generated' now : Timestamp} {bytes : Bytes} {tx tx' other original : Transaction}

theorem fileAppend_splitsAlike_iff (faithful : proto.Faithful) (nothing : ReadsNothing proto)
    (unsplit : Unsplit tx) {append : FileAppend} {contents : Bytes} (data : tx.data = .fileAppend append)
    (set : append.contents = some contents) (written : (toBytes proto now).run tx = (.ok bytes, tx'))
    (same : other.data = tx.data)
    (froze : (freezeWith proto client' picked' generated').run other = (.ok (), original))
    (ready : ∀ copy, fromBytes proto types bytes = .ok copy →
      ∃ based, (freezeBase proto client picked generated).run copy = (.ok (), based)) :
    SplitsAlike proto types bytes client picked generated tx original ↔
      contents ≠ [] ∧ (contents.length ≤ append.chunkSize ∨
        Carryless (firstStart now tx).2.nanos append.chunkInterval) := by
  have chunks : append.chunks = requiredChunks contents.length append.chunkSize := by
    rw [FileAppend.chunks, set]
  obtain rfl := toBytes_fileAppend_eq_ok unsplit.unfrozen data written
  by_cases empty : contents = []
  · subst empty
    refine iff_of_false ?_ (by simp)
    rintro ⟨copy, _, _, read, _⟩
    rw [if_pos (by rw [chunks]; exact requiredChunks_zero _)] at read
    exact fromBytes_nothing faithful nothing copy read
  · have positive := requiredChunks_pos (List.length_pos_iff.mpr empty) append.chunkSize
    rw [if_neg (by omega)] at ready ⊢
    obtain ⟨copied, copy, copies, read, copyData, unbuilt⟩ :=
      @fromBytes_fileBodies proto types faithful _ _ _ _ unsplit data set (by omega)
    obtain ⟨based, basing⟩ := ready copy read
    have copySet : copy.data.contents = some contents := by
      rw [copyData]
      exact copies.whole
    have otherSet : other.data.contents = some contents := by
      rw [same, data]
      exact set
    obtain ⟨originalSplit, _, _, originalIds⟩ := freezeWith_isSplit faithful otherSet froze
    rw [same, data] at originalSplit originalIds
    have sizes : chunksOf contents copy.data.chunkSize = chunksOf contents append.chunkSize := by
      rw [copyData]
      change chunksOf contents copied.chunkSize = _
      rw [copies.size]
      exact chunksOf_readChunkSize empty append.chunkSize
    have counts : requiredChunks contents.length copied.chunkSize =
        requiredChunks contents.length append.chunkSize := by
      have lengths := congrArg List.length sizes
      rw [length_chunksOf, length_chunksOf, copyData] at lengths
      exact lengths
    have gaps {frozen : Transaction}
        (ran : (freezeWith proto client picked generated).run copy = (.ok (), frozen)) :
        startGaps frozen.transactionIds.list = startGaps original.transactionIds.list ↔
          requiredChunks contents.length append.chunkSize ≤ 1 ∨
            readInterval (fileBodies append now tx).readIds = append.chunkInterval := by
      obtain ⟨_, _, _, ids⟩ := freezeWith_isSplit faithful copySet ran
      rw [ids, originalIds, copyData, ← copies.interval]
      change startGaps (chunkIds copied.chunkInterval (requiredChunks contents.length copied.chunkSize) _) =
        startGaps (chunkIds append.chunkInterval (requiredChunks contents.length append.chunkSize) _) ↔ _
      rw [startGaps_chunkIds, startGaps_chunkIds, counts, List.replicate_right_inj', Prod.mk.injEq]
      refine or_congr ?_ (and_iff_right rfl)
      omega
    have interval : requiredChunks contents.length append.chunkSize ≤ 1 ∨
        readInterval (fileBodies append now tx).readIds = append.chunkInterval ↔
          contents.length ≤ append.chunkSize ∨
            Carryless (firstStart now tx).2.nanos append.chunkInterval := by
      by_cases few : contents.length ≤ append.chunkSize
      · have one := congrArg List.length (chunksOf_of_le empty few)
        rw [length_chunksOf] at one
        exact iff_of_true (.inl (by rw [one]; simp)) (.inl few)
      · have many := two_le_requiredChunks (Nat.lt_of_not_le few)
        obtain ⟨count, countIs⟩ := Nat.exists_eq_add_of_le' many
        rw [or_iff_right (by omega), or_iff_right few, BodyGrid.readIds, fileBodies, chunks, countIs]
        exact readInterval_eq_iff _ _ _
    rw [and_iff_right empty, ← interval]
    constructor
    · rintro ⟨copy', frozen, _, read', _, ran, _, _, alike⟩
      obtain rfl := Except.ok.inj (read.symm.trans read')
      exact (gaps ran).mp (alike append data).2
    · intro kept
      have returned : ((freezeWith proto client picked generated).run copy).1 = .ok () := by
        obtain ⟨current, _, _, unlocked, _⟩ := unbuilt.current_of_freezeBase basing
        rw [freezeWith, Method.run_bind_ok basing, Method.run_this_bind, (freezeBase_frame basing).2.1,
          copyData]
        exact freezeFileAppend_returns current unlocked
      have ran := Method.run_of_ok returned
      refine ⟨copy, _, chunksOf contents append.chunkSize, read, ?_, ran, ?_, ?_, ?_⟩
      · rw [copySet, data]
        exact set.symm
      · rw [← sizes]
        exact (freezeWith_isSplit faithful copySet ran).1
      · rw [data, flatten_chunksOf]
        exact set
      · intro append' same'
        exact ⟨originalSplit, (gaps ran).mpr kept⟩

theorem topicMessage_splitsAlike_iff (faithful : proto.Faithful)
    (unsplit : Unsplit tx) {submit : TopicMessage} {message : Bytes}
    (data : tx.data = .topicMessageSubmit submit)
    (set : submit.message = some message) (written : (toBytes proto now).run tx = (.ok bytes, tx'))
    (ready : ∀ copy, fromBytes proto types bytes = .ok copy →
      ∃ based, (freezeBase proto client picked generated).run copy = (.ok (), based)) :
    SplitsAlike proto types bytes client picked generated tx original ↔ message.length ≤ 20480 := by
  obtain ⟨rfl, _⟩ := toBytes_incomplete_eq_ok unsplit.unfrozen (by rw [data]; simp) written
  obtain ⟨copied, copy, copiedSet, few, size, read, copyData, unbuilt⟩ :=
    @fromBytes_topicMessage proto types faithful _ _ _ unsplit data set
  obtain ⟨based, basing⟩ := ready copy read
  have copySet : copy.data.contents = some message := by
    rw [copyData]
    exact copiedSet
  have limit : (requiredChunks message.length copied.chunkSize : ℚ) ≤ copied.maxChunks ↔
      message.length ≤ 20480 := by
    have division : requiredChunks message.length 1024 ≤ 20 ↔ message.length ≤ 20480 := by
      change (message.length + 1023) / 1024 ≤ 20 ↔ _
      omega
    rw [few, size, ← division]
    exact_mod_cast Iff.rfl
  have inner : (freezeWith proto client picked generated).run copy =
      (freezeTopicMessage proto copied).run based := by
    rw [freezeWith, Method.run_bind_ok basing, Method.run_this_bind, (freezeBase_frame basing).2.1,
      copyData]
  constructor
  · rintro ⟨copy', frozen, _, read', _, ran, _⟩
    obtain rfl := Except.ok.inj (read.symm.trans read')
    rw [inner] at ran
    exact limit.mp (freezeTopicMessage_eq_ok copiedSet ran).1
  · intro short
    have returned : ((freezeWith proto client picked generated).run copy).1 = .ok () := by
      obtain ⟨current, _, _, unlocked, _⟩ := unbuilt.current_of_freezeBase basing
      rw [inner]
      exact freezeTopicMessage_returns copiedSet (limit.mpr short) current unlocked
    have ran := Method.run_of_ok returned
    refine ⟨copy, _, chunksOf message copy.data.chunkSize, read, ?_, ran,
      (freezeWith_isSplit faithful copySet ran).1, ?_, ?_⟩
    · rw [copySet, data]
      exact set.symm
    · rw [data, flatten_chunksOf]
      exact set
    · intro append other
      rw [data] at other
      cases other

/-- The copy of an unfrozen transaction is split as the transaction exactly when the condition
on its settings holds. -/
theorem copy_splitsAlike_iff (faithful : proto.Faithful) (nothing : ReadsNothing proto)
    (unsplit : Unsplit tx) (written : (toBytes proto now).run tx = (.ok bytes, tx'))
    (same : other.data = tx.data)
    (froze : (freezeWith proto client' picked' generated').run other = (.ok (), original))
    (ready : ∀ copy, fromBytes proto types bytes = .ok copy →
      ∃ based, (freezeBase proto client picked generated).run copy = (.ok (), based)) :
    SplitsAlike proto types bytes client picked generated tx original ↔
      KeptBySplit (firstStart now tx).2 tx.data := by
  cases set : tx.data.contents with
  | none =>
      refine iff_of_false ?_ ?_
      · rintro ⟨_, _, _, _, _, _, _, whole, _⟩
        rw [set] at whole
        cases whole
      · intro kept
        cases data : tx.data with
        | plain dataCase value => simp [data, KeptBySplit] at kept
        | fileAppend append =>
            rw [data] at set kept
            obtain ⟨contents, is, _⟩ := kept
            exact absurd (set.symm.trans is) (by simp)
        | topicMessageSubmit submit =>
            rw [data] at set kept
            obtain ⟨message, is, _⟩ := kept
            exact absurd (set.symm.trans is) (by simp)
  | some contents =>
      cases data : tx.data with
      | plain dataCase value => simp [data, TransactionData.contents] at set
      | fileAppend append =>
          have set' : append.contents = some contents := by rw [← set, data]; rfl
          rw [fileAppend_splitsAlike_iff faithful nothing unsplit data set' written same froze ready]
          simp [KeptBySplit, set']
      | topicMessageSubmit submit =>
          have set' : submit.message = some contents := by rw [← set, data]; rfl
          rw [topicMessage_splitsAlike_iff faithful unsplit data set' written ready]
          simp [KeptBySplit, set']

end SplitsAlike

section Samples

theorem prefixProto_readsNothing : ReadsNothing prefixProto where
  transaction transaction decoded := by
    have failed : (prefixProto.decodeTransaction (prefixProto.encodeList [])).toOption = none := by
      decide +kernel
    rw [decoded] at failed
    cases failed
  body body decoded := by
    have failed : (prefixProto.decodeBody []).toOption = none := by decide +kernel
    rw [decoded] at failed
    cases failed
  undefined := rfl

/-- Three bytes for a file, two in a chunk, before it is frozen. -/
def sampleAppend (start : Timestamp) : Transaction where
  nodeAccountIds := { list := [.ofNum 3], locked := true }
  transactionIds := { list := [.withValidStart (.ofNum 2) start], locked := true }
  data := .fileAppend { contents := some [1, 2, 3], chunkSize := Nat.succPNat 1 }

theorem unsplit_sampleAppend (start : Timestamp) : Unsplit (sampleAppend start) where
  immediate := rfl
  unsigned := rfl
  plain := by simp [subject, sampleAppend]
  unnumbered := by simp [sampleAppend]
  long := by
    change ∀ nodeId ∈ [AccountId.ofNum 3], nodeId.name.IsLong
    decide
  different := by
    change ([AccountId.ofNum 3].map AccountId.identity).Nodup
    decide

/-- The bytes of the unfrozen sample. -/
def savedAppend (start : Timestamp) : Bytes :=
  prefixProto.encodeList
    ((fileBodies { contents := some [1, 2, 3], chunkSize := Nat.succPNat 1 } ⟨0, 0⟩ (sampleAppend start)).cells.map
      (bare prefixProto))

/-- The sample as it is frozen without a copy. -/
def frozenAppend (start : Timestamp) : Transaction :=
  ((freezeWith prefixProto none (.ok []) ⟨0, 0⟩).run (sampleAppend start)).2

theorem ready_of_frozen {bytes : Bytes} (ready : (fromBytes prefixProto wholeMessage bytes).toOption.any
    (fun copy => decide (((freezeBase prefixProto none (.ok []) ⟨0, 0⟩).run copy).1 = .ok ())) = true) :
    ∀ copy, fromBytes prefixProto wholeMessage bytes = .ok copy →
      ∃ based, (freezeBase prefixProto none (.ok []) ⟨0, 0⟩).run copy = (.ok (), based) := by
  intro copy read
  rw [read] at ready
  exact ⟨_, Method.run_of_ok (of_decide_eq_true ready)⟩

theorem three_bytes_are_split_alike :
    SplitsAlike prefixProto wholeMessage (savedAppend ⟨5, 0⟩) none (.ok []) ⟨0, 0⟩
      (sampleAppend ⟨5, 0⟩) (frozenAppend ⟨5, 0⟩) := by
  have written : ((toBytes prefixProto ⟨0, 0⟩).run (sampleAppend ⟨5, 0⟩)).1 =
      .ok (savedAppend ⟨5, 0⟩) := by decide +kernel
  have froze : ((freezeWith prefixProto none (.ok []) ⟨0, 0⟩).run (sampleAppend ⟨5, 0⟩)).1 = .ok () := by
    decide +kernel
  exact (copy_splitsAlike_iff prefixProto_faithful prefixProto_readsNothing
    (unsplit_sampleAppend ⟨5, 0⟩) (Method.run_of_ok written) rfl (Method.run_of_ok froze)
    (ready_of_frozen (by decide +kernel))).mpr ⟨[1, 2, 3], rfl, by decide, .inr (by decide)⟩

/-- The second chunk starts in the next second: the interval of the copy is negative. -/
theorem carried_interval_is_lost :
    (toBytes prefixProto ⟨0, 0⟩).run (sampleAppend ⟨5, 999999995⟩) =
      (.ok (savedAppend ⟨5, 999999995⟩),
        ((toBytes prefixProto ⟨0, 0⟩).run (sampleAppend ⟨5, 999999995⟩)).2) ∧
      (freezeWith prefixProto none (.ok []) ⟨0, 0⟩).run (sampleAppend ⟨5, 999999995⟩) =
        (.ok (), frozenAppend ⟨5, 999999995⟩) ∧
      ¬ SplitsAlike prefixProto wholeMessage (savedAppend ⟨5, 999999995⟩) none (.ok []) ⟨0, 0⟩
        (sampleAppend ⟨5, 999999995⟩) (frozenAppend ⟨5, 999999995⟩) := by
  have written : ((toBytes prefixProto ⟨0, 0⟩).run (sampleAppend ⟨5, 999999995⟩)).1 =
      .ok (savedAppend ⟨5, 999999995⟩) := by decide +kernel
  have froze : ((freezeWith prefixProto none (.ok []) ⟨0, 0⟩).run
      (sampleAppend ⟨5, 999999995⟩)).1 = .ok () := by decide +kernel
  refine ⟨Method.run_of_ok written, Method.run_of_ok froze, fun alike => ?_⟩
  have kept := (fileAppend_splitsAlike_iff prefixProto_faithful prefixProto_readsNothing
    (unsplit_sampleAppend ⟨5, 999999995⟩) rfl rfl (Method.run_of_ok written) rfl (Method.run_of_ok froze)
    (ready_of_frozen (by decide +kernel))).mp alike
  exact absurd kept (by decide)

end Samples

end Transaction

end HederaSdk
