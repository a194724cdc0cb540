import HederaSdk.Transaction.Splitting
import Mathlib.Data.List.Forall2

/-!
# Messages signed on demand

At once, every execution of a message submits one of its chunks. On demand the body
is built when the request is made, from data that freezing has left without a chunk
info, so each execution submits the same data: the whole message.
-/

namespace HederaSdk.Transaction

open Library Network ExecutableClass
open Js (Value)

variable {proto : Proto}

/-! ## The chunks of a message -/

/-- The body that a request carries. -/
def bodyOf (proto : Proto) (request : ProtoTransaction) : Except JsError Value := do
  let signed ← proto.decodeSigned request.signedTransactionBytes
  proto.decodeBody signed.bodyBytes

theorem bodyOf_wrap (faithful : proto.Faithful) (signed : SignedTransaction) :
    bodyOf proto (proto.wrap signed) = proto.decodeBody signed.bodyBytes := by
  rw [bodyOf, Proto.wrap, faithful.signed]
  rfl

/-- The request carries the chunk with the number: its id, its slice and its info. -/
def CarriesChunk (proto : Proto) (submit : TopicMessage) (message : Bytes) (initial : TransactionId)
    (chunk : Nat) (request : ProtoTransaction) : Prop :=
  ∃ value id, bodyOf proto request = .ok value ∧
    (chunkIds 1 (requiredChunks message.length submit.chunkSize) initial)[chunk]? = some id ∧
    value.get "transactionID" = id.toProtobuf proto.keys ∧
    value.get "consensusSubmitMessage" = topicChunk proto submit message initial
      (requiredChunks message.length submit.chunkSize) chunk

/-- There is one execution for each chunk, in order, and it has submitted the chunk. -/
def SubmitsChunks (proto : Proto) (submit : TopicMessage) (message : Bytes) (initial : TransactionId)
    (log : List (List (Event ProtoTransaction))) : Prop :=
  List.Forall₂ (fun chunk events => ∃ request, accepted events = [request] ∧
      CarriesChunk proto submit message initial chunk request)
    (List.range (requiredChunks message.length submit.chunkSize)) log

/-- The chunks are numbered, so no two are shown alike. -/
theorem topicChunk_injective (submit : TopicMessage) (message : Bytes) (initial : TransactionId)
    (total : Nat) : Function.Injective (topicChunk proto submit message initial total) := by
  intro first second same
  have number := congrArg (fun value => ((value.get "chunkInfo").get "number").toNumber?) same
  cases topic : submit.topicId <;>
    simpa [topicChunk, ChunkInfo.toProtobuf, Js.Properties.consSome, topic, Value.toNumber?]
      using number

/-! ## The data on demand -/

/-- The transaction is signed on demand and has the data. -/
def HasData (data : TransactionData) (tx : Transaction) : Prop :=
  tx.signOnDemand = true ∧ tx.data = data

/-- The message data of a body is that of the topic message. -/
def ShowsData (proto : Proto) (shown : Value) (request : ProtoTransaction) : Prop :=
  ∃ value, bodyOf proto request = .ok value ∧ value.get "consensusSubmitMessage" = shown

/-- The data of a topic message as a body shows it. -/
def topicData (proto : Proto) (submit : TopicMessage) : Value :=
  makeTransactionData proto { data := .topicMessageSubmit submit }

section Attempt

variable {sha384 : Bytes → Bytes} {startTime : ℚ} {delay : Executable → ℚ}
  {input : Attempt (Option Int)} {run run' : Run Transaction ProtoTransaction}
  {data : TransactionData} {submit : TopicMessage}

theorem hasData_made {tx tx' : Transaction} {moment : Nat} {request : ProtoTransaction}
    (has : HasData data tx) (made : (makeRequestAsync proto moment).run tx = (.ok request, tx')) :
    HasData data tx' := by
  obtain ⟨pairs, _, _, rfl⟩ := makeRequestAsync_onDemand has.1 made
  exact has

theorem showsData_made (faithful : proto.Faithful) {tx tx' : Transaction} {moment : Nat}
    {request : ProtoTransaction} (has : HasData (.topicMessageSubmit submit) tx)
    (made : (makeRequestAsync proto moment).run tx = (.ok request, tx')) :
    ShowsData proto (topicData proto submit) request := by
  obtain ⟨pairs, _, rfl, _⟩ := makeRequestAsync_onDemand has.1 made
  refine ⟨_, (bodyOf_wrap faithful _).trans (faithful.body _), ?_⟩
  have shown := TransactionBody.get_data proto.keys (tx.makeTransactionBody proto tx.nodeAccountIds.current)
  have name : (tx.makeTransactionBody proto tx.nodeAccountIds.current).dataCase.name =
      "consensusSubmitMessage" := by
    change tx.dataCase.name = _
    rw [dataCase, has.2]
    rfl
  have same : (tx.makeTransactionBody proto tx.nodeAccountIds.current).data = topicData proto submit := by
    change tx.makeTransactionData proto = _
    simp only [makeTransactionData, topicData, has.2]
  rwa [name, same] at shown

theorem hasData_shouldRetry (precheckCode : Option Int) (generated : Timestamp) :
    Method.Keeps (HasData data) (shouldRetry precheckCode generated) := by
  refine .bind (.ofExcept _) fun status => .bind .this fun tx => ?_
  refine .ite (.pure _) (.ite (.pure _) (.ite (.ite (.pure _) ?_) (.pure _)))
  refine .bind (.update fun tx has => ?_) fun _ => .pure _
  unfold buildNewTransactionIdList
  split <;> exact has

theorem HasData.again (has : HasData data run.request)
    (attempt : (executableClass proto sha384).Attempted startTime delay input run (.ok .again) run') :
    HasData data run'.request :=
  attempt.request_again has (fun _ _ _ has => has) (fun _ _ _ has made => hasData_made has made)
    (fun _ has => has) (fun _ has => has)
    fun s _ response _ has => hasData_shouldRetry response input.regenerated s has

/-- Every request that was handed out shows the data. -/
def AllShow (proto : Proto) (shown : Value) (events : List (Event ProtoTransaction)) : Prop :=
  ∀ node nodeId request time, .sent node nodeId request time ∈ events → ShowsData proto shown request

theorem AllShow.attempt (faithful : proto.Faithful)
    (has : HasData (.topicMessageSubmit submit) run.request)
    (all : AllShow proto (topicData proto submit) run.events)
    {outcome : Except JsError (Step TransactionResponse)}
    (attempt : (executableClass proto sha384).Attempted startTime delay input run outcome run') :
    AllShow proto (topicData proto submit) run'.events := by
  obtain ⟨more, events, tail, _⟩ := attempt.events
  intro node nodeId request time member
  rw [events, List.mem_append] at member
  rcases member with before | behind
  · exact all _ _ _ _ before
  · cases tail with
    | nothing => simp at behind
    | gaveUp => simp at behind
    | @sent id r request' chosen made answers prepared healthy answered =>
        rcases List.mem_cons.mp behind with same | later
        · cases same
          have known := request_chosen (J := HasData (.topicMessageSubmit submit)) prepared.choice has
            fun _ _ _ has => has
          exact showsData_made faithful known (made_of_ok prepared.making).2
        · have answer := answered _ later
          simp [Event.isAnswer] at answer

end Attempt

/-! ## The executions -/

section Execute

variable {sha384 : Bytes → Bytes} {client : Client} {requestTimeout : Option ℚ}
  {data : TransactionData} {submit : TopicMessage}

theorem hasData_signWith (key : PublicKey) (signer : Signer) (moment : Nat) :
    Method.Keeps (HasData data) (signWith key signer moment) :=
  .bind (.bind .this fun _ => .ite (.pure _) (.throwing _)) fun _ => .bind .this fun _ =>
    .ite (.pure _) (.bind (.update fun _ h => h) fun _ => .ite (.update fun _ h => h)
      (.bind (.update fun _ h => h) fun _ => .bind (.update fun _ h => h) fun _ => .ofExcept _))

theorem HasData.frozen {tx : Transaction} (has : HasData data tx) : tx.isFrozenOrOnDemand = true := by
  rw [isFrozenOrOnDemand, has.1, Bool.true_or]

theorem hasData_prepareOn (input : Preparation) (net : Network) {tx : Transaction}
    (has : HasData data tx) : HasData data ((prepareOn proto client input).run (tx, net)).2.1 := by
  change HasData data ((beforeExecute proto client _ _ _ _).run tx).2
  rw [beforeExecute, Method.run_update_bind, freezeAndSign,
    Method.run_bind_ok (run_freezeForExecution client _ _ (by exact has.frozen))]
  have keeps : Method.Keeps (HasData data) (do
      validateOwnChecksums client input.checksums
      Method.update (takeOperator client)
      signWithOwnOperator input.moment) := by
    refine .bind (keeps_validateOwnChecksums client _) fun _ => .bind (.update fun _ has => has)
      fun _ => .bind .this fun tx => ?_
    cases tx.operator with
    | none => exact .pure _
    | some operator => exact hasData_signWith _ _ _
  exact keeps _ has

/-- An execution hands out nothing but the data, and leaves it when it returns. -/
structure Shows (proto : Proto) (submit : TopicMessage) (outcome : Except JsError TransactionResponse)
    (run' : Run Transaction ProtoTransaction) : Prop where
  all : AllShow proto (topicData proto submit) run'.events
  kept : ∀ response, outcome = .ok response → HasData (.topicMessageSubmit submit) run'.request

theorem execute_shows (faithful : proto.Faithful) {schedule : Schedule Preparation (Option Int)}
    {tx : Transaction} (has : HasData (.topicMessageSubmit submit) tx)
    {outcome : Except JsError TransactionResponse} {run' : Run Transaction ProtoTransaction}
    (ran : ((executableClass proto sha384).execute client requestTimeout schedule).run
      (Run.start client tx) = (outcome, run')) : Shows proto submit outcome run' := by
  rcases preparing : ((executableClass proto sha384).prepare client requestTimeout schedule).run
    (Run.start client tx) with ⟨e | _, prepared⟩
  · obtain ⟨events, -⟩ := run_prepare preparing
    rw [ExecutableClass.execute, Method.run_bind_error preparing] at ran
    cases ran
    exact ⟨by simp [AllShow, events, Run.start], fun _ same => by cases same⟩
  · have none : prepared.events = [] := (run_prepare preparing).1
    obtain ⟨before, ready, same⟩ := prepared_eq_ok preparing
    have start := @hasData_prepareOn proto client _ schedule.preparation client.network
      { tx with toExecutable := tx.toExecutable.setTimeout client requestTimeout } has
    rw [ready] at start
    rw [run_execute preparing] at ran
    refine retryLoop_rule (I := fun _ _ run => HasData (.topicMessageSubmit submit) run.request ∧
        AllShow proto (topicData proto submit) run.events)
      (Q := Shows proto submit) ?_ ?_ ⟨by rw [same]; exact start, by simp [AllShow, none]⟩
      (allAttempts_true _ _ _) ran
    · rintro remaining number run ⟨has, all⟩ _ outcome run' attempt
      have after := all.attempt faithful has attempt
      rcases outcome with e | _ | response
      · exact ⟨after, fun _ same => by cases same⟩
      · exact ⟨has.again attempt, after⟩
      · refine ⟨after, fun _ _ => ?_⟩
        cases attempt with
        | @sent id r request chosen made _ _ prepared healthy judging =>
            obtain ⟨_, status, accepted, final, _, verdict, mapping, _, last⟩ :=
              finished_judged judging
            obtain rfl := shouldRetry_finished verdict
            obtain ⟨_, _, _, rfl⟩ := mapResponse_eq_ok mapping
            have known := request_chosen (J := HasData (.topicMessageSubmit submit)) prepared.choice has
              fun _ _ _ has => has
            have kept : HasData (.topicMessageSubmit submit) made.request :=
              hasData_made known (made_of_ok prepared.making).2
            rw [last]
            exact kept
    · exact fun _ run e h => ⟨h.2, fun _ same => by cases same⟩

namespace Session

/-- All that was handed out shows the data. -/
def LogShows (proto : Proto) (shown : Value) (session : Session) : Prop :=
  ∀ events ∈ session.log, AllShow proto shown events

theorem executeOne_shows (faithful : proto.Faithful) (schedule : Schedule Preparation (Option Int)) :
    Method.Triple
      (fun session => HasData (.topicMessageSubmit submit) session.tx ∧
        LogShows proto (topicData proto submit) session)
      (executeOne proto sha384 client requestTimeout schedule)
      (fun _ session => HasData (.topicMessageSubmit submit) session.tx ∧
        LogShows proto (topicData proto submit) session)
      (fun _ => LogShows proto (topicData proto submit)) := by
  rintro session ⟨has, all⟩
  rcases executing : ((executableClass proto sha384).execute { client with network := session.network }
    requestTimeout schedule).run (Run.start { client with network := session.network } session.tx)
    with ⟨outcome, run'⟩
  have shows := execute_shows faithful has executing
  have logged : ∀ events ∈ session.log ++ [run'.events], AllShow proto (topicData proto submit) events :=
    List.forall_mem_append.mpr ⟨all, by simpa using shows.all⟩
  simp only [executeOne, Method.run] at executing ⊢
  rw [executing]
  cases outcome with
  | error e => exact logged
  | ok response => exact ⟨shows.kept response rfl, logged⟩

theorem awaitReceipt_shows (schedule : ChunksSchedule) (number : Nat) (shown : Value) :
    Method.Triple
      (fun session => HasData data session.tx ∧ LogShows proto shown session)
      (awaitReceipt schedule number)
      (fun _ session => HasData data session.tx ∧ LogShows proto shown session)
      (fun _ => LogShows proto shown) := by
  refine .this fun session start => ?_
  cases session.tx.data with
  | fileAppend append =>
      refine .bind (M := fun _ session => HasData data session.tx ∧ LogShows proto shown session)
        (.update _ fun _ same => ?_) fun _ => .ofExcept _ (fun _ _ _ h => h) fun _ _ _ h => h.2
      subst same
      exact start
  | plain dataCase data' => exact .pure _ fun _ same => same ▸ start
  | topicMessageSubmit submit' => exact .pure _ fun _ same => same ▸ start

theorem executeEach_shows (faithful : proto.Faithful) (schedule : ChunksSchedule)
    (remaining number : Nat) :
    Method.Triple
      (fun session => HasData (.topicMessageSubmit submit) session.tx ∧
        LogShows proto (topicData proto submit) session)
      (executeEach proto sha384 client schedule remaining number requestTimeout)
      (fun _ => LogShows proto (topicData proto submit))
      (fun _ => LogShows proto (topicData proto submit)) := by
  induction remaining generalizing number requestTimeout with
  | zero => exact .pure _ fun _ h => h.2
  | succ remaining inductionHypothesis =>
      exact .bind (executeOne_shows faithful _) fun _ => .bind (awaitReceipt_shows schedule number _)
        fun _ => .bind (inductionHypothesis (number + 1)) fun _ => .pure _ fun _ h => h

/-! ### Before the executions -/

theorem keeps_onTransaction {α : Type} {J : Transaction → Prop} {m : TransactionMethod α}
    (keeps : Method.Keeps J m) (log : List (List (Event ProtoTransaction))) :
    Method.Keeps (fun session => J session.tx ∧ session.log = log) (onTransaction m) :=
  fun session h => ⟨keeps session.tx h.1, h.2⟩

theorem hasData_getTransactionId : Method.Keeps (HasData data) getTransactionId := by
  refine .bind .this fun tx => .ite (.throwing _) (.bind (.update fun _ has => has) fun _ => ?_)
  cases tx.transactionIds.current with
  | some id => exact .pure _
  | none => exact .throwing _

theorem run_freezeOn_frozen (input : Preparation) {session : Session}
    (frozen : session.tx.isFrozenOrOnDemand = true) :
    (freezeOn proto client input).run session = (.ok (), session) := by
  have skipped (picked : Except JsError (List AccountId)) :=
    @run_freezeForExecution proto client picked input.generated _ frozen
  have unasked : session.tx.asksForNodes = false := by simp [asksForNodes, frozen]
  simp only [Method.run] at skipped
  simp only [freezeOn, Method.run, skipped, unasked]
  rfl

theorem hasData_signWithOperator (input : Preparation) (log : List (List (Event ProtoTransaction))) :
    Method.Keeps (fun session => HasData data session.tx ∧ session.log = log)
      (signWithOperator proto client input) := by
  rw [signWithOperator]
  cases client.operator with
  | none => exact .throwing _
  | some operator =>
      refine .bind (fun session h => ?_) fun _ => keeps_onTransaction (hasData_signWith _ _ _) log
      rw [run_freezeOn_frozen input h.1.frozen]
      exact h

theorem log_freezeOn (input : Preparation) (session : Session) :
    ((freezeOn proto client input).run session).2.log = session.log := rfl

/-- What a freezing in a session does to the transaction. -/
theorem freezeOn_freezes {input : Preparation} {session after : Session}
    (ran : (freezeOn proto client input).run session = (.ok (), after)) :
    ∃ picked, (freezeForExecution proto client picked input.generated).run session.tx =
      (.ok (), after.tx) := by
  let asked : Except JsError (List AccountId) × Network :=
    if session.tx.asksForNodes then
      (Network.getNodeAccountIdsForExecute input.draws input.now).run session.network
    else (.ok [], session.network)
  have outcome : ((freezeForExecution proto client asked.1 input.generated).run session.tx).1 = .ok () :=
    congrArg Prod.fst ran
  have left : ((freezeForExecution proto client asked.1 input.generated).run session.tx).2 = after.tx :=
    congrArg (fun result => result.2.tx) ran
  exact ⟨asked.1, Prod.ext outcome left⟩

/-- The first freezing leaves a message that is signed on demand. -/
theorem freezeOn_hasData {message : Bytes} {input : Preparation} {session after : Session}
    (is : session.tx.data = .topicMessageSubmit submit) (set : submit.message = some message)
    (onDemand : session.tx.signOnDemand = true ∨
      session.tx.isFrozen = false ∧ client.signOnDemand = true)
    (ran : (freezeOn proto client input).run session = (.ok (), after)) :
    ∃ submit', HasData (.topicMessageSubmit submit') after.tx := by
  cases mode : session.tx.signOnDemand with
  | true =>
      have has : HasData (.topicMessageSubmit submit) session.tx := ⟨mode, is⟩
      rw [run_freezeOn_frozen input has.frozen] at ran
      cases ran
      exact ⟨submit, has⟩
  | false =>
      obtain ⟨unfrozen, client_⟩ := onDemand.resolve_left (by simp [mode])
      have skips : session.tx.isFrozenOrOnDemand = false := by
        rw [isFrozenOrOnDemand, mode, unfrozen, Bool.or_false]
      obtain ⟨picked, freezing⟩ := freezeOn_freezes ran
      rw [freezeForExecution, Method.run_this_bind, if_neg (by simp [skips])] at freezing
      obtain ⟨based, basing, splits⟩ := freezeWith_eq_ok (by rw [is]; exact set) freezing
      obtain ⟨_, same, modeIs⟩ := freezeBase_frame basing
      refine ⟨{ submit with chunkInfo := none }, splits.mode.trans (modeIs.trans client_), ?_⟩
      rw [splits.data, same, is]
      rfl

theorem log_prepareAll (schedule : ChunksSchedule) (log : List (List (Event ProtoTransaction))) :
    Method.Keeps (fun session => session.log = log) (prepareAll proto client schedule) := by
  have freezes (input : Preparation) :
      Method.Keeps (fun session => session.log = log) (freezeOn proto client input) := fun _ h => h
  have calls {α : Type} (m : TransactionMethod α) :
      Method.Keeps (fun session => session.log = log) (onTransaction m) := fun _ h => h
  refine .bind .this fun _ => .bind (.ofExcept _) fun _ => .bind (freezes _) fun _ =>
    .bind (calls _) fun _ => .ite ?_ (.pure _)
  rw [signWithOperator]
  cases client.operator with
  | none => exact .throwing _
  | some operator => exact .bind (freezes _) fun _ => calls _

theorem prepareAll_hasData {message : Bytes} {schedule : ChunksSchedule} {session prepared : Session}
    (is : session.tx.data = .topicMessageSubmit submit) (set : submit.message = some message)
    (onDemand : session.tx.signOnDemand = true ∨
      session.tx.isFrozen = false ∧ client.signOnDemand = true)
    (ran : (prepareAll proto client schedule).run session = (.ok (), prepared)) :
    ∃ submit', HasData (.topicMessageSubmit submit') prepared.tx := by
  have checks : checkExecutable session.tx = .ok () := by rw [checkExecutable, is]
  rw [prepareAll, Method.run_this_bind, checks,
    Method.run_bind_ok (Method.run_ofExcept_ok _ _)] at ran
  obtain ⟨_, ready, freezing, locks⟩ := Method.run_bind_eq_ok.mp ran
  obtain ⟨submit', has⟩ := freezeOn_hasData is set onDemand freezing
  refine ⟨submit', ?_⟩
  have keeps : Method.Keeps
      (fun session => HasData (.topicMessageSubmit submit') session.tx ∧ session.log = ready.log) (do
        let id ← onTransaction getTransactionId
        if isOwn client id then signWithOperator proto client schedule.signing else pure ()) :=
    .bind (keeps_onTransaction hasData_getTransactionId _) fun _ =>
      .ite (hasData_signWithOperator _ _) (.pure _)
  have kept := keeps ready ⟨has, rfl⟩
  rw [locks] at kept
  exact kept.1

end Session

end Execute

/-! ## What is submitted -/

theorem mem_of_accepted {events : List (Event ProtoTransaction)} {request : ProtoTransaction}
    (member : request ∈ accepted events) :
    ∃ node nodeId time, .sent node nodeId request time ∈ events := by
  fun_induction accepted events with
  | case1 => simp at member
  | case2 node nodeId request' time rest inductionHypothesis =>
      rcases List.mem_cons.mp member with rfl | later
      · exact ⟨node, nodeId, time, List.mem_cons_self ..⟩
      · obtain ⟨node, nodeId, time, found⟩ := inductionHypothesis later
        exact ⟨node, nodeId, time, List.mem_cons_of_mem _ (List.mem_cons_of_mem _ found)⟩
  | case3 e rest _ inductionHypothesis =>
      obtain ⟨node, nodeId, time, found⟩ := inductionHypothesis member
      exact ⟨node, nodeId, time, List.mem_cons_of_mem _ found⟩

/-- Executions that all show the same data do not submit two chunks. -/
theorem not_submitsChunks_of_same {submit : TopicMessage} {message : Bytes} {initial : TransactionId}
    {shown : Value} {log : List (List (Event ProtoTransaction))}
    (several : 1 < requiredChunks message.length submit.chunkSize)
    (all : ∀ events ∈ log, AllShow proto shown events) :
    ¬ SubmitsChunks proto submit message initial log := by
  intro submits
  have shows : ∀ chunk < requiredChunks message.length submit.chunkSize,
      topicChunk proto submit message initial (requiredChunks message.length submit.chunkSize) chunk =
        shown := by
    intro chunk inside
    obtain ⟨events, member, request, single, value, id, body, _, _, data⟩ :=
      exists_right_of_forall₂ submits (List.mem_range.mpr inside)
    obtain ⟨node, nodeId, time, sent⟩ := mem_of_accepted
      (show request ∈ accepted events by rw [single]; exact List.mem_cons_self ..)
    obtain ⟨value', body', same⟩ := all events member node nodeId request time sent
    cases body.symm.trans body'
    exact data.symm.trans same
  have equal := topicChunk_injective submit message initial _
    ((shows 0 (by omega)).trans (shows 1 several).symm)
  omega

section Submitting

variable {sha384 : Bytes → Bytes} {client : Client} {requestTimeout : Option ℚ}
  {schedule : ChunksSchedule} {network : Network} {tx : Transaction} {submit : TopicMessage}
  {message : Bytes}

/-- At once, executing a message that was just frozen submits its chunks. -/
theorem immediate_submits_chunks (faithful : proto.Faithful) {freezer : Option Client}
    {picked : Except JsError (List AccountId)} {generated : Timestamp} {tx' : Transaction}
    (is : tx.data = .topicMessageSubmit submit) (set : submit.message = some message)
    (nonempty : message ≠ [])
    (frozen : (freezeWith proto freezer picked generated).run tx = (.ok (), tx'))
    (nodes : tx'.nodeAccountIds.list ≠ []) (immediate : tx'.signOnDemand = false) {responses : List TransactionResponse} {after : Session}
    (ran : (Session.executeAll proto sha384 client requestTimeout schedule).run ⟨tx', network, []⟩ =
      (.ok responses, after)) :
    ∃ initial, SubmitsChunks proto submit message initial after.log := by
  have contents : tx.data.contents = some message := by
    rw [is]
    exact set
  have splits := (freezeWith_splits faithful contents frozen nodes immediate nonempty).submits
    sha384 client requestTimeout schedule network responses after ran
  obtain ⟨grid, initial, locked, ids⟩ := freezeWith_isSplit faithful contents frozen
  obtain ⟨based, basing, from_⟩ := freezeWith_eq_ok contents frozen
  have data : tx'.data = .topicMessageSubmit { submit with chunkInfo := none } := by
    rw [from_.data, (freezeBase_frame basing).2.1, is]
    rfl
  rw [is] at grid ids
  have list : tx'.transactionIds.list =
      chunkIds 1 (requiredChunks message.length submit.chunkSize) initial := by
    rw [ids]
    rfl
  refine ⟨initial, ?_⟩
  rw [list, length_chunkIds] at splits
  have inside := (List.forall₂_and_left _ _).mpr ⟨fun row member => List.mem_range.mp member, splits⟩
  refine inside.imp ?_
  rintro row events ⟨inRange, executes⟩
  obtain ⟨request, single, column, signed, sigMap, inColumn, built, rfl⟩ := executes.accepted
  refine ⟨_, single, ?_⟩
  have idAt : ∃ id, tx'.transactionIds.list[row]? = some id := by
    rw [list]
    exact ⟨_, List.getElem?_eq_getElem (by simpa using inRange)⟩
  obtain ⟨id, idAt⟩ := idAt
  have chunkAt : (chunksOf message submit.chunkSize)[row]? =
      some (chunkOf message submit.chunkSize row) := by
    simp [chunksOf, inRange]
  obtain ⟨signed', value, first, built', read, head, transactionId, _, shown⟩ :=
    grid.cells row column id _ _ idAt (List.getElem?_eq_getElem inColumn) chunkAt
  obtain rfl := Option.some.inj (built.symm.trans built')
  have isFirst : first = initial := by
    rw [list] at head
    cases count : requiredChunks message.length submit.chunkSize with
    | zero => omega
    | succ count =>
        rw [count] at head
        exact (Option.some.inj head).symm
  refine ⟨value, id, ?_, list ▸ idAt, transactionId, ?_⟩
  · rw [bodyOf_wrap faithful]
    exact read
  · rw [dataCase, data, isFirst, length_chunksOf] at shown
    exact shown

/-- On demand, all that is handed out shows the same data. -/
theorem executeAll_shows (faithful : proto.Faithful) (is : tx.data = .topicMessageSubmit submit)
    (set : submit.message = some message)
    (onDemand : tx.signOnDemand = true ∨ tx.isFrozen = false ∧ client.signOnDemand = true)
    {outcome : Except JsError (List TransactionResponse)} {after : Session}
    (ran : (Session.executeAll proto sha384 client requestTimeout schedule).run ⟨tx, network, []⟩ =
      (outcome, after)) : ∃ shown, Session.LogShows proto shown after := by
  have kept := @Session.log_prepareAll proto client schedule []
    ⟨tx, network, []⟩ rfl
  rcases preparing : (Session.prepareAll proto client schedule).run ⟨tx, network, []⟩ with
    ⟨e | _, prepared⟩
  · rw [preparing] at kept
    rw [Session.executeAll, Method.run_bind_error preparing] at ran
    cases ran
    have none : after.log = [] := kept
    exact ⟨.undefined, by simp [Session.LogShows, none]⟩
  · rw [preparing] at kept
    obtain ⟨submit', has⟩ := Session.prepareAll_hasData is set onDemand preparing
    rw [Session.executeAll, Method.run_bind_ok preparing, Method.run_this_bind] at ran
    have start : Session.LogShows proto (topicData proto submit') prepared := by
      rw [Session.LogShows, kept]
      simp
    have all := (@Session.executeEach_shows proto sha384 client requestTimeout _ faithful schedule prepared.tx.transactionIds.length 0).snd
      ⟨has, start⟩
    rw [ran] at all
    exact ⟨_, all⟩

/-- On demand, a message of more than one chunk is never submitted chunk for chunk. -/
theorem onDemand_never_submits_chunks (faithful : proto.Faithful)
    (is : tx.data = .topicMessageSubmit submit) (set : submit.message = some message)
    (several : 1 < requiredChunks message.length submit.chunkSize)
    (onDemand : tx.signOnDemand = true ∨ tx.isFrozen = false ∧ client.signOnDemand = true)
    {outcome : Except JsError (List TransactionResponse)} {after : Session}
    (ran : (Session.executeAll proto sha384 client requestTimeout schedule).run ⟨tx, network, []⟩ =
      (outcome, after)) (initial : TransactionId) :
    ¬ SubmitsChunks proto submit message initial after.log := by
  obtain ⟨shown, all⟩ := executeAll_shows faithful is set onDemand ran
  exact not_submitsChunks_of_same several all

end Submitting

section Samples

def onDemandClient : Client := { sampleClient [3, 4] with signOnDemand := true }

def chunksSchedule : ChunksSchedule where
  freezing := { now := 0 }
  signing := { now := 0 }
  chunks _ := sampleSchedule 0 (.ok (some 0))

def threeBytes : TopicMessage := { message := some [1, 2, 3], chunkSize := Nat.succPNat 1 }

/-- Three bytes in chunks of two, executed on demand. -/
def onDemandRun : Except JsError (List TransactionResponse) × Session :=
  (Session.executeAll prefixProto (fun _ => List.replicate 48 0) onDemandClient none chunksSchedule).run
    ⟨sampleMessage [1, 2, 3], onDemandClient.network, []⟩

theorem unfrozen_threeBytes : (sampleMessage [1, 2, 3]).signOnDemand = true ∨
    (sampleMessage [1, 2, 3]).isFrozen = false ∧ onDemandClient.signOnDemand = true :=
  .inr ⟨by decide +kernel, rfl⟩

theorem three_bytes_on_demand :
    ¬ SubmitsChunks prefixProto threeBytes [1, 2, 3] (.withValidStart (.ofNum 2) ⟨5, 0⟩)
      onDemandRun.2.log := by
  have is : (sampleMessage [1, 2, 3]).data = .topicMessageSubmit threeBytes := rfl
  have ran : onDemandRun = (onDemandRun.1, onDemandRun.2) := Prod.mk.eta.symm
  generalize onDemandRun.1 = outcome, onDemandRun.2 = after at ran ⊢
  rw [onDemandRun] at ran
  exact onDemand_never_submits_chunks prefixProto_faithful is rfl (by decide) unfrozen_threeBytes
    ran _

/-- The executions return, and the chunks are not what was submitted. -/
theorem whole_message_is_submitted :
    ∃ responses after, onDemandRun = (.ok responses, after) ∧
      ¬ SubmitsChunks prefixProto threeBytes [1, 2, 3] (.withValidStart (.ofNum 2) ⟨5, 0⟩)
        after.log := by
  obtain ⟨responses, returned, _⟩ := exists_ok onDemandRun.1 (fun _ => true) (by decide +kernel)
  have ran : onDemandRun = (onDemandRun.1, onDemandRun.2) := Prod.mk.eta.symm
  rw [returned] at ran
  generalize onDemandRun.2 = after at ran
  refine ⟨responses, after, ran, ?_⟩
  rw [onDemandRun] at ran
  have is : (sampleMessage [1, 2, 3]).data = .topicMessageSubmit threeBytes := rfl
  obtain ⟨shown, all⟩ := executeAll_shows prefixProto_faithful is rfl unfrozen_threeBytes ran
  exact not_submitsChunks_of_same (by decide) all

end Samples

end HederaSdk.Transaction
