import HederaSdk.Topic.Query

/-!
# Asking a mirror node for the address book

The nodes come as a stream. What has come and how many are still wanted is kept in the
query, so an attempt after a failure asks for the rest of them; but a stream starts at the
beginning of the list. Neither is set back when the query is executed again.
-/

namespace HederaSdk

open Topic (MirrorFailure)
open Js (Value)

universe u

/-- What `execute` reads of a client. -/
structure MirrorClient where
  /-- `client._network._network.size` -/
  networkSize : Nat
  /-- Whether there is a `client._timer`. -/
  timer : Bool

structure AddressBookRequest where
  fileId : Option Value
  limit : Option Nat

/-- A limit of 0 asks for every node. -/
def AddressBookRequest.answer {NodeAddress : Type u} (request : AddressBookRequest)
    (nodes : List NodeAddress) : List NodeAddress :=
  match request.limit with
  | none | some 0 => nodes
  | some limit => nodes.take limit

/-- A stream that fails after the nodes that came on it. -/
structure FailedStream where
  position : Nat
  error : MirrorFailure
  isClientShutDown : Bool

structure AddressBookQuery (NodeAddress : Type u) where
  fileId : Option Value := none
  limit : Option Nat := none
  maxAttempts : Nat := 10
  /-- In milliseconds. -/
  maxBackoff : Nat := 8000
  addresses : List NodeAddress := []
  attempt : Nat := 0
  /-- The delays of the timers it has set. -/
  timers : List Nat := []

/-- What becomes of the promise, and what `execute` throws before there is one. -/
inductive AddressBookOutcome (NodeAddress : Type u) where
  | resolved (nodeAddresses : List NodeAddress)
  | rejected (message : String)
  | thrown (message : String)

/-- One call of `execute`: the streams that fail, before one that does not. -/
structure AddressBookExecution where
  client : MirrorClient
  failed : List FailedStream

namespace AddressBookQuery

variable {NodeAddress : Type u}

def retryHandler : MirrorFailure → Bool := MirrorFailure.isRetried

def request (query : AddressBookQuery NodeAddress) : AddressBookRequest where
  fileId := query.fileId
  limit := query.limit

/-- The listener of a stream. -/
def onData (query : AddressBookQuery NodeAddress) (address : NodeAddress) : AddressBookQuery NodeAddress :=
  { query with
    addresses := query.addresses ++ [address]
    limit := query.limit.map fun limit => if 0 < limit then limit - 1 else limit }

def delay (query : AddressBookQuery NodeAddress) : Nat := min (250 * 2 ^ query.attempt) query.maxBackoff

/-- Waits for the next attempt. -/
def retry (query : AddressBookQuery NodeAddress) : AddressBookQuery NodeAddress :=
  { query with attempt := query.attempt + 1, timers := query.timers ++ [query.delay] }

/-- `_makeServerStreamRequest`, against a mirror node with these nodes. -/
def makeServerStreamRequest (nodes : List NodeAddress) :
    List FailedStream → AddressBookQuery NodeAddress →
      AddressBookQuery NodeAddress × AddressBookOutcome NodeAddress
  | [], query =>
      let query := (query.request.answer nodes).foldl onData query
      (query, .resolved query.addresses)
  | stream :: rest, query =>
      let query := ((query.request.answer nodes).take stream.position).foldl onData query
      if query.attempt < query.maxAttempts && !stream.isClientShutDown && retryHandler stream.error then
        makeServerStreamRequest nodes rest query.retry
      else (query, .rejected "failed to query address book")

def execute (nodes : List NodeAddress) (query : AddressBookQuery NodeAddress)
    (execution : AddressBookExecution) :
    AddressBookQuery NodeAddress × AddressBookOutcome NodeAddress :=
  if execution.client.networkSize = 0 ∧ execution.client.timer = false then
    (query, .thrown
      "The client's network update period is required. Please set it using the setNetworkUpdatePeriod method.")
  else makeServerStreamRequest nodes execution.failed query

/-- What the executions of one query object come to. -/
def executeEach (nodes : List NodeAddress) :
    List AddressBookExecution → AddressBookQuery NodeAddress → List (AddressBookOutcome NodeAddress)
  | [], _ => []
  | execution :: rest, query =>
      (execute nodes query execution).2 :: executeEach nodes rest (execute nodes query execution).1

/-! ## What comes on the streams -/

/-- The addresses that the streams of one execution bring, with the limit it starts from. -/
def received (nodes : List NodeAddress) : Option Nat → List Nat → List NodeAddress
  | limit, [] => AddressBookRequest.answer ⟨none, limit⟩ nodes
  | limit, position :: rest =>
      let data := (AddressBookRequest.answer ⟨none, limit⟩ nodes).take position
      data ++ received nodes (limit.map fun limit => limit - data.length) rest

/-- The first nodes of a list, as many as the limit allows. -/
def firstOf : Option Nat → List NodeAddress → List NodeAddress
  | none, nodes => nodes
  | some limit, nodes => nodes.take limit

variable {nodes : List NodeAddress} {query : AddressBookQuery NodeAddress}

theorem foldl_onData (data : List NodeAddress) (query : AddressBookQuery NodeAddress) :
    data.foldl onData query =
      { query with
        addresses := query.addresses ++ data
        limit := query.limit.map fun limit => limit - data.length } := by
  induction data generalizing query with
  | nil => simp
  | cons address rest inductionHypothesis =>
      have counted : (fun limit => limit - rest.length) ∘ (fun limit => if 0 < limit then limit - 1 else limit) =
          fun limit => limit - (address :: rest).length := by
        funext limit
        simp only [Function.comp_apply, List.length_cons]
        split <;> omega
      rw [List.foldl_cons, inductionHypothesis, onData]
      simp only [Option.map_map, counted, List.append_assoc, List.singleton_append]

theorem answer_eq (fileId : Option Value) (limit : Option Nat) :
    AddressBookRequest.answer ⟨fileId, limit⟩ nodes = AddressBookRequest.answer ⟨none, limit⟩ nodes := rfl

/-- What an execution leaves in the query when its failures are all retried. -/
structure Served (nodes : List NodeAddress) (failed : List FailedStream)
    (query query' : AddressBookQuery NodeAddress) : Prop where
  addresses : query'.addresses =
    query.addresses ++ received nodes query.limit (failed.map FailedStream.position)
  attempt : query'.attempt = query.attempt + failed.length
  maxAttempts : query'.maxAttempts = query.maxAttempts

/-- A failure after which `_makeServerStreamRequest` goes on while it has attempts. -/
def FailedStream.Retryable (stream : FailedStream) : Prop :=
  stream.isClientShutDown = false ∧ retryHandler stream.error = true

theorem served_of_attempts {failed : List FailedStream} (retryable : ∀ stream ∈ failed, FailedStream.Retryable stream)
    (enough : query.attempt + failed.length ≤ query.maxAttempts) :
    Served nodes failed query (makeServerStreamRequest nodes failed query).1 ∧
      (makeServerStreamRequest nodes failed query).2 =
        .resolved (makeServerStreamRequest nodes failed query).1.addresses := by
  induction failed generalizing query with
  | nil =>
      refine ⟨?_, rfl⟩
      rw [makeServerStreamRequest, foldl_onData]
      exact ⟨rfl, rfl, rfl⟩
  | cons stream rest inductionHypothesis =>
      obtain ⟨alive, handled⟩ := retryable stream List.mem_cons_self
      have attempts : query.attempt < query.maxAttempts := by
        rw [List.length_cons] at enough
        omega
      rw [makeServerStreamRequest, foldl_onData]
      simp only [attempts, alive, handled, decide_true, Bool.not_false, Bool.and_self, if_true]
      refine (inductionHypothesis (fun stream member => retryable stream (List.mem_cons_of_mem _ member)) ?_).imp_left
        fun served => ⟨?_, ?_, served.maxAttempts⟩
      · simpa [retry, Nat.add_assoc, Nat.add_comm 1] using enough
      · refine served.addresses.trans ?_
        rw [List.map_cons, received, retry, List.append_assoc]
        rfl
      · rw [served.attempt, retry, List.length_cons, Nat.add_assoc, Nat.add_comm 1]

theorem rejected_of_attempts {failed : List FailedStream} (retryable : ∀ stream ∈ failed, FailedStream.Retryable stream)
    (bounded : query.attempt ≤ query.maxAttempts) (few : query.maxAttempts < query.attempt + failed.length) :
    (makeServerStreamRequest nodes failed query).2 = .rejected "failed to query address book" := by
  induction failed generalizing query with
  | nil => exact absurd few (Nat.not_lt_of_le bounded)
  | cons stream rest inductionHypothesis =>
      obtain ⟨alive, handled⟩ := retryable stream List.mem_cons_self
      rw [makeServerStreamRequest, foldl_onData]
      rw [List.length_cons] at few
      by_cases attempts : query.attempt < query.maxAttempts
      · simp only [attempts, alive, handled, decide_true, Bool.not_false, Bool.and_self, if_true]
        apply inductionHypothesis fun stream member => retryable stream (List.mem_cons_of_mem _ member)
        · exact attempts
        · simpa [retry, Nat.add_assoc, Nat.add_comm 1] using few
      · simp only [attempts, decide_false, Bool.false_and, Bool.false_eq_true, if_false]

/-! ## What is received -/

/-- A limit that is no limit of 0. -/
theorem answer_of_limited {limit : Option Nat} (limited : limit ≠ some 0) :
    AddressBookRequest.answer ⟨none, limit⟩ nodes = firstOf limit nodes := by
  cases limit with
  | none => rfl
  | some limit =>
      cases limit with
      | zero => exact absurd rfl limited
      | succ limit => rfl

/-- Every stream starts at the first node. -/
theorem head_mem_answer (node : NodeAddress) (rest : List NodeAddress) (limit : Option Nat) :
    ∃ others, AddressBookRequest.answer ⟨none, limit⟩ (node :: rest) = node :: others := by
  cases limit with
  | none => exact ⟨rest, rfl⟩
  | some limit =>
      cases limit with
      | zero => exact ⟨rest, rfl⟩
      | succ limit => exact ⟨rest.take limit, rfl⟩

theorem head_mem_received (node : NodeAddress) (rest : List NodeAddress) (limit : Option Nat)
    (positions : List Nat) : node ∈ received (node :: rest) limit positions := by
  induction positions generalizing limit with
  | nil =>
      obtain ⟨others, answered⟩ := head_mem_answer node rest limit
      rw [received, answered]
      exact List.mem_cons_self
  | cons position positions inductionHypothesis =>
      rw [received]
      exact List.mem_append_right _ (inductionHypothesis _)

theorem received_empty (limit : Option Nat) (positions : List Nat) :
    received ([] : List NodeAddress) limit positions = [] := by
  have nothing (limit : Option Nat) : AddressBookRequest.answer ⟨none, limit⟩ ([] : List NodeAddress) = [] := by
    rw [AddressBookRequest.answer]
    split
    · rfl
    · rfl
    · exact List.take_nil
  induction positions generalizing limit with
  | nil => exact nothing limit
  | cons position positions inductionHypothesis =>
      rw [received, inductionHypothesis, nothing, List.take_nil, List.append_nil]

/-- Nothing comes twice exactly when no stream fails after its first address. -/
theorem nodup_received_iff (node : NodeAddress) (rest : List NodeAddress) {limit : Option Nat}
    (limited : limit ≠ some 0) (positions : List Nat) :
    (received (node :: rest) limit positions).Nodup ↔
      (firstOf limit (node :: rest)).Nodup ∧ ∀ position ∈ positions, position = 0 := by
  induction positions with
  | nil => simp [received, answer_of_limited limited]
  | cons position positions inductionHypothesis =>
      obtain ⟨others, answered⟩ := head_mem_answer node rest limit
      cases position with
      | zero => simp [received, inductionHypothesis, Option.map_id']
      | succ position =>
          have again := head_mem_received node rest
            (limit.map fun limit => limit - ((node :: others).take (position + 1)).length) positions
          rw [received, answered]
          constructor
          · intro distinct
            exact absurd again (List.disjoint_of_nodup_append distinct (by simp))
          · intro undisturbed
            exact absurd (undisturbed.2 _ List.mem_cons_self) (Nat.succ_ne_zero position)

theorem received_of_undisturbed {limit : Option Nat} (limited : limit ≠ some 0) {positions : List Nat}
    (undisturbed : ∀ position ∈ positions, position = 0) : received nodes limit positions = firstOf limit nodes := by
  induction positions with
  | nil => exact answer_of_limited limited
  | cons position positions inductionHypothesis =>
      have none_came := undisturbed position List.mem_cons_self
      simp [received, none_came,
        inductionHypothesis fun position member => undisturbed position (List.mem_cons_of_mem _ member)]

/-! ## Exact results -/

def MirrorClient.Ready (client : MirrorClient) : Prop := ¬ (client.networkSize = 0 ∧ client.timer = false)

/-- The first nodes of the list, none of them twice. -/
def Exact (nodes : List NodeAddress) (limit : Option Nat) (outcome : AddressBookOutcome NodeAddress) : Prop :=
  ∃ addresses, outcome = .resolved addresses ∧ addresses = firstOf limit nodes ∧ addresses.Nodup

/-- The failures of the executions, which share the attempts of the query. -/
def failures (executions : List AddressBookExecution) : Nat :=
  (executions.map fun execution => execution.failed.length).sum

theorem served_of_ready {execution : AddressBookExecution}
    (retryable : ∀ stream ∈ execution.failed, FailedStream.Retryable stream)
    (ready : MirrorClient.Ready execution.client)
    (enough : query.attempt + execution.failed.length ≤ query.maxAttempts) :
    Served nodes execution.failed query (execute nodes query execution).1 ∧
      (execute nodes query execution).2 = .resolved (execute nodes query execution).1.addresses := by
  rw [execute, if_neg ready]
  exact served_of_attempts retryable enough

theorem execute_exact_iff {execution : AddressBookExecution} {limit : Option Nat}
    (retryable : ∀ stream ∈ execution.failed, FailedStream.Retryable stream)
    (bounded : query.attempt ≤ query.maxAttempts) :
    Exact nodes limit (execute nodes query execution).2 ↔
      MirrorClient.Ready execution.client ∧
        query.attempt + execution.failed.length ≤ query.maxAttempts ∧
          query.addresses ++ received nodes query.limit (execution.failed.map FailedStream.position) =
              firstOf limit nodes ∧
            (query.addresses ++ received nodes query.limit
              (execution.failed.map FailedStream.position)).Nodup := by
  by_cases ready : MirrorClient.Ready execution.client
  · by_cases enough : query.attempt + execution.failed.length ≤ query.maxAttempts
    · obtain ⟨served, resolved⟩ := @served_of_ready _ nodes _ _ retryable ready enough
      rw [← served.addresses, resolved]
      constructor
      · rintro ⟨addresses, same, exactly, distinct⟩
        cases same
        exact ⟨ready, enough, exactly, distinct⟩
      · rintro ⟨-, -, exactly, distinct⟩
        exact ⟨_, rfl, exactly, distinct⟩
    · rw [execute, if_neg ready, rejected_of_attempts retryable bounded (Nat.lt_of_not_le enough)]
      constructor
      · rintro ⟨addresses, same, -⟩
        cases same
      · rintro ⟨-, attempts, -⟩
        exact absurd attempts enough
  · rw [execute, if_pos (Decidable.not_not.mp ready)]
    constructor
    · rintro ⟨addresses, same, -⟩
      cases same
    · rintro ⟨available, -⟩
      exact absurd available ready

/-- An empty list is given back as long as there are attempts. -/
theorem executeEach_exact_empty {executions : List AddressBookExecution} {limit : Option Nat}
    (retryable : ∀ execution ∈ executions, ∀ stream ∈ execution.failed, FailedStream.Retryable stream)
    (bounded : query.attempt ≤ query.maxAttempts) (nothing : query.addresses = []) :
    (∀ outcome ∈ executeEach ([] : List NodeAddress) executions query, Exact [] limit outcome) ↔
      (∀ execution ∈ executions, MirrorClient.Ready execution.client) ∧
        query.attempt + failures executions ≤ query.maxAttempts := by
  have first : firstOf limit ([] : List NodeAddress) = [] := by
    cases limit with
    | none => rfl
    | some limit => exact List.take_nil
  induction executions generalizing query with
  | nil => simpa [executeEach, failures] using bounded
  | cons execution rest inductionHypothesis =>
      have here := retryable execution List.mem_cons_self
      have one : Exact ([] : List NodeAddress) limit _ ↔ _ := execute_exact_iff here bounded
      rw [nothing, received_empty, first] at one
      rw [executeEach, List.forall_mem_cons, List.forall_mem_cons, one]
      have total : failures (execution :: rest) = execution.failed.length + failures rest := by
        simp [failures]
      by_cases able : MirrorClient.Ready execution.client ∧
          query.attempt + execution.failed.length ≤ query.maxAttempts
      · obtain ⟨ready, enough⟩ := able
        have served := (@served_of_ready NodeAddress [] _ _ here ready enough).1
        have onward := @inductionHypothesis (execute [] query execution).1
          (fun execution member => retryable execution (List.mem_cons_of_mem _ member))
          (by rw [served.attempt, served.maxAttempts]; exact enough)
          (by rw [served.addresses, nothing, received_empty]; rfl)
        refine (and_congr_right' onward).trans ?_
        rw [served.attempt, served.maxAttempts, total, Nat.add_assoc]
        simp [ready, enough]
      · constructor
        · rintro ⟨⟨ready, enough, -⟩, -⟩
          exact absurd ⟨ready, enough⟩ able
        · rintro ⟨⟨ready, -⟩, enough⟩
          exact absurd ⟨ready, by omega⟩ able

/-- The mirror node is unavailable after some addresses. -/
def unavailableAfter (position : Nat) : AddressBookExecution where
  client := { networkSize := 1, timer := false }
  failed := [{ position, error := .status 14 "", isClientShutDown := false }]

theorem unavailableAfter_retryable (position : Nat) :
    ∀ stream ∈ (unavailableAfter position).failed, FailedStream.Retryable stream :=
  List.forall_mem_singleton.mpr ⟨rfl, rfl⟩

end AddressBookQuery

end HederaSdk
