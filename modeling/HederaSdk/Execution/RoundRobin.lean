import HederaSdk.Execution.Health
import HederaSdk.Library.Stride
import Mathlib.Data.Nat.Prime.Basic

/-!
# Which nodes are tried

While all nodes are healthy every attempt sends, and the nodes are those of a walk
around the list of node ids. Making a request on demand moves the cursor a second
time, so the walk takes two places in each step and misses every other node of a
list of even length.
-/

namespace HederaSdk.ExecutableClass

open Library Network RunMethod

variable {σ Prep Req Resp Out : Type} {cls : ExecutableClass σ Prep Req Resp Out}

def sentKeys (events : List (Event Req)) : List String := events.filterMap Event.sentKey

/-- The number of places that the cursor moves in an attempt that sends. -/
def stride (cls : ExecutableClass σ Prep Req Resp Out) (base : Executable) : Nat :=
  if cls.movesCursor base then 2 else 1

/-- The text of the node id at a position. -/
def textAt (base : Executable) (i : Nat) : String :=
  (base.nodeAccountIds.list.map AccountId.toString).getD i ""

/-- The request's nodes are known to the client, and all of them are healthy. -/
def AllSound (cls : ExecutableClass σ Prep Req Resp Out) (input : Attempt Resp) (run : Run σ Req) :
    Prop :=
  ∀ id ∈ (cls.base run.request).nodeAccountIds.list,
    (cls.base run.request).isForeign id = false ∧ Sound input run id

instance (input : Attempt Resp) (run : Run σ Req) : Decidable (cls.AllSound input run) :=
  inferInstanceAs (Decidable (∀ id ∈ _, _ ∧ _))

/-! ## One attempt -/

section Attempt

variable {startTime : ℚ} {delay : Executable → ℚ} {input : Attempt Resp} {run run' : Run σ Req}

theorem textAt_index {base : Executable} {id : AccountId}
    (current : base.nodeAccountIds.current = some id) :
    textAt base base.nodeAccountIds.index = id.toString := by
  have found : base.nodeAccountIds.list[base.nodeAccountIds.index]? = some id := current
  simp [textAt, List.getD, found]

theorem sentKeys_answers {answers : List (Event Req)} (answered : ∀ e ∈ answers, e.isAnswer = true) :
    sentKeys answers = [] := by
  refine List.filterMap_eq_nil_iff.mpr fun e member => ?_
  have answer := answered e member
  cases e <;> simp_all [Event.isAnswer, Event.sentKey]

/-- An attempt among healthy nodes that is followed by another has sent a request to
the node under the cursor. -/
theorem Attempted.sentKeys_again
    (attempt : cls.Attempted startTime delay input run (.ok .again) run')
    (inList : InList (cls.base run.request)) (keyed : Keyed main run.network)
    (sound : cls.AllSound input run) :
    sentKeys run'.events =
      sentKeys run.events ++ [textAt (cls.base run.request) (cls.base run.request).nodeAccountIds.index] := by
  have current := inList.current
  obtain ⟨known, sound⟩ := sound _ inList.node_mem
  cases attempt with
  | foreign choice unknown =>
      obtain ⟨rfl, _, rfl⟩ := choice_of_current current choice
      rw [known] at unknown
      cases unknown
  | skipped prepared unhealthy more =>
      obtain ⟨rfl, here⟩ := prepared.at current
      rw [sound.isHealthy here] at unhealthy
      cases unhealthy
  | sent prepared healthy judging =>
      obtain ⟨rfl, here⟩ := prepared.at current
      obtain ⟨answers, events, answered, _⟩ := (judged judging).events
      have key := here.keyOf_node keyed sound.1
      rw [events, handed, prepared.events, sentKeys, List.filterMap_append, List.filterMap_append]
      have silent := sentKeys_answers answered
      rw [sentKeys] at silent
      rw [silent, textAt_index current]
      simp [Event.sentKey, sentKeys]
      exact key

theorem index_nextBase {id : AccountId} {base : Executable} (known : base.isForeign id = false) :
    (cls.nextBase id base).nodeAccountIds.index =
      (base.nodeAccountIds.index + cls.stride base) % base.nodeAccountIds.list.length := by
  by_cases moves : cls.movesCursor base = true
  · simp [nextBase, known, cursorMoved, stride, moves, Nat.add_assoc]
  · simp [nextBase, known, cursorMoved, stride, moves]

theorem stride_nextBase (id : AccountId) (base : Executable) :
    cls.stride (cls.nextBase id base) = cls.stride base := by
  have kept : cls.movesCursor (cls.nextBase id base) = cls.movesCursor base := by
    rw [nextBase, cls.movesCursor_nodeIds]
    split
    · rfl
    · rw [cursorMoved]
      split
      · exact cls.movesCursor_nodeIds ..
      · rfl
  rw [stride, kept, stride]

theorem isForeign_nextBase (id other : AccountId) (base : Executable) :
    (cls.nextBase id base).isForeign other = base.isForeign other := by
  unfold nextBase cursorMoved
  split
  · rfl
  · split <;> rfl

theorem textAt_nextBase (id : AccountId) (base : Executable) :
    textAt (cls.nextBase id base) = textAt base := by
  funext i
  rw [textAt, list_nextBase, textAt]

end Attempt

/-! ## The first attempts -/

section Loop

variable {isLocalNode : Bool} {schedule : Schedule Prep Resp} {maxAttempts number : Nat}
  {run run' : Run σ Req}

/-- The state after a number of attempts that are all followed by another. -/
def after (cls : ExecutableClass σ Prep Req Resp Out) (isLocalNode : Bool)
    (schedule : Schedule Prep Resp) : Nat → Nat → Run σ Req → Option (Run σ Req)
  | 0, _, run => some run
  | m + 1, number, run =>
      (cls.next? isLocalNode schedule number run).bind (after cls isLocalNode schedule m (number + 1))

/-- The attempts among healthy nodes go to the nodes of a walk. -/
theorem sentKeys_after {m : Nat} (inList : InList (cls.base run.request))
    (keyed : Keyed main run.network)
    (sound : cls.AllAttempts isLocalNode schedule
      (fun number run => cls.AllSound (schedule.attempts number) run) m number run)
    (going : cls.after isLocalNode schedule m number run = some run') :
    sentKeys run'.events = sentKeys run.events ++ (List.range m).map fun k =>
      textAt (cls.base run.request) (place (cls.base run.request).nodeAccountIds.list.length
        (cls.stride (cls.base run.request)) (cls.base run.request).nodeAccountIds.index k) := by
  induction m generalizing number run with
  | zero =>
      cases going
      simp
  | succ m inductionHypothesis =>
      obtain ⟨next, one, rest⟩ := Option.bind_eq_some_iff.mp going
      have attempt := attempted (attempted_of_next? one)
      have base := attempt.base_again_of_current inList.current
      have others := inductionHypothesis (base ▸ inList.nextBase _) (attempt.keyed_again keyed)
        (sound.2 next one) rest
      have known := (sound.1 _ inList.node_mem).1
      rw [others, attempt.sentKeys_again inList keyed sound.1, base, textAt_nextBase, list_nextBase,
        stride_nextBase, index_nextBase known, List.range_succ_eq_map, List.map_cons, List.map_map,
        List.append_assoc, List.singleton_append, place_zero inList]
      simp only [Function.comp_def, Nat.succ_eq_add_one, place_succ]

/-- The loop goes on from the state after its first attempts. -/
theorem retryLoop_after {m remaining : Nat}
    (going : cls.after isLocalNode schedule m number run = some run') :
    (cls.retryLoop isLocalNode maxAttempts schedule (m + remaining) number).run run =
      (cls.retryLoop isLocalNode maxAttempts schedule remaining (number + m)).run run' := by
  induction m generalizing number run with
  | zero =>
      cases going
      simp
  | succ m inductionHypothesis =>
      obtain ⟨next, one, rest⟩ := Option.bind_eq_some_iff.mp going
      rw [Nat.succ_add, retryLoop, Method.run_bind_ok (attempted_of_next? one)]
      exact (inductionHypothesis rest).trans (by rw [Nat.add_assoc, Nat.add_comm 1 m])

end Loop

/-- Different texts are at different positions. -/
theorem textAt_inj {base : Executable}
    (different : (base.nodeAccountIds.list.map AccountId.toString).Nodup) {i j : Nat}
    (hi : i < base.nodeAccountIds.list.length) (hj : j < base.nodeAccountIds.list.length)
    (same : textAt base i = textAt base j) : i = j := by
  have hi' : i < (base.nodeAccountIds.list.map AccountId.toString).length := by simpa using hi
  have hj' : j < (base.nodeAccountIds.list.map AccountId.toString).length := by simpa using hj
  rw [textAt, textAt, List.getD_eq_getElem?_getD, List.getD_eq_getElem?_getD,
    List.getElem?_eq_getElem hi', List.getElem?_eq_getElem hj'] at same
  exact different.getElem_inj_iff.mp same

theorem nodup_texts_iff {base : Executable} (inList : InList base)
    (different : (base.nodeAccountIds.list.map AccountId.toString).Nodup) (d : Nat) :
    ((List.range base.nodeAccountIds.list.length).map fun k => textAt base
      (place base.nodeAccountIds.list.length d base.nodeAccountIds.index k)).Nodup ↔
      d.Coprime base.nodeAccountIds.list.length := by
  have positive : 0 < base.nodeAccountIds.list.length := Nat.zero_lt_of_lt inList
  rw [← nodup_places_iff base.nodeAccountIds.index positive]
  change (List.map (textAt base ∘ place _ d _) _).Nodup ↔ _
  rw [← List.map_map]
  constructor
  · exact List.Nodup.of_map _
  · refine fun places => places.map_on ?_
    intro i inPlaces j inPlaces' same
    obtain ⟨_, _, rfl⟩ := List.mem_map.mp inPlaces
    obtain ⟨_, _, rfl⟩ := List.mem_map.mp inPlaces'
    exact textAt_inj different (place_lt positive _) (place_lt positive _) same

/-! ## The execution -/

section Execute

variable {client : Client} {requestTimeout : Option ℚ} {schedule : Schedule Prep Resp}
  {run prepared run' : Run σ Req} {outcome : Except JsError Out}

/-- When the first `n` attempts are followed by another, all `n` nodes are healthy
throughout and are different, the first `n` requests go to different nodes exactly when
the stride is coprime to `n`. -/
theorem nodup_sentKeys_iff {n : Nat} (fresh : run.events = [])
    (ready : (cls.prepare client requestTimeout schedule).run run = (.ok (), prepared))
    (length : n = (cls.base prepared.request).nodeAccountIds.list.length)
    (inList : InList (cls.base prepared.request))
    (different : ((cls.base prepared.request).nodeAccountIds.list.map AccountId.toString).Nodup)
    (keyed : Keyed main prepared.network)
    (sound : cls.AllAttempts client.isLocalNode schedule
      (fun number run => cls.AllSound (schedule.attempts number) run) n 1 prepared)
    (enough : n ≤ (cls.base prepared.request).maxAttemptsFor client)
    (going : (cls.after client.isLocalNode schedule n 1 prepared).isSome = true)
    (ran : (cls.execute client requestTimeout schedule).run run = (outcome, run')) :
    n ≤ (sentKeys run'.events).length ∧
      (((sentKeys run'.events).take n).Nodup ↔ (cls.stride (cls.base prepared.request)).Coprime n) := by
  obtain ⟨final, going⟩ := Option.isSome_iff_exists.mp going
  obtain ⟨remaining, attempts⟩ := Nat.exists_eq_add_of_le enough
  rw [run_execute ready, attempts, retryLoop_after going] at ran
  have first := sentKeys_after inList keyed sound going
  have none : sentKeys prepared.events = [] := by rw [(run_prepare ready).1, fresh]; rfl
  rw [none, List.nil_append, ← length] at first
  obtain ⟨more, all⟩ : sentKeys final.events <+: sentKeys run'.events :=
    (events_retryLoop ran).filterMap Event.sentKey
  have count : (sentKeys final.events).length = n := by rw [first]; simp
  have start : (sentKeys run'.events).take n = sentKeys final.events := by
    rw [← all, List.take_left' count]
  constructor
  · rw [← all, List.length_append]
    exact count ▸ Nat.le_add_right ..
  · rw [start, first, length]
    exact nodup_texts_iff inList different _

end Execute

end HederaSdk.ExecutableClass

namespace HederaSdk.Transaction

open Library Network ExecutableClass

variable {proto : Proto} {sha384 : Bytes → Bytes} {client : Client} {requestTimeout : Option ℚ}
  {schedule : Schedule Preparation (Option Int)} {tx : Transaction}
  {prepared run' : Run Transaction ProtoTransaction} {outcome : Except JsError TransactionResponse}

/-- All listed nodes have an entry in the network, and all of them are healthy. -/
def NodesSound (input : Attempt (Option Int)) (run : Run Transaction ProtoTransaction) : Prop :=
  ∀ id ∈ run.request.nodeAccountIds.list, Sound input run id

instance (input : Attempt (Option Int)) (run : Run Transaction ProtoTransaction) :
    Decidable (NodesSound input run) := inferInstanceAs (Decidable (∀ id ∈ _, _))

/-- With `n` different nodes that the client knows and that are healthy throughout, the
first `n` attempts, when each is followed by another, go to `n` different nodes exactly
when the transaction is not signed on demand or `n` is odd. -/
theorem tries_each_node_once_iff {n : Nat} (reachable : Reachable client.network)
    (ready : ((executableClass proto sha384).prepare client requestTimeout schedule).run
      (Run.start client tx) = (.ok (), prepared))
    (length : n = prepared.request.nodeAccountIds.list.length)
    (inList : InList prepared.request.toExecutable)
    (different : (prepared.request.nodeAccountIds.list.map AccountId.toString).Nodup)
    (known : ∀ id ∈ prepared.request.nodeAccountIds.list, id.toString ∈ client.nodeTexts)
    (sound : (executableClass proto sha384).AllAttempts client.isLocalNode schedule
      (fun number run => NodesSound (schedule.attempts number) run) n 1 prepared)
    (enough : n ≤ prepared.request.maxAttemptsFor client)
    (retried : ((executableClass proto sha384).after client.isLocalNode schedule n 1 prepared).isSome)
    (ran : ((executableClass proto sha384).execute client requestTimeout schedule).run
      (Run.start client tx) = (outcome, run')) :
    n ≤ (sentKeys run'.events).length ∧
      (((sentKeys run'.events).take n).Nodup ↔ prepared.request.signOnDemand = false ∨ Odd n) := by
  obtain ⟨calls, network⟩ := network_prepared ready
  have keyed : Keyed main prepared.network := network ▸ keyed_runAll reachable.keyed calls
  have nodes := nodeIds_prepared ready
  have native : ∀ id ∈ prepared.request.nodeAccountIds.list, prepared.request.isForeign id = false := by
    intro id member
    simp [Executable.isForeign, nodes, known id member]
  have all : (executableClass proto sha384).AllAttempts client.isLocalNode schedule
      (fun number run => (executableClass proto sha384).AllSound (schedule.attempts number) run)
      n 1 prepared := by
    refine AllAttempts.imp (I := fun run => InList run.request.toExecutable ∧
      ∀ id ∈ run.request.nodeAccountIds.list, run.request.isForeign id = false) ?_ ?_ ⟨inList, native⟩
      sound
    · rintro number run run' ⟨inList, native⟩ attempt
      have base : run'.request.toExecutable =
          (executableClass proto sha384).nextBase _ run.request.toExecutable :=
        attempt.base_again_of_current inList.current
      refine ⟨base ▸ inList.nextBase _, ?_⟩
      rw [base, list_nextBase]
      exact fun id member => (isForeign_nextBase ..).trans (native id member)
    · exact fun number run ⟨_, native⟩ sound id member => ⟨native id member, sound id member⟩
  have result := nodup_sentKeys_iff rfl ready length inList different keyed all enough retried ran
  refine ⟨result.1, result.2.trans ?_⟩
  cases onDemand : prepared.request.signOnDemand with
  | true => simp [stride, executableClass, onDemand, Nat.coprime_two_left]
  | false => simp [stride, executableClass, onDemand]

section Samples

theorem two_busy_nodes_are_tried :
    2 ≤ (sentKeys ((sampleClass.execute (sampleClient [3, 4]) none
      (sampleSchedule 0 (.ok (some 12)))).run
        (Run.start (sampleClient [3, 4]) (frozenTransfer [3, 4]))).2.events).length ∧
      ((sentKeys ((sampleClass.execute (sampleClient [3, 4]) none
        (sampleSchedule 0 (.ok (some 12)))).run
          (Run.start (sampleClient [3, 4]) (frozenTransfer [3, 4]))).2.events).take 2).Nodup := by
  have ready : ((sampleClass.prepare (sampleClient [3, 4]) none (sampleSchedule 0 (.ok (some 12)))).run
    (Run.start (sampleClient [3, 4]) (frozenTransfer [3, 4]))).1 = .ok () := by decide +kernel
  rcases ran : (sampleClass.execute (sampleClient [3, 4]) none (sampleSchedule 0 (.ok (some 12)))).run
    (Run.start (sampleClient [3, 4]) (frozenTransfer [3, 4])) with ⟨outcome, run'⟩
  have tried := tries_each_node_once_iff (n := 2) (reachable_sampleClient [3, 4]) (Method.run_of_ok ready)
    (by decide +kernel) (by decide +kernel) (by decide +kernel) (by decide +kernel)
    (by decide +kernel) (by decide +kernel) (by decide +kernel) ran
  exact ⟨tried.1, tried.2.mpr (.inl (by decide +kernel))⟩

/-- A transfer that is signed on demand. -/
def onDemandTransfer (nodes : List Int) : Transaction :=
  ((freezeWith prefixProto (some { sampleClient [3, 4] with signOnDemand := true }) (.ok [])
    ⟨0, 0⟩).run (sampleTransfer nodes)).2

/-- On demand, the first of two nodes that are known and healthy throughout is tried
twice before the second is tried. -/
theorem first_node_is_tried_twice :
    let client := sampleClient [3, 4]
    let schedule := sampleSchedule 0 (.ok (some 12))
    let tx := onDemandTransfer [3, 4]
    let prepared := ((sampleClass.prepare client none schedule).run (Run.start client tx)).2
    let run' := ((sampleClass.execute client none schedule).run (Run.start client tx)).2
    (∀ id ∈ tx.nodeAccountIds.list, id.toString ∈ client.nodeTexts) ∧
      sampleClass.AllAttempts client.isLocalNode schedule
        (fun number run => NodesSound (schedule.attempts number) run) 2 1 prepared ∧
      (sampleClass.after client.isLocalNode schedule 2 1 prepared).isSome = true ∧
      (sentKeys run'.events).take 2 = ["0.0.3", "0.0.3"] := by
  refine ⟨?_, ?_, ?_, ?_⟩ <;> decide +kernel

end Samples

end HederaSdk.Transaction
