import HederaSdk.Execution.Budget
import HederaSdk.Execution.Walk

/-!
# Healthy and unhealthy nodes

The loop takes all nodes for unhealthy when the node at the last position is. It
is right when it has walked through all positions before, and it may be wrong when
the cursor started behind a healthy node or stepped over it.
-/

namespace HederaSdk.ExecutableClass

open Library Network RunMethod

variable {σ Prep Req Resp Out : Type} {cls : ExecutableClass σ Prep Req Resp Out}

/-- Some node that is filed under one of the ids is healthy. -/
def HealthyAmong (ids : List AccountId) (time : ℚ) (net : Network) : Prop :=
  ∃ id ∈ ids, ∃ r ∈ net.network.bucket id.toString, (net.heap r).isHealthy time = true

instance (ids : List AccountId) (time : ℚ) (net : Network) : Decidable (HealthyAmong ids time net) :=
  inferInstanceAs (Decidable (∃ id ∈ ids, ∃ r ∈ net.network.bucket id.toString, _))

/-- The id has nodes, and all of them are healthy when the attempt checks its own. -/
def Sound (input : Attempt Resp) (run : Run σ Req) (id : AccountId) : Prop :=
  run.network.network.bucket id.toString ≠ [] ∧
    ∀ r ∈ run.network.network.bucket id.toString,
      ((checkedNetwork input run r).heap r).isHealthy input.sentAt = true

instance (input : Attempt Resp) (run : Run σ Req) (id : AccountId) :
    Decidable (Sound input run id) := inferInstanceAs (Decidable (_ ∧ _))

/-- The walk from the cursor reaches a position with a sound id after the number of
attempts, and none of them is at the position where the loop gives up. -/
def Reaches (cls : ExecutableClass σ Prep Req Resp Out) (sound : AccountId → Prop) :
    Nat → Executable → Prop
  | 0, base => ∃ id ∈ base.nodeAccountIds.current, base.isForeign id = false ∧ sound id
  | k + 1, base => ∃ id ∈ base.nodeAccountIds.current,
      (base.isForeign id = true ∨ (cls.cursorMoved base).isLastNode = false) ∧
      Reaches cls sound k (cls.nextBase id base)

instance Reaches.decidable (sound : AccountId → Prop) [DecidablePred sound] :
    ∀ k base, Decidable (cls.Reaches sound k base)
  | 0, base => inferInstanceAs (Decidable (∃ id ∈ base.nodeAccountIds.current, _))
  | k + 1, base =>
      have (id : AccountId) := Reaches.decidable sound k (cls.nextBase id base)
      inferInstanceAs (Decidable (∃ id ∈ base.nodeAccountIds.current,
        _ ∧ cls.Reaches sound k (cls.nextBase id base)))

/-- The node that is looked up for the id under the cursor. -/
def lookedUp (cls : ExecutableClass σ Prep Req Resp Out) (input : Attempt Resp) (run : Run σ Req) :
    Option NodeRef :=
  (cls.base run.request).nodeAccountIds.current.bind fun id =>
    ((Network.getNode (some id.toString) input.draws input.now).run run.network).1.toOption.join

/-- When some node is healthy, the walk reaches one; a walk through the whole list is
long enough. -/
def Justified (cls : ExecutableClass σ Prep Req Resp Out) (input : Attempt Resp)
    (run : Run σ Req) : Prop :=
  ∀ r ∈ cls.lookedUp input run,
    HealthyAmong (cls.base run.request).nodeAccountIds.list input.sentAt
      (checkedNetwork input run r) →
    ∃ k ≤ (cls.base run.request).nodeAccountIds.list.length,
      cls.Reaches (Sound input run) k (cls.base run.request)

instance (input : Attempt Resp) (run : Run σ Req) : Decidable (cls.Justified input run) :=
  inferInstanceAs (Decidable (∀ r ∈ cls.lookedUp input run, _ → ∃ k ≤ _, _))

theorem lookedUp_of_current {input : Attempt Resp} {run : Run σ Req} {id : AccountId} {r : NodeRef}
    (current : (cls.base run.request).nodeAccountIds.current = some id)
    (found : LooksUp input run id r) : r ∈ cls.lookedUp input run := by
  rw [LooksUp] at found
  simp [lookedUp, current, found, Except.toOption]

/-! ## One attempt -/

section Attempt

variable {startTime : ℚ} {delay : Executable → ℚ} {input : Attempt Resp} {run run' : Run σ Req}

/-- A sound id is looked up to a node that is healthy when it is checked. -/
theorem Sound.isHealthy {id : AccountId} {r : NodeRef} {request : Req} {made : Run σ Req}
    (sound : Sound input run id) (here : cls.At input run id r request made) :
    (made.network.heap r).isHealthy input.sentAt = true := by
  obtain ⟨r', inBucket, found⟩ := run_getNode_bucket sound.1 input.draws input.now
  have same : r' = r := by
    have lookedUp := here.lookedUp
    rw [LooksUp, found] at lookedUp
    cases lookedUp
    rfl
  rw [here.network, ← same]
  exact sound.2 r' inBucket

/-- A walk to a sound id does not give up here. -/
theorem Reaches.not_gaveUp {sound : AccountId → Prop} {k : Nat}
    (reaches : cls.Reaches sound k (cls.base run.request))
    (sounds : ∀ id, sound id → Sound input run id) {id : AccountId} {r : NodeRef} {request : Req}
    {chosen made : Run σ Req} (prepared : cls.Prepared startTime input run id r request chosen made)
    (unhealthy : (made.network.heap r).isHealthy input.sentAt = false) :
    (cls.base made.request).isLastNode = false := by
  cases k with
  | zero =>
      obtain ⟨_, current, _, sound⟩ := reaches
      obtain ⟨rfl, here⟩ := prepared.at current
      rw [(sounds _ sound).isHealthy here] at unhealthy
      cases unhealthy
  | succ k =>
      obtain ⟨_, current, foreign | more, _⟩ := reaches <;> obtain ⟨rfl, here⟩ := prepared.at current
      · rw [here.known] at foreign
        cases foreign
      · rw [here.base, more]

/-- A justified attempt gives up only when all nodes are unhealthy. -/
theorem Justified.not_healthyAmong (justified : cls.Justified input run)
    (inList : InList (cls.base run.request)) {id : AccountId} {r : NodeRef} {request : Req}
    {chosen made : Run σ Req} (prepared : cls.Prepared startTime input run id r request chosen made)
    (unhealthy : (made.network.heap r).isHealthy input.sentAt = false)
    (last : (cls.base made.request).isLastNode = true) :
    ¬ HealthyAmong (cls.base run.request).nodeAccountIds.list input.sentAt made.network := by
  intro healthy
  obtain ⟨rfl, here⟩ := prepared.at inList.current
  rw [here.network] at healthy
  obtain ⟨k, _, reaches⟩ := justified r (lookedUp_of_current inList.current here.lookedUp) healthy
  rw [reaches.not_gaveUp (fun _ sound => sound) prepared unhealthy] at last
  cases last

/-- The loop gave up only when all nodes with the ids were unhealthy. -/
def GaveUpRightly (ids : List AccountId) (run : Run σ Req) : Prop :=
  ∀ time, .gaveUp time ∈ run.events → ¬ HealthyAmong ids time run.network

/-- Every node that a request was handed to was healthy. -/
def SentToHealthy (events : List (Event Req)) : Prop :=
  ∀ node id request time, .sent node id request time ∈ events → node.isHealthy time = true

theorem GaveUpRightly.of_going {ids : List AccountId} (going : ∀ e ∈ run.events, e.isFinal = false) :
    GaveUpRightly ids run :=
  fun _ member => absurd (going _ member) (by simp [Event.isFinal])

theorem Attempted.gaveUpRightly {outcome : Except JsError (Step Out)}
    (attempt : cls.Attempted startTime delay input run outcome run')
    (justified : cls.Justified input run) (inList : InList (cls.base run.request))
    (going : ∀ e ∈ run.events, e.isFinal = false) :
    GaveUpRightly (cls.base run.request).nodeAccountIds.list run' := by
  cases attempt with
  | timedOut late => exact .of_going going
  | unchosen failed => exact .of_going ((chose failed).events ▸ going)
  | foreign choice unknown => exact .of_going ((chose choice).events ▸ going)
  | unmade choice failed =>
      exact .of_going ((events_prepareRequest failed).trans (chose choice).events ▸ going)
  | gaveUp prepared unhealthy last =>
      intro time member
      rw [prepared.events] at member
      rcases List.mem_append.mp member with before | here
      · exact absurd (going _ before) (by simp [Event.isFinal])
      · obtain rfl : time = input.sentAt := by simpa using here
        have all := justified.not_healthyAmong inList prepared unhealthy last
        exact all
  | skipped prepared unhealthy more => exact .of_going (prepared.events ▸ going)
  | sent prepared healthy judging =>
      obtain ⟨answers, events, answered, _⟩ := (judged judging).events
      intro time member
      rw [events, handed, prepared.events] at member
      rcases List.mem_append.mp member with before | here
      · rcases List.mem_append.mp before with before | sent
        · exact absurd (going _ before) (by simp [Event.isFinal])
        · simp at sent
      · exact absurd (answered _ here) (by simp [Event.isAnswer])

theorem sentToHealthy_tail {more : List (Event Req)} (tail : cls.Tail startTime input run more) :
    SentToHealthy more := by
  intro node id request time member
  cases tail with
  | nothing => simp at member
  | gaveUp => simp at member
  | sent prepared healthy answered =>
      rcases List.mem_cons.mp member with same | later
      · cases same
        exact healthy
      · exact absurd (answered _ later) (by simp [Event.isAnswer])

end Attempt

/-! ## The loop -/

section Loop

variable {isLocalNode : Bool} {schedule : Schedule Prep Resp} {maxAttempts remaining number : Nat}
  {run run' : Run σ Req} {outcome : Except JsError Out}

theorem gaveUpRightly_retryLoop (going : ∀ e ∈ run.events, e.isFinal = false)
    (inList : InList (cls.base run.request))
    (justified : cls.AllAttempts isLocalNode schedule
      (fun number run => cls.Justified (schedule.attempts number) run) remaining number run)
    (ran : (cls.retryLoop isLocalNode maxAttempts schedule remaining number).run run =
      (outcome, run')) : GaveUpRightly (cls.base run.request).nodeAccountIds.list run' := by
  refine retryLoop_rule
    (I := fun _ _ run' => (∀ e ∈ run'.events, e.isFinal = false) ∧ InList (cls.base run'.request) ∧
      (cls.base run'.request).nodeAccountIds.list = (cls.base run.request).nodeAccountIds.list)
    (Q := fun _ => GaveUpRightly (cls.base run.request).nodeAccountIds.list)
    ?_ ?_ ⟨going, inList, rfl⟩ justified ran
  · rintro remaining number before ⟨going, inList, list⟩ justified outcome after attempt
    have rightly := attempt.gaveUpRightly justified inList going
    rw [list] at rightly
    rcases outcome with e | _ | out
    · exact rightly
    · obtain ⟨more, events, _, again⟩ := attempt.events
      rw [attempt.base_again_of_current inList.current, list_nextBase, events]
      refine ⟨fun e member => ?_, inList.nextBase _, list⟩
      exact (List.mem_append.mp member).elim (going e) (again rfl e)
    · exact rightly
  · rintro number run e ⟨going, -⟩
    exact .of_going going

theorem sentToHealthy_retryLoop (healthy : SentToHealthy run.events)
    (ran : (cls.retryLoop isLocalNode maxAttempts schedule remaining number).run run =
      (outcome, run')) : SentToHealthy run'.events := by
  refine retryLoop_rule (I := fun _ _ run => SentToHealthy run.events)
    (Q := fun _ run => SentToHealthy run.events) ?_ ?_ healthy (allAttempts_true _ _ _) ran
  · intro remaining number before healthy _ outcome after attempt
    obtain ⟨more, events, tail, _⟩ := attempt.events
    have sent : SentToHealthy after.events := by
      intro node id request time member
      rw [events] at member
      exact (List.mem_append.mp member).elim (healthy node id request time)
        (sentToHealthy_tail tail node id request time)
    rcases outcome with e | _ | out <;> exact sent
  · intro number run e healthy
    exact healthy

/-- Requests that were sent stay sent. -/
theorem sentCount_le_retryLoop
    (ran : (cls.retryLoop isLocalNode maxAttempts schedule remaining number).run run =
      (outcome, run')) : sentCount run.events ≤ sentCount run'.events :=
  (events_retryLoop ran).sublist.countP_le

/-- The attempt sends a request, comes one step closer to the sound id, or throws
without giving up. -/
theorem Reaches.attempt {stable : List AccountId} {k : Nat} {startTime : ℚ}
    {delay : Executable → ℚ} {input : Attempt Resp} {outcome : Except JsError (Step Out)}
    (reaches : cls.Reaches (· ∈ stable) k (cls.base run.request))
    (sound : ∀ id ∈ stable, Sound input run id)
    (attempt : cls.Attempted startTime delay input run outcome run') :
    sentCount run.events < sentCount run'.events ∨
      run'.events = run.events ∧ ((∃ e, outcome = .error e) ∨
        outcome = .ok .again ∧ ∃ j, k = j + 1 ∧ cls.Reaches (· ∈ stable) j (cls.base run'.request)) := by
  have base : ∀ id, (cls.base run.request).nodeAccountIds.current = some id → outcome = .ok .again →
      cls.base run'.request = cls.nextBase id (cls.base run.request) := by
    rintro id current rfl
    exact attempt.base_again_of_current current
  cases attempt with
  | timedOut late => exact .inr ⟨rfl, .inl ⟨_, rfl⟩⟩
  | unchosen failed => exact .inr ⟨(chose failed).events, .inl ⟨_, rfl⟩⟩
  | unmade choice failed =>
      exact .inr ⟨(events_prepareRequest failed).trans (chose choice).events, .inl ⟨_, rfl⟩⟩
  | foreign choice unknown =>
      refine .inr ⟨(chose choice).events, .inr ⟨rfl, ?_⟩⟩
      cases k with
      | zero =>
          obtain ⟨id, current, known, _⟩ := reaches
          obtain ⟨rfl, _, rfl⟩ := choice_of_current current choice
          rw [known] at unknown
          cases unknown
      | succ j =>
          obtain ⟨id, current, _, rest⟩ := reaches
          exact ⟨j, rfl, base id current rfl ▸ rest⟩
  | gaveUp prepared unhealthy last =>
      rw [reaches.not_gaveUp sound prepared unhealthy] at last
      cases last
  | skipped prepared unhealthy more =>
      refine .inr ⟨prepared.events, .inr ⟨rfl, ?_⟩⟩
      cases k with
      | zero =>
          obtain ⟨id, current, _, stable⟩ := reaches
          obtain ⟨rfl, here⟩ := prepared.at current
          rw [(sound _ stable).isHealthy here] at unhealthy
          cases unhealthy
      | succ j =>
          obtain ⟨id, current, _, rest⟩ := reaches
          exact ⟨j, rfl, base id current rfl ▸ rest⟩
  | sent prepared healthy judging =>
      obtain ⟨answers, events, _, _⟩ := (judged judging).events
      refine .inl ?_
      rw [events, handed, prepared.events]
      simp only [sentCount, List.countP_append]
      simp [Event.isSent]
      omega

/-- While the ids stay sound, a walk that reaches one sends a request, unless the
loop ends in another error before. -/
theorem sends_of_reaches {stable : List AccountId} {k : Nat}
    (reaches : cls.Reaches (· ∈ stable) k (cls.base run.request)) (enough : k < remaining)
    (sound : cls.AllAttempts isLocalNode schedule
      (fun number run => ∀ id ∈ stable, Sound (schedule.attempts number) run id)
      remaining number run)
    (going : ∀ e ∈ run.events, e.isFinal = false)
    (ran : (cls.retryLoop isLocalNode maxAttempts schedule remaining number).run run =
      (outcome, run')) :
    sentCount run.events < sentCount run'.events ∨
      (∃ e, outcome = .error e) ∧ ∀ time, .gaveUp time ∉ run'.events := by
  induction remaining generalizing k number run with
  | zero => omega
  | succ remaining inductionHypothesis =>
      obtain ⟨here, others⟩ := sound
      rcases one : (cls.attempt schedule.startTime (Executable.delayForAttempt isLocalNode number)
        (schedule.attempts number)).run run with ⟨e | _ | out, next⟩
      · rw [retryLoop, Method.run_bind_error one] at ran
        cases ran
        rcases reaches.attempt here (attempted one) with sent | ⟨same, _⟩
        · exact .inl sent
        · refine .inr ⟨⟨e, rfl⟩, fun time member => ?_⟩
          exact absurd (going _ (same ▸ member)) (by simp [Event.isFinal])
      · rw [retryLoop, Method.run_bind_ok one] at ran
        rcases reaches.attempt here (attempted one) with sent | ⟨same, thrown | ⟨_, j, rfl, closer⟩⟩
        · exact .inl (sent.trans_le (sentCount_le_retryLoop ran))
        · obtain ⟨e, thrown⟩ := thrown
          cases thrown
        · rw [← same]
          exact inductionHypothesis closer (by omega) (others next (by rw [next?, one]; rfl))
            (same ▸ going) ran
      · rw [retryLoop, Method.run_bind_ok one] at ran
        cases ran
        rcases reaches.attempt here (attempted one) with sent | ⟨_, thrown | ⟨again, _⟩⟩
        · exact .inl sent
        · obtain ⟨e, thrown⟩ := thrown
          cases thrown
        · cases again

end Loop

/-! ## The execution -/

section Execute

variable {client : Client} {requestTimeout : Option ℚ} {schedule : Schedule Prep Resp}
  {run prepared run' : Run σ Req} {outcome : Except JsError Out}

end Execute

section Samples

open Transaction

/-- A client one of whose nodes has just failed. -/
def clientAfterFailure (r : NodeRef) : Client where
  network := Network.step (sampleClient [3, 4]).network ⟨.increaseBackoff r, id, 0⟩

/-- A transfer whose cursor is at the node 0.0.4, as an execution that went through at
the first attempt leaves it. -/
def transferAtLast : Transaction :=
  { frozenTransfer [3, 4] with
    nodeAccountIds := { (frozenTransfer [3, 4]).nodeAccountIds with index := 1 } }

end Samples

end HederaSdk.ExecutableClass
