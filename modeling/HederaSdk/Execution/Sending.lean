import HederaSdk.Execution.Budget

/-!
# What is sent

An attempt sends exactly when it gets as far as a healthy node, and then it sends the request
that it has prepared. A condition on all requests that are sent is one on every attempt.
-/

namespace HederaSdk.ExecutableClass

open Library Network RunMethod

variable {σ Prep Req Resp Out : Type} {cls : ExecutableClass σ Prep Req Resp Out}

section Attempt

variable {startTime : ℚ} {delay : Executable → ℚ} {input : Attempt Resp} {run run' : Run σ Req}

/-- What is prepared in an attempt is prepared in no other way. -/
theorem Prepared.unique {id id' : AccountId} {r r' : NodeRef} {request request' : Req}
    {chosen chosen' made made' : Run σ Req}
    (prepared : cls.Prepared startTime input run id r request chosen made)
    (prepared' : cls.Prepared startTime input run id' r' request' chosen' made') :
    id = id' ∧ r = r' ∧ request = request' ∧ made = made' := by
  have choice := prepared.choice.symm.trans prepared'.choice
  cases choice
  have making := prepared.making.symm.trans prepared'.making
  cases making
  exact ⟨rfl, rfl, rfl, rfl⟩

/-- Whatever the attempt would send meets the condition. -/
def Sends (cls : ExecutableClass σ Prep Req Resp Out) (startTime : ℚ) (input : Attempt Resp) (run : Run σ Req)
    (condition : AccountId → Req → Prop) : Prop :=
  ∀ id r request chosen made, cls.Prepared startTime input run id r request chosen made →
    (made.network.heap r).isHealthy input.sentAt = true → condition id request

/-- The condition on the requests among some events. -/
def AllSent (condition : AccountId → Req → Prop) (events : List (Event Req)) : Prop :=
  ∀ node nodeId request time, .sent node nodeId request time ∈ events → condition nodeId request

variable {condition : AccountId → Req → Prop}

@[simp] theorem allSent_nil : AllSent condition [] := fun _ _ _ _ member => absurd member List.not_mem_nil

theorem allSent_append {first second : List (Event Req)} :
    AllSent condition (first ++ second) ↔ AllSent condition first ∧ AllSent condition second := by
  simp only [AllSent, List.mem_append, or_imp, forall_and]

theorem allSent_answers {answers : List (Event Req)} (answered : ∀ e ∈ answers, e.isAnswer = true) :
    AllSent condition answers := by
  intro node nodeId request time member
  cases answered _ member

theorem allSent_sent {node : Node} {nodeId : AccountId} {request : Req} {time : ℚ} :
    AllSent condition [.sent node nodeId request time] ↔ condition nodeId request := by
  constructor
  · exact fun all => all node nodeId request time List.mem_cons_self
  · intro meets node' nodeId' request' time' member
    cases List.mem_singleton.mp member
    exact meets

/-- An attempt adds a request that meets the condition exactly when what it would send does. -/
theorem Attempted.allSent_iff {outcome : Except JsError (Step Out)}
    (attempt : cls.Attempted startTime delay input run outcome run') :
    AllSent condition run'.events ↔
      AllSent condition run.events ∧ cls.Sends startTime input run condition := by
  cases attempt with
  | timedOut late =>
      refine ⟨fun all => ⟨all, fun _ _ _ _ _ prepared _ => ?_⟩, And.left⟩
      cases prepared.inTime.symm.trans late
  | unchosen failed =>
      rw [(chose failed).events]
      refine ⟨fun all => ⟨all, fun _ _ _ _ _ prepared _ => ?_⟩, And.left⟩
      cases prepared.choice.symm.trans failed
  | foreign choice unknown =>
      rw [moved, (chose choice).events]
      refine ⟨fun all => ⟨all, fun _ _ _ _ _ prepared _ => ?_⟩, And.left⟩
      cases prepared.choice.symm.trans choice
      cases prepared.known.symm.trans unknown
  | unmade choice failed =>
      rw [events_prepareRequest failed, (chose choice).events]
      refine ⟨fun all => ⟨all, fun _ _ _ _ _ prepared _ => ?_⟩, And.left⟩
      cases prepared.choice.symm.trans choice
      cases prepared.making.symm.trans failed
  | gaveUp prepared unhealthy last =>
      rw [prepared.events, allSent_append]
      refine ⟨fun all => ⟨all.1, fun _ _ _ _ _ prepared' healthy => ?_⟩, fun all => ⟨all.1, ?_⟩⟩
      · obtain ⟨-, rfl, -, rfl⟩ := prepared.unique prepared'
        cases unhealthy.symm.trans healthy
      · intro node nodeId request time member
        cases List.mem_singleton.mp member
  | skipped prepared unhealthy more =>
      rw [moved, prepared.events]
      refine ⟨fun all => ⟨all, fun _ _ _ _ _ prepared' healthy => ?_⟩, And.left⟩
      obtain ⟨-, rfl, -, rfl⟩ := prepared.unique prepared'
      cases unhealthy.symm.trans healthy
  | sent prepared healthy judging =>
      obtain ⟨answers, events, answered, _⟩ := (judged judging).events
      rw [events, handed, prepared.events, allSent_append, allSent_append, allSent_sent]
      constructor
      · rintro ⟨⟨before, meets⟩, -⟩
        refine ⟨before, fun _ _ _ _ _ prepared' _ => ?_⟩
        obtain ⟨rfl, -, rfl, -⟩ := prepared.unique prepared'
        exact meets
      · rintro ⟨before, sends⟩
        exact ⟨⟨before, sends _ _ _ _ _ prepared healthy⟩, allSent_answers answered⟩

/-- A response that is rejected ends the attempt with the error made of its status. -/
theorem rejected_judged {id : AccountId} {r : NodeRef} {request : Req} {e : JsError}
    (ran : (cls.judge delay id r request input).run run = (.error e, run'))
    (before : .classified .error ∉ run.events) (rejected : .classified .error ∈ run'.events) :
    ∃ response status after, input.outcome = .ok response ∧
      (cls.shouldRetry request response input.regenerated).run run.request = (.ok (status, .error), after) ∧
      (((cls.mapStatusError request response id).run after).1 = .ok e ∨
        ((cls.mapStatusError request response id).run after).1 = .error e) := by
  cases answer : input.outcome with
  | error failure =>
      simp only [judge, answer, judgeError] at ran
      cases read : grpcServiceErrorFromResponse failure with
      | error bug =>
          rw [read] at ran
          cases ran
          exact absurd rejected before
      | ok error =>
          rw [read, Method.run_bind_ok (Method.run_ofExcept_ok _ _), RunMethod.note, Method.run_update_bind,
            Method.run_update_bind] at ran
          split at ran
          · cases ran
          · cases ran
            simp [before] at rejected
  | ok response =>
      simp only [judge, answer] at ran
      rw [judgeResponse, Method.run_bind_ok (run_onNetwork _ _), Method.run_bind, run_onRequest] at ran
      simp only [Method.run_update] at ran
      generalize judging : (cls.shouldRetry request response input.regenerated).run run.request = judgement
        at ran
      obtain ⟨e' | ⟨status, state⟩, after⟩ := judgement
      · cases ran
        exact absurd rejected before
      cases state with
      | retry => cases ran
      | finished =>
          simp only [Method.run_bind, RunMethod.note, Method.run_update, run_onRequest,
            Run.request_noteStatus] at ran
          generalize (cls.mapResponse response id request).run after = mapped at ran
          obtain ⟨_ | out, final⟩ := mapped
          · cases ran
            simp [before] at rejected
          · cases ran
      | error =>
          refine ⟨response, status, after, rfl, judging, ?_⟩
          simp only [Method.run_bind, RunMethod.note, Method.run_update, run_onRequest,
            Run.request_noteStatus] at ran
          generalize (cls.mapStatusError request response id).run after = mapped at ran ⊢
          obtain ⟨_ | made, final⟩ := mapped
          · cases ran
            exact .inr rfl
          · cases ran
            exact .inl rfl

end Attempt

section Loop

variable {isLocalNode : Bool} {schedule : Schedule Prep Resp} {condition : AccountId → Req → Prop}

/-- All requests of a loop meet a condition exactly when every attempt sends only such. -/
theorem allSent_retryLoop_iff {maxAttempts remaining number : Nat} {run run' : Run σ Req}
    {outcome : Except JsError Out}
    (ran : (cls.retryLoop isLocalNode maxAttempts schedule remaining number).run run = (outcome, run')) :
    AllSent condition run'.events ↔
      AllSent condition run.events ∧ cls.AllAttempts isLocalNode schedule
        (fun number run => cls.Sends schedule.startTime (schedule.attempts number) run condition)
        remaining number run := by
  induction remaining generalizing number run with
  | zero =>
      have same : run' = run := by
        rw [retryLoop, ExecutableClass.exhausted, Method.run_this_bind] at ran
        generalize (cls.base run.request).currentText = text at ran
        cases text <;> cases ran <;> rfl
      rw [same]
      exact ⟨fun all => ⟨all, trivial⟩, And.left⟩
  | succ remaining inductionHypothesis =>
      rcases one : (cls.attempt schedule.startTime (Executable.delayForAttempt isLocalNode number)
        (schedule.attempts number)).run run with ⟨e | _ | out, next⟩
      · have step : AllSent condition _ ↔ _ := (attempted one).allSent_iff
        rw [retryLoop, Method.run_bind_error one] at ran
        cases ran
        rw [step, AllAttempts, next?, one]
        simp
      · have step : AllSent condition _ ↔ _ := (attempted one).allSent_iff
        rw [retryLoop, Method.run_bind_ok one] at ran
        rw [inductionHypothesis ran, step, AllAttempts, next?, one]
        simp [and_assoc]
      · have step : AllSent condition _ ↔ _ := (attempted one).allSent_iff
        rw [retryLoop, Method.run_bind_ok one] at ran
        cases ran
        rw [step, AllAttempts, next?, one]
        simp

end Loop

/-! ## What the methods of a class keep -/

/-- The assertion survives the methods of the class and a change of the nodes. -/
structure Keeping (cls : ExecutableClass σ Prep Req Resp Out) (J : σ → Prop) : Prop where
  setNodeIds : ∀ nodeAccountIds s, J s → J (cls.setNodeIds nodeAccountIds s)
  makeRequest : ∀ moment generated, Method.Keeps J (cls.makeRequest moment generated)
  shouldRetry : ∀ request response generated, Method.Keeps J (cls.shouldRetry request response generated)
  mapStatusError : ∀ request response id, Method.Keeps J (cls.mapStatusError request response id)
  mapResponse : ∀ response id request, Method.Keeps J (cls.mapResponse response id request)

section

variable {J : σ → Prop}

theorem keeps_onRequest {α : Type} {m : Method JsError σ α} (keeps : Method.Keeps J m) :
    Method.Keeps (fun run : Run σ Req => J run.request) (RunMethod.onRequest m) :=
  fun run start => keeps run.request start

theorem keeps_judgeError (r : NodeRef) (input : Attempt Resp) (e : JsError) :
    Method.Keeps (fun run : Run σ Req => J run.request)
      (judgeError r input e : RunMethod σ Req (Step Out)) :=
  .bind (.ofExcept _) fun _ => .bind (.update fun _ start => start) fun _ =>
    .bind (.update fun _ start => start) fun _ =>
      .ite (.bind (fun _ start => start) fun _ => .pure _) (.throwing _)

end

namespace Keeping

variable {J : σ → Prop} (keeping : cls.Keeping J)

include keeping

theorem chooseNode (input : Attempt Resp) :
    Method.Keeps (fun run : Run σ Req => J run.request) (cls.chooseNode input) := by
  refine .bind .this fun run => .ite ?_ ?_
  · refine .bind (fun _ start => start) fun r => .bind .this fun run => ?_
    cases r with
    | none => exact .throwing _
    | some r =>
        exact .bind (.ofExcept _) fun ids =>
          .bind (.update fun run start => keeping.setNodeIds ids run.request start) fun _ => .pure _
  · refine .bind .this fun run => ?_
    cases (cls.nodeIds run.request).current with
    | none => exact .bind (fun _ start => start) fun _ => .throwing _
    | some id =>
        refine .bind (fun _ start => start) fun r => ?_
        cases r with
        | none => exact .throwing _
        | some r => exact .pure _

theorem judgeResponse (delay : Executable → ℚ) (id : AccountId) (r : NodeRef) (request : Req)
    (input : Attempt Resp) (response : Resp) : Method.Keeps (fun run : Run σ Req => J run.request)
      (cls.judgeResponse delay id r request input response) := by
  refine .bind (fun _ start => start) fun _ =>
    .bind (keeps_onRequest (keeping.shouldRetry request response _)) fun verdict => ?_
  refine .bind (.update fun _ start => start) fun _ => .bind (.update fun _ start => start) fun _ => ?_
  cases verdict.2 with
  | retry =>
      exact .bind .this fun _ => .bind (.update fun _ start => start) fun _ =>
        .bind (.update fun _ start => start) fun _ => .pure _
  | finished => exact .bind (keeps_onRequest (keeping.mapResponse response id request)) fun _ => .pure _
  | error => exact .bind (keeps_onRequest (keeping.mapStatusError request response id)) fun _ => .throwing _

theorem send (delay : Executable → ℚ) (id : AccountId) (r : NodeRef) (request : Req) (input : Attempt Resp) :
    Method.Keeps (fun run : Run σ Req => J run.request) (cls.send delay id r request input) := by
  refine .bind (.update fun run start => keeping.setNodeIds _ run.request start) fun _ => .bind .this fun _ =>
    .bind (.update fun _ start => start) fun _ => .bind (.update fun _ start => start) fun _ => ?_
  cases input.outcome with
  | error e => exact keeps_judgeError r input e
  | ok response => exact keeping.judgeResponse delay id r request input response

theorem prepareRequest (r : NodeRef) (input : Attempt Resp) :
    Method.Keeps (fun run : Run σ Req => J run.request) (cls.prepareRequest r input) := by
  have logged : Method.Keeps J cls.getLogId := fun s start => by
    rw [cls.getLogId_keeps]
    exact start
  exact .bind (keeps_onRequest logged) fun _ => .bind (fun _ start => start) fun _ =>
    .bind (keeps_onRequest (keeping.makeRequest _ _)) fun _ => .bind (.update fun _ start => start) fun _ =>
      .pure _

theorem made {startTime : ℚ} {input : Attempt Resp} {run chosen made : Run σ Req} {id : AccountId}
    {r : NodeRef} {request : Req} (start : J run.request)
    (prepared : cls.Prepared startTime input run id r request chosen made) : J made.request := by
  have chose := keeping.chooseNode input run start
  rw [prepared.choice] at chose
  have kept := keeping.prepareRequest r input chosen chose
  rwa [prepared.making] at kept

theorem attempt (startTime : ℚ) (delay : Executable → ℚ) (input : Attempt Resp) :
    Method.Keeps (fun run : Run σ Req => J run.request) (cls.attempt startTime delay input) := by
  have skipped : Method.Keeps (fun run : Run σ Req => J run.request) cls.advance :=
    .update fun run start => keeping.setNodeIds _ run.request start
  refine .bind .this fun run => .bind (.ofExcept _) fun _ => .bind (keeping.chooseNode input) fun choice =>
    .bind .this fun run => .ite (.bind skipped fun _ => .pure _)
      (.bind (keeping.prepareRequest choice.2 input) fun request => ?_)
  refine .bind .this fun run => .ite (keeping.send delay choice.1 choice.2 request input) ?_
  exact .bind .this fun run => .ite
    (.bind (.update fun _ start => start) fun _ => .throwing _)
    (.bind skipped fun _ => .pure _)

theorem retryLoop (isLocalNode : Bool) (maxAttempts : Nat) (schedule : Schedule Prep Resp)
    (remaining number : Nat) : Method.Keeps (fun run : Run σ Req => J run.request)
      (cls.retryLoop isLocalNode maxAttempts schedule remaining number) := by
  induction remaining generalizing number with
  | zero => exact .bind .this fun _ => .bind (.ofExcept _) fun _ => .throwing _
  | succ remaining inductionHypothesis =>
      refine .bind (keeping.attempt _ _ _) fun step => ?_
      cases step with
      | again => exact inductionHypothesis _
      | finished out => exact .pure _

/-- What is kept by everything that an execution does is kept by the execution. -/
theorem execute {client : Client} {requestTimeout : Option ℚ} {schedule : Schedule Prep Resp}
    (setTimeout : ∀ s, J s → J (cls.withBase ((cls.base s).setTimeout client requestTimeout) s))
    (takeMinBackoff : ∀ s, J s → J (cls.withBase ((cls.base s).takeMinBackoff client) s))
    (before : Method.Keeps (fun part : σ × Network => J part.1)
      (cls.beforeExecute client schedule.preparation)) :
    Method.Keeps (fun run : Run σ Req => J run.request) (cls.execute client requestTimeout schedule) := by
  refine .bind ?_ fun _ => .bind .this fun _ => keeping.retryLoop _ _ _ _ _
  refine .bind (.update fun run start => setTimeout run.request start) fun _ => .bind ?_ fun _ => ?_
  · exact fun run start => before (run.request, run.network) start
  · exact .bind (.update fun _ start => start) fun _ =>
      .bind (.update fun run start => takeMinBackoff run.request start) fun _ => .bind .this fun _ => .ofExcept _

end Keeping

/-! ## Refused requests -/

/-- The execution throws, and nothing was sent. -/
def Refused (result : Except JsError Out × Run σ Req) : Prop :=
  (∃ e, result.1 = .error e) ∧ ∀ event ∈ result.2.events, event.isSent = false

section

variable {client : Client} {requestTimeout : Option ℚ} {schedule : Schedule Prep Resp} {s : σ} {e : JsError}

/-- A request that `_beforeExecute` throws for is refused. -/
theorem refused_of_beforeExecute
    (threw : ((cls.beforeExecute client schedule.preparation).run
      (cls.withBase ((cls.base s).setTimeout client requestTimeout) s, client.network)).1 = .error e) :
    Refused ((cls.execute client requestTimeout schedule).run (Run.start client s)) := by
  have stopped : ((cls.prepare client requestTimeout schedule).run (Run.start client s)).1 = .error e := by
    rw [prepare, Method.run_update_bind, Method.run_bind, Method.run_zoom]
    simp only [Run.start, threw]
  rcases ran : (cls.prepare client requestTimeout schedule).run (Run.start client s) with ⟨outcome, start⟩
  rw [ran] at stopped
  subst stopped
  have none : start.events = [] := (run_prepare ran).1
  have whole : (cls.execute client requestTimeout schedule).run (Run.start client s) = (.error e, start) :=
    Method.run_bind_error ran
  rw [whole]
  refine ⟨⟨e, rfl⟩, fun event member => ?_⟩
  rw [none] at member
  cases member

/-- The loop does not look at what preparing met. -/
theorem retryLoop_preparation (isLocalNode : Bool) (maxAttempts : Nat) (preparation : Prep)
    (remaining number : Nat) :
    cls.retryLoop isLocalNode maxAttempts { schedule with preparation } remaining number =
      cls.retryLoop isLocalNode maxAttempts schedule remaining number := by
  induction remaining generalizing number with
  | zero => rfl
  | succ remaining inductionHypothesis =>
      simp only [retryLoop, inductionHypothesis]

theorem execute_preparation {preparation preparation' : Prep}
    (same : (cls.beforeExecute client preparation).run
        (cls.withBase ((cls.base s).setTimeout client requestTimeout) s, client.network) =
      (cls.beforeExecute client preparation').run
        (cls.withBase ((cls.base s).setTimeout client requestTimeout) s, client.network)) :
    (cls.execute client requestTimeout { schedule with preparation }).run (Run.start client s) =
      (cls.execute client requestTimeout { schedule with preparation := preparation' }).run
        (Run.start client s) := by
  have prepared : (cls.prepare client requestTimeout { schedule with preparation }).run (Run.start client s) =
      (cls.prepare client requestTimeout { schedule with preparation := preparation' }).run
        (Run.start client s) := by
    simp only [prepare, Method.run_update, Method.run_bind, Method.run_zoom, Run.start, same]
  simp only [execute, Method.run_bind, prepared, retryLoop_preparation]

end

/-! ## What happens to the network -/

/-- The assertion survives all that is done to the network while a request is executed. -/
structure NetworkKeeps (J : Network → Prop) : Prop where
  step : ∀ net call, J net → J (Network.step net call)
  getChannel : ∀ net r, J net → J (net.updateNode r Node.getChannel)

namespace NetworkKeeps

variable {J : Network → Prop} (keeps : NetworkKeeps J)

include keeps

theorem meanwhile (calls : List NetworkCall) :
    Method.Keeps (fun run : Run σ Req => J run.network) (RunMethod.meanwhile calls) :=
  .update fun _ start => runAll_invariant_all keeps.step calls start

theorem getNode (key : Option AccountId) (draws : Nat → Nat) (now : ℚ) :
    Method.Keeps (fun run : Run σ Req => J run.network)
      (RunMethod.onNetwork (Network.getNode (key.map AccountId.toString) draws now)) := by
  intro run start
  have after := keeps.step run.network ⟨.getNode key, draws, now⟩ start
  rw [Network.step, NetworkCall.method, Method.run_bind_snd _ _ fun _ _ => rfl] at after
  exact after

theorem chooseNode (input : Attempt Resp) :
    Method.Keeps (fun run : Run σ Req => J run.network) (cls.chooseNode input) := by
  refine .bind .this fun run => .ite ?_ ?_
  · refine .bind (keeps.getNode none input.draws input.now) fun r => .bind .this fun run => ?_
    cases r with
    | none => exact .throwing _
    | some r => exact .bind (.ofExcept _) fun ids => .bind (.update fun _ start => start) fun _ => .pure _
  · refine .bind .this fun run => ?_
    cases (cls.nodeIds run.request).current with
    | none => exact .bind (keeps.getNode none input.draws input.now) fun _ => .throwing _
    | some id =>
        refine .bind (keeps.getNode (some id) input.draws input.now) fun r => ?_
        cases r with
        | none => exact .throwing _
        | some r => exact .pure _

theorem judgeError (r : NodeRef) (input : Attempt Resp) (e : JsError) :
    Method.Keeps (fun run : Run σ Req => J run.network)
      (judgeError r input e : RunMethod σ Req (Step Out)) := by
  refine .bind (.ofExcept _) fun _ => .bind (.update fun _ start => start) fun _ =>
    .bind (.update fun _ start => start) fun _ => .ite (.bind ?_ fun _ => .pure _) (.throwing _)
  exact fun run start => keeps.step run.network ⟨.increaseBackoff r, id, input.answeredAt⟩ start

theorem judgeResponse (delay : Executable → ℚ) (id : AccountId) (r : NodeRef) (request : Req)
    (input : Attempt Resp) (response : Resp) : Method.Keeps (fun run : Run σ Req => J run.network)
      (cls.judgeResponse delay id r request input response) := by
  refine .bind (fun run start => keeps.step run.network ⟨.decreaseBackoff r, fun n => n, 0⟩ start) fun _ =>
    .bind (fun _ start => start) fun verdict => ?_
  refine .bind (.update fun _ start => start) fun _ => .bind (.update fun _ start => start) fun _ => ?_
  cases verdict.2 with
  | retry =>
      exact .bind .this fun _ => .bind (.update fun _ start => start) fun _ =>
        .bind (keeps.meanwhile _) fun _ => .pure _
  | finished => exact .bind (fun _ start => start) fun _ => .pure _
  | error => exact .bind (fun _ start => start) fun _ => .throwing _

theorem send (delay : Executable → ℚ) (id : AccountId) (r : NodeRef) (request : Req) (input : Attempt Resp) :
    Method.Keeps (fun run : Run σ Req => J run.network) (cls.send delay id r request input) := by
  refine .bind (.update fun _ start => start) fun _ => .bind .this fun _ =>
    .bind (.update fun _ start => start) fun _ => .bind (keeps.meanwhile _) fun _ => ?_
  cases input.outcome with
  | error e => exact keeps.judgeError r input e
  | ok response => exact keeps.judgeResponse delay id r request input response

theorem attempt (startTime : ℚ) (delay : Executable → ℚ) (input : Attempt Resp) :
    Method.Keeps (fun run : Run σ Req => J run.network) (cls.attempt startTime delay input) := by
  have skipped : Method.Keeps (fun run : Run σ Req => J run.network) cls.advance := .update fun _ start => start
  refine .bind .this fun run => .bind (.ofExcept _) fun _ => .bind (keeps.chooseNode input) fun choice =>
    .bind .this fun run => .ite (.bind skipped fun _ => .pure _) (.bind ?_ fun request => ?_)
  · exact .bind (fun _ start => start) fun _ =>
      .bind (fun run start => keeps.getChannel run.network choice.2 start) fun _ =>
        .bind (fun _ start => start) fun _ => .bind (keeps.meanwhile _) fun _ => .pure _
  · refine .bind .this fun run => .ite (keeps.send delay choice.1 choice.2 request input) ?_
    exact .bind .this fun run => .ite
      (.bind (.update fun _ start => start) fun _ => .throwing _)
      (.bind skipped fun _ => .pure _)

theorem retryLoop (isLocalNode : Bool) (maxAttempts : Nat) (schedule : Schedule Prep Resp)
    (remaining number : Nat) : Method.Keeps (fun run : Run σ Req => J run.network)
      (cls.retryLoop isLocalNode maxAttempts schedule remaining number) := by
  induction remaining generalizing number with
  | zero => exact .bind .this fun _ => .bind (.ofExcept _) fun _ => .throwing _
  | succ remaining inductionHypothesis =>
      refine .bind (keeps.attempt _ _ _) fun step => ?_
      cases step with
      | again => exact inductionHypothesis _
      | finished out => exact .pure _

theorem execute {client : Client} {requestTimeout : Option ℚ} {schedule : Schedule Prep Resp}
    (before : Method.Keeps (fun part : σ × Network => J part.2)
      (cls.beforeExecute client schedule.preparation)) :
    Method.Keeps (fun run : Run σ Req => J run.network) (cls.execute client requestTimeout schedule) := by
  refine .bind ?_ fun _ => .bind .this fun _ => keeps.retryLoop _ _ _ _ _
  refine .bind (.update fun _ start => start) fun _ => .bind ?_ fun _ => .bind (keeps.meanwhile _) fun _ =>
    .bind (.update fun _ start => start) fun _ => .bind .this fun _ => .ofExcept _
  exact fun run start => before (run.request, run.network) start

end NetworkKeeps

end HederaSdk.ExecutableClass
