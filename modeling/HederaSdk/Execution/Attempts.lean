import HederaSdk.Execution.Execute
import HederaSdk.Network.Lookup

/-!
# What an attempt can do

`Attempted` lists the ways in which an attempt ends; everything about runs is
derived from it. `AllAttempts` says that every attempt of the retry loop meets a
condition in the state it starts in, and `retryLoop_keeps` is the rule for
invariants of such loops.
-/

namespace HederaSdk.ExecutableClass

open Library Network RunMethod

variable {σ Prep Req Resp Out : Type} (cls : ExecutableClass σ Prep Req Resp Out)

/-! ## One attempt -/

/-- The run once the cursor has moved on. -/
def moved (run : Run σ Req) : Run σ Req :=
  { run with request := cls.setNodeIds (cls.nodeIds run.request).advance run.request }

@[simp] theorem base_moved (run : Run σ Req) :
    cls.base (cls.moved run).request =
      { cls.base run.request with nodeAccountIds := (cls.base run.request).nodeAccountIds.advance } :=
  cls.base_withBase _ _

/-- The run once the request has been handed to the channel of the node. -/
def handed (id : AccountId) (r : NodeRef) (request : Req) (input : Attempt Resp) (run : Run σ Req) :
    Run σ Req :=
  { cls.moved run with
    network := runAll step run.network input.whileCalling
    events := run.events ++ [.sent (run.network.heap r) id request input.sentAt] }

/-- What is done with the answer of the node. -/
def judge (delay : Executable → ℚ) (id : AccountId) (r : NodeRef) (request : Req)
    (input : Attempt Resp) : RunMethod σ Req (Step Out) :=
  match input.outcome with
  | .error e => judgeError r input e
  | .ok response => cls.judgeResponse delay id r request input response

/-- The node is chosen and the request is made. -/
structure Prepared (startTime : ℚ) (input : Attempt Resp) (run : Run σ Req) (id : AccountId)
    (r : NodeRef) (request : Req) (chosen made : Run σ Req) : Prop where
  inTime : (cls.base run.request).checkTimeout startTime input.now = .ok ()
  choice : (cls.chooseNode input).run run = (.ok (id, r), chosen)
  known : (cls.base chosen.request).isForeign id = false
  making : (cls.prepareRequest r input).run chosen = (.ok request, made)

/-- How an attempt ends and what it leaves behind. -/
inductive Attempted (startTime : ℚ) (delay : Executable → ℚ) (input : Attempt Resp)
    (run : Run σ Req) : Except JsError (Step Out) → Run σ Req → Prop where
  | timedOut {e} (late : (cls.base run.request).checkTimeout startTime input.now = .error e) :
      Attempted startTime delay input run (.error e) run
  | unchosen {e chosen} (failed : (cls.chooseNode input).run run = (.error e, chosen)) :
      Attempted startTime delay input run (.error e) chosen
  | foreign {id r chosen} (choice : (cls.chooseNode input).run run = (.ok (id, r), chosen))
      (unknown : (cls.base chosen.request).isForeign id = true) :
      Attempted startTime delay input run (.ok .again) (cls.moved chosen)
  | unmade {id r chosen e made} (choice : (cls.chooseNode input).run run = (.ok (id, r), chosen))
      (failed : (cls.prepareRequest r input).run chosen = (.error e, made)) :
      Attempted startTime delay input run (.error e) made
  | gaveUp {id r request chosen made}
      (prepared : cls.Prepared startTime input run id r request chosen made)
      (unhealthy : (made.network.heap r).isHealthy input.sentAt = false)
      (last : (cls.base made.request).isLastNode = true) :
      Attempted startTime delay input run (.error (cls.base made.request).allUnhealthy)
        { made with events := made.events ++ [.gaveUp input.sentAt] }
  | skipped {id r request chosen made}
      (prepared : cls.Prepared startTime input run id r request chosen made)
      (unhealthy : (made.network.heap r).isHealthy input.sentAt = false)
      (more : (cls.base made.request).isLastNode = false) :
      Attempted startTime delay input run (.ok .again) (cls.moved made)
  | sent {id r request chosen made outcome run'}
      (prepared : cls.Prepared startTime input run id r request chosen made)
      (healthy : (made.network.heap r).isHealthy input.sentAt = true)
      (judged : (cls.judge delay id r request input).run (cls.handed id r request input made) =
        (outcome, run')) :
      Attempted startTime delay input run outcome run'

theorem run_send (delay : Executable → ℚ) (id : AccountId) (r : NodeRef) (request : Req)
    (input : Attempt Resp) (run : Run σ Req) :
    (cls.send delay id r request input).run run =
      (cls.judge delay id r request input).run (cls.handed id r request input run) := rfl

variable {cls}

/-- Every attempt ends in one of the ways listed. -/
theorem attempted {startTime : ℚ} {delay : Executable → ℚ} {input : Attempt Resp}
    {run run' : Run σ Req} {outcome : Except JsError (Step Out)}
    (ran : (cls.attempt startTime delay input).run run = (outcome, run')) :
    cls.Attempted startTime delay input run outcome run' := by
  rw [attempt, Method.run_this_bind] at ran
  rcases inTime : (cls.base run.request).checkTimeout startTime input.now with e | _ <;>
    rw [inTime] at ran
  · cases ran
    exact .timedOut inTime
  rw [Method.run_bind_ok (Method.run_ofExcept_ok _ _)] at ran
  rcases choice : (cls.chooseNode input).run run with ⟨e | ⟨id, r⟩, chosen⟩
  · rw [Method.run_bind_error choice] at ran
    cases ran
    exact .unchosen choice
  rw [Method.run_bind_ok choice] at ran
  simp only [Method.run_this_bind] at ran
  by_cases foreign : (cls.base chosen.request).isForeign id = true
  · rw [if_pos foreign] at ran
    cases ran
    exact .foreign choice foreign
  rw [if_neg foreign] at ran
  rcases making : (cls.prepareRequest r input).run chosen with ⟨e | request, made⟩
  · rw [Method.run_bind_error making] at ran
    cases ran
    exact .unmade choice making
  rw [Method.run_bind_ok making, sendIfHealthy, Method.run_this_bind] at ran
  have prepared : cls.Prepared startTime input run id r request chosen made :=
    ⟨inTime, choice, by simpa using foreign, making⟩
  by_cases healthy : (made.network.heap r).isHealthy input.sentAt = true
  · rw [if_pos healthy, run_send] at ran
    exact .sent prepared healthy ran
  rw [if_neg healthy, skipUnhealthy, Method.run_this_bind] at ran
  have unhealthy : (made.network.heap r).isHealthy input.sentAt = false := by simpa using healthy
  by_cases last : (cls.base made.request).isLastNode = true
  · rw [if_pos last] at ran
    cases ran
    exact .gaveUp prepared unhealthy last
  · rw [if_neg last] at ran
    cases ran
    exact .skipped prepared unhealthy (by simpa using last)

/-! ## Its parts -/

section Parts

variable {input : Attempt Resp} {run run' : Run σ Req}

@[simp] theorem run_onRequest {α : Type} (m : Method JsError σ α) (run : Run σ Req) :
    (onRequest m).run run =
      ((m.run run.request).1, { run with request := (m.run run.request).2 }) := rfl

@[simp] theorem run_onNetwork {α : Type} (m : NetworkMethod α) (run : Run σ Req) :
    (onNetwork m).run run =
      ((m.run run.network).1, { run with network := (m.run run.network).2 }) := rfl

/-- The node of a list that is not empty is looked up by the id under the cursor. -/
theorem run_chooseNode_of_current {id : AccountId}
    (current : (cls.nodeIds run.request).current = some id) :
    (cls.chooseNode input).run run =
      match (Network.getNode (some id.toString) input.draws input.now).run run.network with
      | (.error e, network) => (.error e, { run with network })
      | (.ok none, network) =>
          (.error (.error s!"NodeAccountId not recognized: {id.toString}"), { run with network })
      | (.ok (some r), network) => (.ok (id, r), { run with network }) := by
  have nonempty : (cls.nodeIds run.request).isEmpty = false := by
    cases list : (cls.nodeIds run.request).list with
    | nil => simp [SdkList.current, SdkList.get, list] at current
    | cons a rest => simp [SdkList.isEmpty, list]
  rw [chooseNode, Method.run_this_bind, nonempty, if_neg (by simp), lookUpNode, Method.run_this_bind,
    current]
  simp only [Method.run_bind, run_onNetwork]
  rcases (Network.getNode (some id.toString) input.draws input.now).run run.network with
    ⟨e | _ | r, network⟩ <;> rfl

/-- Choosing a node touches nothing but the node ids and the network, where it only
readmits nodes. -/
structure Chose (input : Attempt Resp) (run chosen : Run σ Req) : Prop where
  events : chosen.events = run.events
  network : chosen.network = run.network.readmitNodes input.now
  base : ∃ nodeAccountIds, cls.base chosen.request = { cls.base run.request with nodeAccountIds }

theorem chose {outcome : Except JsError (AccountId × NodeRef)} {chosen : Run σ Req}
    (ran : (cls.chooseNode input).run run = (outcome, chosen)) : cls.Chose input run chosen := by
  have same : cls.base run.request =
      { cls.base run.request with nodeAccountIds := (cls.base run.request).nodeAccountIds } := rfl
  rw [chooseNode, Method.run_this_bind] at ran
  by_cases empty : (cls.nodeIds run.request).isEmpty = true
  · rw [if_pos empty, pickNode, Method.run_bind, run_onNetwork, run_getNode_snd] at ran
    generalize ((Network.getNode none input.draws input.now).run run.network).1 = found at ran
    rcases found with e | _ | r
    · cases ran
      exact ⟨rfl, rfl, _, same⟩
    · cases ran
      exact ⟨rfl, rfl, _, same⟩
    · simp only [Method.run_this_bind] at ran
      generalize (cls.nodeIds run.request).setList _ = given at ran
      cases given with
      | error e =>
          cases ran
          exact ⟨rfl, rfl, _, same⟩
      | ok ids =>
          cases ran
          exact ⟨rfl, rfl, ids, cls.base_withBase _ _⟩
  · rw [if_neg empty, lookUpNode, Method.run_this_bind] at ran
    generalize (cls.nodeIds run.request).current = current at ran
    cases current with
    | none =>
        simp only [Method.run_bind, run_onNetwork, run_getNode_snd] at ran
        generalize ((Network.getNode none input.draws input.now).run run.network).1 = found at ran
        cases found <;> cases ran <;> exact ⟨rfl, rfl, _, same⟩
    | some id =>
        simp only [Method.run_bind, run_onNetwork, run_getNode_snd] at ran
        generalize ((Network.getNode (some id.toString) input.draws input.now).run
          run.network).1 = found at ran
        rcases found with e | _ | r <;> cases ran <;> exact ⟨rfl, rfl, _, same⟩

/-- The base of a request that was made: its cursor may have moved. -/
def cursorMoved (cls : ExecutableClass σ Prep Req Resp Out) (base : Executable) : Executable :=
  if cls.movesCursor base then { base with nodeAccountIds := base.nodeAccountIds.advance } else base

structure Made (r : NodeRef) (input : Attempt Resp) (chosen made : Run σ Req) : Prop where
  events : made.events = chosen.events
  network : made.network =
    runAll step (chosen.network.updateNode r Node.getChannel) input.whileMaking
  base : cls.base made.request = cls.cursorMoved (cls.base chosen.request)

theorem run_getLogId {run : Run σ Req} : ((onRequest cls.getLogId).run run).2 = run := by
  rw [run_onRequest, cls.getLogId_keeps]

theorem made_of_ok {r : NodeRef} {request : Req} {chosen made : Run σ Req}
    (ran : (cls.prepareRequest r input).run chosen = (.ok request, made)) :
    cls.Made r input chosen made ∧
      (cls.makeRequest input.moment input.generated).run chosen.request =
        (.ok request, made.request) := by
  obtain ⟨_, logged, logging, rest⟩ := Method.run_bind_eq_ok.mp ran
  have unchanged : logged = chosen :=
    (congrArg Prod.snd logging).symm.trans run_getLogId
  subst unchanged
  rw [Method.run_bind_ok (run_onNetwork _ _)] at rest
  obtain ⟨_, asked, asking, rest⟩ := Method.run_bind_eq_ok.mp rest
  rw [run_onRequest] at asking
  cases rest
  have base := cls.makeRequest_base input.moment input.generated logged.request
  generalize (cls.makeRequest input.moment input.generated).run logged.request = made
    at asking base
  obtain ⟨_ | _, after⟩ := made <;> cases asking
  exact ⟨⟨rfl, rfl, base⟩, rfl⟩

theorem events_prepareRequest {r : NodeRef} {outcome : Except JsError Req} {chosen made : Run σ Req}
    (ran : (cls.prepareRequest r input).run chosen = (outcome, made)) :
    made.events = chosen.events := by
  have keeps : Method.Keeps (fun run : Run σ Req => run.events = chosen.events)
      (cls.prepareRequest r input) :=
    .bind (fun _ h => h) fun _ => .bind (fun _ h => h) fun _ => .bind (fun _ h => h) fun _ =>
      .bind (fun _ h => h) fun _ => .pure _
  have after := keeps chosen rfl
  rwa [ran] at after

/-! ### The answer -/

/-- What is known once the answer of the node has been judged. -/
structure Judged (outcome : Except JsError (Step Out)) (run run' : Run σ Req) : Prop where
  /-- Nothing more is sent, and the loop goes on only behind a verdict that allows it. -/
  events : ∃ more, run'.events = run.events ++ more ∧ (∀ e ∈ more, e.isAnswer = true) ∧
    (outcome = .ok .again → ∀ e ∈ more, e.isFinal = false)
  network : ∃ calls, run'.network = runAll step run.network calls
  base : outcome = .ok .again → cls.base run'.request = cls.base run.request

theorem judged_error {r : NodeRef} {e : JsError} {outcome : Except JsError (Step Out)}
    (ran : (judgeError r input e).run run = (outcome, run')) : cls.Judged outcome run run' := by
  rw [judgeError] at ran
  cases read : grpcServiceErrorFromResponse e with
  | error bug =>
      rw [read] at ran
      cases ran
      exact ⟨⟨[], by simp, by simp, by simp⟩, ⟨[], rfl⟩, by simp⟩
  | ok error =>
      rw [read, Method.run_bind_ok (Method.run_ofExcept_ok _ _)] at ran
      by_cases retried : isRetryable error = true
      · simp only [if_pos retried] at ran
        cases ran
        exact ⟨⟨[.failed error], rfl, by simp [Event.isAnswer], by simp [Event.isFinal, retried]⟩,
          ⟨[⟨.increaseBackoff r, id, input.answeredAt⟩], rfl⟩, fun _ => rfl⟩
      · simp only [if_neg retried] at ran
        cases ran
        exact ⟨⟨[.failed error], rfl, by simp [Event.isAnswer], by simp⟩, ⟨[], rfl⟩, by simp⟩

theorem judged_response {delay : Executable → ℚ} {id : AccountId} {r : NodeRef} {request : Req}
    {response : Resp} {outcome : Except JsError (Step Out)}
    (ran : (cls.judgeResponse delay id r request input response).run run = (outcome, run')) :
    cls.Judged outcome run run' := by
  have base := cls.shouldRetry_base request response input.regenerated run.request
  rw [judgeResponse, Method.run_bind_ok (run_onNetwork _ _), Method.run_bind, run_onRequest] at ran
  simp only [Method.run_update] at ran
  generalize (cls.shouldRetry request response input.regenerated).run run.request = verdict
    at ran base
  let recovery : NetworkCall := ⟨.decreaseBackoff r, fun n => n, 0⟩
  obtain ⟨e | ⟨status, state⟩, after⟩ := verdict
  · cases ran
    exact ⟨⟨[], by simp, by simp, by simp⟩, ⟨[recovery], rfl⟩, by simp⟩
  cases state with
  | retry =>
      cases ran
      exact ⟨⟨[.classified .retry, .delayed _], List.append_assoc .., by simp [Event.isAnswer],
        by simp [Event.isFinal]⟩, ⟨recovery :: input.whileWaiting, rfl⟩, fun _ => base⟩
  | finished =>
      simp only [Method.run_bind, RunMethod.note, Method.run_update, run_onRequest, Run.request_noteStatus] at ran
      generalize (cls.mapResponse response id request).run after = mapped at ran
      obtain ⟨_ | out, last⟩ := mapped <;> cases ran <;>
        exact ⟨⟨[.classified .finished], rfl, by simp [Event.isAnswer], by simp⟩, ⟨[recovery], rfl⟩,
          by simp⟩
  | error =>
      simp only [Method.run_bind, RunMethod.note, Method.run_update, run_onRequest, Run.request_noteStatus] at ran
      generalize (cls.mapStatusError request response id).run after = mapped at ran
      obtain ⟨_ | e, last⟩ := mapped <;> cases ran <;>
        exact ⟨⟨[.classified .error], rfl, by simp [Event.isAnswer], by simp⟩, ⟨[recovery], rfl⟩,
          by simp⟩

theorem judged {delay : Executable → ℚ} {id : AccountId} {r : NodeRef} {request : Req}
    {outcome : Except JsError (Step Out)}
    (ran : (cls.judge delay id r request input).run run = (outcome, run')) :
    cls.Judged outcome run run' := by
  rw [judge] at ran
  cases answer : input.outcome with
  | error e =>
      rw [answer] at ran
      exact judged_error ran
  | ok response =>
      rw [answer] at ran
      exact judged_response ran

/-- Behind an answer that is followed by another attempt, the request is as its own
verdict on the answer left it. -/
theorem request_judged {J : σ → Prop} {delay : Executable → ℚ} {id : AccountId} {r : NodeRef}
    {request : Req}
    (ran : (cls.judge delay id r request input).run run = (.ok .again, run'))
    (unanswered : J run.request)
    (verdict : ∀ response, input.outcome = .ok response →
      J ((cls.shouldRetry request response input.regenerated).run run.request).2) :
    J run'.request := by
  cases answer : input.outcome with
  | error e =>
      simp only [judge, answer, judgeError] at ran
      obtain ⟨error, _, read, ran⟩ := Method.run_bind_eq_ok.mp ran
      rw [RunMethod.note, Method.run_update_bind, Method.run_update_bind] at ran
      split at ran
      · cases ran
        cases found : grpcServiceErrorFromResponse e <;> rw [found] at read <;> cases read
        exact unanswered
      · cases ran
  | ok response =>
      have kept := verdict response answer
      simp only [judge, answer] at ran
      rw [judgeResponse, Method.run_bind_ok (run_onNetwork _ _), Method.run_bind,
        run_onRequest] at ran
      simp only [Method.run_update] at ran
      generalize (cls.shouldRetry request response input.regenerated).run run.request = judgement
        at ran kept
      obtain ⟨e | ⟨status, state⟩, after⟩ := judgement
      · cases ran
      cases state with
      | retry =>
          cases ran
          exact kept
      | finished =>
          obtain ⟨_, _, _, ran⟩ := Method.run_bind_eq_ok.mp ran
          obtain ⟨_, _, _, ran⟩ := Method.run_bind_eq_ok.mp ran
          obtain ⟨_, _, _, ran⟩ := Method.run_bind_eq_ok.mp ran
          cases ran
      | error =>
          obtain ⟨_, _, _, ran⟩ := Method.run_bind_eq_ok.mp ran
          obtain ⟨_, _, _, ran⟩ := Method.run_bind_eq_ok.mp ran
          obtain ⟨_, _, _, ran⟩ := Method.run_bind_eq_ok.mp ran
          cases ran

/-- An execution ends well behind an answer that the request has accepted. -/
theorem finished_judged {delay : Executable → ℚ} {id : AccountId} {r : NodeRef} {request : Req}
    {out : Out} (ran : (cls.judge delay id r request input).run run = (.ok (.finished out), run')) :
    ∃ response status accepted final, input.outcome = .ok response ∧
      (cls.shouldRetry request response input.regenerated).run run.request =
        (.ok (status, .finished), accepted) ∧
      (cls.mapResponse response id request).run accepted = (.ok out, final) ∧
      run'.events = run.events ++ [.classified .finished] ∧ run'.request = final := by
  cases answer : input.outcome with
  | error e =>
      simp only [judge, answer, judgeError] at ran
      obtain ⟨error, _, _, ran⟩ := Method.run_bind_eq_ok.mp ran
      rw [RunMethod.note, Method.run_update_bind, Method.run_update_bind] at ran
      split at ran <;> cases ran
  | ok response =>
      simp only [judge, answer] at ran
      rw [judgeResponse, Method.run_bind_ok (run_onNetwork _ _), Method.run_bind,
        run_onRequest] at ran
      simp only [Method.run_update] at ran
      generalize judging : (cls.shouldRetry request response input.regenerated).run run.request =
        judgement at ran
      obtain ⟨e | ⟨status, state⟩, after⟩ := judgement
      · cases ran
      cases state with
      | retry => cases ran
      | finished =>
          simp only [Method.run_bind, RunMethod.note, Method.run_update, run_onRequest,
            Run.request_noteStatus] at ran
          generalize mapping : (cls.mapResponse response id request).run after = mapped at ran
          obtain ⟨_ | out', final⟩ := mapped <;> cases ran
          exact ⟨response, status, after, final, rfl, judging, mapping, rfl, rfl⟩
      | error =>
          obtain ⟨_, _, _, ran⟩ := Method.run_bind_eq_ok.mp ran
          obtain ⟨_, _, _, ran⟩ := Method.run_bind_eq_ok.mp ran
          obtain ⟨_, _, _, ran⟩ := Method.run_bind_eq_ok.mp ran
          cases ran

/-- The node that is chosen is the one under the cursor, or the only one of a list
that was empty. -/
theorem choice_ok {id : AccountId} {r : NodeRef} {chosen : Run σ Req}
    (choice : (cls.chooseNode input).run run = (.ok (id, r), chosen)) :
    ((cls.nodeIds run.request).current = some id ∧ chosen.request = run.request) ∨
    ((cls.nodeIds run.request).list = [] ∧ ∃ ids, ids.list = [id] ∧ ids.index = 0 ∧
      chosen.request = cls.setNodeIds ids run.request) := by
  rw [chooseNode, Method.run_this_bind] at choice
  by_cases empty : (cls.nodeIds run.request).isEmpty = true
  · rw [if_pos empty, pickNode] at choice
    obtain ⟨found, asked, asking, choice⟩ := Method.run_bind_eq_ok.mp choice
    rw [run_onNetwork] at asking
    have same : asked.request = run.request := by
      rw [← congrArg (fun result => result.2.request) asking]
    rw [Method.run_this_bind] at choice
    cases found with
    | none => cases choice
    | some r' =>
        obtain ⟨ids, _, given, choice⟩ := Method.run_bind_eq_ok.mp choice
        cases listed : (cls.nodeIds asked.request).setList [(asked.network.heap r').accountId] with
        | error e =>
            rw [listed] at given
            cases given
        | ok ids' =>
            rw [listed] at given
            cases given
            cases choice
            obtain ⟨_, rfl⟩ := SdkList.setList_eq_ok listed
            exact .inr ⟨by simpa [SdkList.isEmpty] using empty, _, rfl, rfl,
              congrArg (cls.setNodeIds _) same⟩
  · rw [if_neg empty, lookUpNode, Method.run_this_bind] at choice
    cases current : (cls.nodeIds run.request).current with
    | none =>
        rw [current] at choice
        obtain ⟨_, _, _, choice⟩ := Method.run_bind_eq_ok.mp choice
        cases choice
    | some id' =>
        rw [current] at choice
        obtain ⟨found, asked, asking, choice⟩ := Method.run_bind_eq_ok.mp choice
        rw [run_onNetwork] at asking
        have same : asked.request = run.request := by
          rw [← congrArg (fun result => result.2.request) asking]
        cases found with
        | none => cases choice
        | some r' =>
            cases choice
            exact .inl ⟨rfl, same⟩

end Parts

/-! ## The request along the attempts -/

section Request

variable {startTime : ℚ} {delay : Executable → ℚ} {input : Attempt Resp} {run run' : Run σ Req}
  {J : σ → Prop}

/-- What is kept by giving nodes to a request without any holds once a node is chosen. -/
theorem request_chosen {id : AccountId} {r : NodeRef} {chosen : Run σ Req}
    (choice : (cls.chooseNode input).run run = (.ok (id, r), chosen)) (start : J run.request)
    (given : ∀ s ids, (cls.nodeIds s).list = [] → J s → J (cls.setNodeIds ids s)) :
    J chosen.request := by
  rcases choice_ok choice with ⟨_, same⟩ | ⟨empty, ids, _, _, same⟩
  · rwa [same]
  · rw [same]
    exact given _ _ empty start

/-- The rule for what the attempts keep of the request. -/
theorem Attempted.request_again {K : σ → Prop}
    (attempt : cls.Attempted startTime delay input run (.ok .again) run') (start : J run.request)
    (given : ∀ s ids, (cls.nodeIds s).list = [] → J s → J (cls.setNodeIds ids s))
    (made : ∀ s s' request, J s →
      (cls.makeRequest input.moment input.generated).run s = (.ok request, s') → J s')
    (advanced : ∀ s, J s → J (cls.setNodeIds (cls.nodeIds s).advance s))
    (weaker : ∀ s, J s → K s)
    (verdict : ∀ s request response, input.outcome = .ok response → J s →
      K ((cls.shouldRetry request response input.regenerated).run s).2) :
    K run'.request := by
  cases attempt with
  | foreign choice unknown => exact weaker _ (advanced _ (request_chosen choice start given))
  | skipped prepared unhealthy more =>
      have ready := made _ _ _ (request_chosen prepared.choice start given)
        (made_of_ok prepared.making).2
      exact weaker _ (advanced _ ready)
  | sent prepared healthy judging =>
      have ready := made _ _ _ (request_chosen prepared.choice start given)
        (made_of_ok prepared.making).2
      exact request_judged judging (weaker _ (advanced _ ready)) fun response answer =>
        verdict _ _ response answer (advanced _ ready)

end Request

/-! ## The events of an attempt -/

section Events

variable {startTime : ℚ} {delay : Executable → ℚ} {input : Attempt Resp} {run run' : Run σ Req}

/-- A request that is prepared was made in time and has left no event yet. -/
theorem Prepared.events {id : AccountId} {r : NodeRef} {request : Req} {chosen made : Run σ Req}
    (prepared : cls.Prepared startTime input run id r request chosen made) :
    made.events = run.events :=
  (events_prepareRequest prepared.making).trans (chose prepared.choice).events

theorem Prepared.base {id : AccountId} {r : NodeRef} {request : Req} {chosen made : Run σ Req}
    (prepared : cls.Prepared startTime input run id r request chosen made) :
    ∃ nodeAccountIds, cls.base made.request = { cls.base run.request with nodeAccountIds } := by
  obtain ⟨ids, base⟩ := (chose prepared.choice).base
  rw [(made_of_ok prepared.making).1.base, cursorMoved, base]
  split
  · exact ⟨_, rfl⟩
  · exact ⟨_, rfl⟩

/-- An attempt does nothing, gives up, or sends one request to a healthy node and
judges the answer. -/
inductive Tail (startTime : ℚ) (input : Attempt Resp) (run : Run σ Req) : List (Event Req) → Prop where
  | nothing : Tail startTime input run []
  | gaveUp : Tail startTime input run [.gaveUp input.sentAt]
  | sent {id r request chosen made answers}
      (prepared : cls.Prepared startTime input run id r request chosen made)
      (healthy : (made.network.heap r).isHealthy input.sentAt = true)
      (answered : ∀ e ∈ answers, e.isAnswer = true) :
      Tail startTime input run (.sent (made.network.heap r) id request input.sentAt :: answers)

theorem Attempted.events {outcome : Except JsError (Step Out)}
    (attempt : cls.Attempted startTime delay input run outcome run') :
    ∃ more, run'.events = run.events ++ more ∧ cls.Tail startTime input run more ∧
      (outcome = .ok .again → ∀ e ∈ more, e.isFinal = false) := by
  cases attempt with
  | timedOut late => exact ⟨[], by simp, .nothing, by simp⟩
  | unchosen failed => exact ⟨[], by simp [(chose failed).events], .nothing, by simp⟩
  | foreign choice unknown =>
      exact ⟨[], by simp [moved, (chose choice).events], .nothing, by simp⟩
  | unmade choice failed =>
      exact ⟨[], by simp [events_prepareRequest failed, (chose choice).events], .nothing, by simp⟩
  | gaveUp prepared unhealthy last =>
      exact ⟨[.gaveUp input.sentAt], by simp [prepared.events], .gaveUp, by simp⟩
  | skipped prepared unhealthy more =>
      exact ⟨[], by simp [moved, prepared.events], .nothing, by simp⟩
  | sent prepared healthy judging =>
      obtain ⟨answers, events, answered, verdict⟩ := (judged judging).events
      refine ⟨_ :: answers, ?_, .sent prepared healthy answered, fun again => ?_⟩
      · rw [events, handed, prepared.events, List.append_assoc, List.singleton_append]
      · rw [List.forall_mem_cons]
        exact ⟨rfl, verdict again⟩

/-- How an attempt that is followed by another leaves the base. -/
theorem Attempted.base_again
    (attempt : cls.Attempted startTime delay input run (.ok .again) run') :
    ∃ nodeAccountIds, cls.base run'.request = { cls.base run.request with nodeAccountIds } := by
  cases attempt with
  | foreign choice unknown =>
      obtain ⟨ids, base⟩ := (chose choice).base
      exact ⟨_, by rw [base_moved, base]⟩
  | skipped prepared unhealthy more =>
      obtain ⟨ids, base⟩ := prepared.base
      exact ⟨_, by rw [base_moved, base]⟩
  | sent prepared healthy judging =>
      obtain ⟨ids, base⟩ := prepared.base
      have after := (judged judging).base rfl
      exact ⟨_, by rw [after, handed, base_moved, base]⟩

end Events

/-! ## The loop -/

section Loop

variable (isLocalNode : Bool) (schedule : Schedule Prep Resp)

/-- The state after an attempt that is followed by another. -/
def next? (number : Nat) (run : Run σ Req) : Option (Run σ Req) :=
  match (cls.attempt schedule.startTime (Executable.delayForAttempt isLocalNode number)
    (schedule.attempts number)).run run with
  | (.ok .again, run') => some run'
  | _ => none

/-- Every attempt of the loop meets the condition in the state it starts in. -/
def AllAttempts (guard : Nat → Run σ Req → Prop) : Nat → Nat → Run σ Req → Prop
  | 0, _, _ => True
  | remaining + 1, number, run =>
      guard number run ∧ ∀ run' ∈ cls.next? isLocalNode schedule number run,
        AllAttempts guard remaining (number + 1) run'

instance AllAttempts.decidable (guard : Nat → Run σ Req → Prop)
    [∀ number run, Decidable (guard number run)] :
    ∀ remaining number run, Decidable (cls.AllAttempts isLocalNode schedule guard remaining number run)
  | 0, _, _ => inferInstanceAs (Decidable True)
  | remaining + 1, number, run =>
      have (run' : Run σ Req) := AllAttempts.decidable guard remaining (number + 1) run'
      inferInstanceAs (Decidable (_ ∧ ∀ run' ∈ cls.next? isLocalNode schedule number run,
        cls.AllAttempts isLocalNode schedule guard remaining (number + 1) run'))

variable {isLocalNode schedule}

theorem attempted_of_next? {number : Nat} {run run' : Run σ Req}
    (going : cls.next? isLocalNode schedule number run = some run') :
    (cls.attempt schedule.startTime (Executable.delayForAttempt isLocalNode number)
      (schedule.attempts number)).run run = (.ok .again, run') := by
  rw [next?] at going
  split at going <;> cases going
  assumption

theorem allAttempts_true (remaining number : Nat) (run : Run σ Req) :
    cls.AllAttempts isLocalNode schedule (fun _ _ => True) remaining number run := by
  induction remaining generalizing number run with
  | zero => trivial
  | succ remaining inductionHypothesis =>
      exact ⟨trivial, fun run' _ => inductionHypothesis _ run'⟩

/-- A condition may use an invariant of the loop. -/
theorem AllAttempts.imp {guard guard' : Nat → Run σ Req → Prop} {I : Run σ Req → Prop}
    (keeps : ∀ number run run', I run →
      cls.Attempted schedule.startTime (Executable.delayForAttempt isLocalNode number)
        (schedule.attempts number) run (.ok .again) run' → I run')
    (implies : ∀ number run, I run → guard number run → guard' number run) {remaining number : Nat}
    {run : Run σ Req} (start : I run)
    (all : cls.AllAttempts isLocalNode schedule guard remaining number run) :
    cls.AllAttempts isLocalNode schedule guard' remaining number run := by
  induction remaining generalizing number run with
  | zero => trivial
  | succ remaining inductionHypothesis =>
      refine ⟨implies _ _ start all.1, fun run' going => ?_⟩
      have attempt := attempted (attempted_of_next? going)
      exact inductionHypothesis (keeps _ _ _ start attempt) (all.2 run' going)

/-- The rule for invariants of the loop: an attempt that is followed by another
keeps the invariant, and every end of the loop has the property wanted. -/
theorem retryLoop_rule {maxAttempts : Nat} {guard : Nat → Run σ Req → Prop}
    {I : Nat → Nat → Run σ Req → Prop} {Q : Except JsError Out → Run σ Req → Prop}
    (attempt : ∀ remaining number run, I (remaining + 1) number run → guard number run →
      ∀ outcome run', cls.Attempted schedule.startTime
          (Executable.delayForAttempt isLocalNode number) (schedule.attempts number) run outcome run' →
        match outcome with
        | .ok .again => I remaining (number + 1) run'
        | .ok (.finished out) => Q (.ok out) run'
        | .error e => Q (.error e) run')
    (exhausted : ∀ number run e, I 0 number run → Q (.error e) run) {remaining number : Nat}
    {run run' : Run σ Req} {outcome : Except JsError Out} (start : I remaining number run)
    (guarded : cls.AllAttempts isLocalNode schedule guard remaining number run)
    (ran : (cls.retryLoop isLocalNode maxAttempts schedule remaining number).run run =
      (outcome, run')) : Q outcome run' := by
  induction remaining generalizing number run with
  | zero =>
      rw [retryLoop, ExecutableClass.exhausted, Method.run_this_bind] at ran
      generalize (cls.base run.request).currentText = text at ran
      cases text <;> cases ran <;> exact exhausted _ _ _ start
  | succ remaining inductionHypothesis =>
      obtain ⟨here, others⟩ := guarded
      rcases one : (cls.attempt schedule.startTime (Executable.delayForAttempt isLocalNode number)
        (schedule.attempts number)).run run with ⟨e | _ | out, next⟩
      · have after := attempt _ _ _ start here _ _ (attempted one)
        rw [retryLoop, Method.run_bind_error one] at ran
        cases ran
        exact after
      · have after := attempt _ _ _ start here _ _ (attempted one)
        rw [retryLoop, Method.run_bind_ok one] at ran
        exact inductionHypothesis after (others next (by rw [next?, one]; rfl)) ran
      · have after := attempt _ _ _ start here _ _ (attempted one)
        rw [retryLoop, Method.run_bind_ok one] at ran
        cases ran
        exact after

/-- Events are only added. -/
theorem events_retryLoop {remaining : Nat} {outcome : Except JsError Out}
    (ran : (cls.retryLoop isLocalNode maxAttempts schedule remaining number).run run =
      (outcome, run')) : run.events <+: run'.events := by
  refine retryLoop_rule
    (I := fun _ _ after => run.events <+: after.events) (Q := fun _ after => run.events <+: after.events)
    ?_ ?_ (List.prefix_refl _) (allAttempts_true _ _ _) ran
  · intro remaining number before kept _ outcome after attempt
    obtain ⟨more, events, _, _⟩ := attempt.events
    have grown : run.events <+: after.events := events ▸ kept.trans (List.prefix_append _ _)
    rcases outcome with e | _ | out <;> exact grown
  · intro number run e kept
    exact kept

end Loop

/-! ## Before the loop -/

section Prepare

variable {client : Client} {requestTimeout : Option ℚ} {schedule : Schedule Prep Resp}
  {run prepared : Run σ Req}

/-- A request that is ready was prepared, and its nodes were not refused. -/
theorem prepare_eq_ok
    (ready : (cls.prepare client requestTimeout schedule).run run = (.ok (), prepared)) :
    ∃ request network,
      (cls.beforeExecute client schedule.preparation).run
        (cls.withBase ((cls.base run.request).setTimeout client requestTimeout) run.request,
          run.network) = (.ok (), request, network) ∧
      prepared = { run with
        request := cls.withBase ((cls.base request).takeMinBackoff client) request
        network := runAll step network schedule.whilePreparing } ∧
      (cls.base prepared.request).checkNodes = .ok () := by
  rw [prepare, Method.run_update_bind] at ready
  obtain ⟨_, before, first, ready⟩ := Method.run_bind_eq_ok.mp ready
  rw [Method.run_zoom] at first
  simp only [meanwhile, Method.run_update_bind, Method.run_this_bind] at ready
  generalize checking : Executable.checkNodes _ = checked at ready
  obtain _ | _ := checked <;> cases ready
  simp only at first
  generalize (cls.beforeExecute client schedule.preparation).run
    (cls.withBase ((cls.base run.request).setTimeout client requestTimeout) run.request,
      run.network) = result at first
  obtain ⟨_ | _, request, network⟩ := result <;> cases first
  exact ⟨request, network, rfl, rfl, checking⟩

end Prepare

end HederaSdk.ExecutableClass
