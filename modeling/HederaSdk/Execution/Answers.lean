import HederaSdk.Execution.Sending
import HederaSdk.Execution.Walk

/-!
# The answers of an execution

An execution hears an answer for each request that it hands to a node. Every answer but the last
asks for another attempt; the last one decides the outcome, unless the execution ends for a reason of
its own: the time is up, no node is left or a request cannot be made.
-/

namespace HederaSdk

open Library Network

/-- A request that was handed to a node, and what came back. -/
structure Answer (Req Resp : Type) where
  nodeId : AccountId
  request : Req
  outcome : Except JsError Resp

namespace ExecutableClass

variable {σ Prep Req Resp Out : Type}

/-! ## Hearing answers -/

/-- The answers to the requests among some events of an attempt. -/
def answersIn (input : Attempt Resp) (events : List (Event Req)) : List (Answer Req Resp) :=
  events.filterMap fun
    | .sent _ nodeId request _ => some ⟨nodeId, request, input.outcome⟩
    | _ => none

/-- The answers to the attempts that remain. -/
def heard (cls : ExecutableClass σ Prep Req Resp Out) (isLocalNode : Bool) (schedule : Schedule Prep Resp) :
    Nat → Nat → Run σ Req → List (Answer Req Resp)
  | 0, _, _ => []
  | remaining + 1, number, run =>
      let input := schedule.attempts number
      let (step, after) :=
        (cls.attempt schedule.startTime (Executable.delayForAttempt isLocalNode number) input).run run
      let here := answersIn input (after.events.drop run.events.length)
      match step with
      | .ok .again => here ++ heard cls isLocalNode schedule remaining (number + 1) after
      | _ => here

/-- The answers of an execution. -/
def heardBy (cls : ExecutableClass σ Prep Req Resp Out) (client : Client) (requestTimeout : Option ℚ)
    (schedule : Schedule Prep Resp) (request : σ) : List (Answer Req Resp) :=
  match (cls.prepare client requestTimeout schedule).run (Run.start client request) with
  | (.ok _, prepared) =>
      cls.heard client.isLocalNode schedule ((cls.base prepared.request).maxAttemptsFor client) 1 prepared
  | _ => []

/-! ## Judging an answer -/

/-- What an answer leads to, in a request with the assertion. -/
inductive Judgement (cls : ExecutableClass σ Prep Req Resp Out) (J : σ → Prop) (answer : Answer Req Resp) :
    Except JsError (Step Out) → Prop where
  | unread {e e'} (failed : answer.outcome = .error e) (read : grpcServiceErrorFromResponse e = .error e') :
      Judgement cls J answer (.error e')
  | retried {e error} (failed : answer.outcome = .error e) (read : grpcServiceErrorFromResponse e = .ok error)
      (retryable : isRetryable error = true) : Judgement cls J answer (.ok .again)
  | thrown {e error} (failed : answer.outcome = .error e) (read : grpcServiceErrorFromResponse e = .ok error)
      (retryable : isRetryable error = false) : Judgement cls J answer (.error e)
  | unjudged {response s generated e s'} (answered : answer.outcome = .ok response) (holds : J s)
      (verdict : (cls.shouldRetry answer.request response generated).run s = (.error e, s')) :
      Judgement cls J answer (.error e)
  | pending {response s generated status s'} (answered : answer.outcome = .ok response) (holds : J s)
      (verdict : (cls.shouldRetry answer.request response generated).run s = (.ok (status, .retry), s')) :
      Judgement cls J answer (.ok .again)
  | accepted {response s generated status s' out s''} (answered : answer.outcome = .ok response) (holds : J s)
      (verdict : (cls.shouldRetry answer.request response generated).run s = (.ok (status, .finished), s'))
      (mapped : (cls.mapResponse response answer.nodeId answer.request).run s' = (.ok out, s'')) :
      Judgement cls J answer (.ok (.finished out))
  | unmapped {response s generated status s' e s''} (answered : answer.outcome = .ok response) (holds : J s)
      (verdict : (cls.shouldRetry answer.request response generated).run s = (.ok (status, .finished), s'))
      (mapped : (cls.mapResponse response answer.nodeId answer.request).run s' = (.error e, s'')) :
      Judgement cls J answer (.error e)
  | refused {response s generated status s' e s''} (answered : answer.outcome = .ok response) (holds : J s)
      (verdict : (cls.shouldRetry answer.request response generated).run s = (.ok (status, .error), s'))
      (mapped : (cls.mapStatusError answer.request response answer.nodeId).run s' = (.ok e, s'')) :
      Judgement cls J answer (.error e)
  | unrefused {response s generated status s' e s''} (answered : answer.outcome = .ok response) (holds : J s)
      (verdict : (cls.shouldRetry answer.request response generated).run s = (.ok (status, .error), s'))
      (mapped : (cls.mapStatusError answer.request response answer.nodeId).run s' = (.error e, s'')) :
      Judgement cls J answer (.error e)

variable {cls : ExecutableClass σ Prep Req Resp Out} {J : σ → Prop} {run run' : Run σ Req} {input : Attempt Resp}
  {startTime : ℚ} {delay : Executable → ℚ}

theorem judgement_of_judge {id : AccountId} {r : NodeRef} {request : Req}
    {outcome : Except JsError (Step Out)} (holds : J run.request)
    (ran : (cls.judge delay id r request input).run run = (outcome, run')) :
    Judgement cls J ⟨id, request, input.outcome⟩ outcome := by
  cases answer : input.outcome with
  | error e =>
      simp only [judge, answer, judgeError] at ran
      cases read : grpcServiceErrorFromResponse e with
      | error e' =>
          rw [read] at ran
          cases ran
          exact .unread rfl read
      | ok error =>
          rw [read, Method.run_bind_ok (Method.run_ofExcept_ok _ _), RunMethod.note, Method.run_update_bind,
            Method.run_update_bind] at ran
          split at ran
          · rename_i retryable
            cases ran
            exact .retried rfl read retryable
          · rename_i final
            cases ran
            exact .thrown rfl read (by simpa using final)
  | ok response =>
      simp only [judge, answer] at ran
      rw [judgeResponse, Method.run_bind_ok (run_onNetwork _ _), Method.run_bind, run_onRequest] at ran
      simp only [Method.run_update] at ran
      generalize judging : (cls.shouldRetry request response input.regenerated).run run.request =
        verdict at ran
      obtain ⟨e | ⟨status, state⟩, after⟩ := verdict
      · cases ran
        exact .unjudged rfl holds judging
      cases state with
      | retry =>
          cases ran
          exact .pending rfl holds judging
      | finished =>
          simp only [Method.run_bind, RunMethod.note, Method.run_update, run_onRequest,
            Run.request_noteStatus] at ran
          generalize mapping : (cls.mapResponse response id request).run after = mapped at ran
          obtain ⟨e | out, final⟩ := mapped <;> cases ran
          · exact .unmapped rfl holds judging mapping
          · exact .accepted rfl holds judging mapping
      | error =>
          simp only [Method.run_bind, RunMethod.note, Method.run_update, run_onRequest,
            Run.request_noteStatus] at ran
          generalize mapping : (cls.mapStatusError request response id).run after = mapped at ran
          obtain ⟨e | e, final⟩ := mapped <;> cases ran
          · exact .unrefused rfl holds judging mapping
          · exact .refused rfl holds judging mapping

/-! ## Attempts -/

/-- The request of an answer was made by a request with the assertion. -/
def Asked (cls : ExecutableClass σ Prep Req Resp Out) (J : σ → Prop) (answer : Answer Req Resp) : Prop :=
  ∃ s moment generated s', J s ∧ (cls.makeRequest moment generated).run s = (.ok answer.request, s')

theorem answersIn_answers {answers : List (Event Req)} (answered : ∀ e ∈ answers, e.isAnswer = true) :
    (answersIn input answers : List (Answer Req Resp)) = [] := by
  refine List.filterMap_eq_nil_iff.mpr fun e member => ?_
  have answer := answered e member
  cases e <;> first | rfl | cases answer

theorem answersIn_sent {node : Node} {nodeId : AccountId} {request : Req} {time : ℚ} {answers : List (Event Req)}
    (answered : ∀ e ∈ answers, e.isAnswer = true) :
    (answersIn input (.sent node nodeId request time :: answers) : List (Answer Req Resp)) =
      [⟨nodeId, request, input.outcome⟩] :=
  congrArg (_ :: ·) (answersIn_answers answered)

/-- An attempt hears nothing and hands nothing back, or it ends as its answer is judged. -/
theorem answers_of_attempt (keeping : cls.Keeping J) (start : J run.request)
    {outcome : Except JsError (Step Out)}
    (ran : (cls.attempt startTime delay input).run run = (outcome, run')) :
    (answersIn input (run'.events.drop run.events.length) = [] ∧
        (outcome = .ok .again ∨ ∃ e, outcome = .error e)) ∨
      ∃ answer, answersIn input (run'.events.drop run.events.length) = [answer] ∧ Asked cls J answer ∧
        Judgement cls J answer outcome := by
  have drop {more : List (Event Req)} (grown : run'.events = run.events ++ more) :
      run'.events.drop run.events.length = more := by rw [grown, List.drop_left]
  cases attempted ran with
  | timedOut late => exact .inl ⟨by rw [drop (List.append_nil _).symm]; rfl, .inr ⟨_, rfl⟩⟩
  | unchosen failed =>
      exact .inl ⟨by rw [(chose failed).events, List.drop_length]; rfl, .inr ⟨_, rfl⟩⟩
  | foreign choice unknown =>
      exact .inl ⟨by rw [moved, (chose choice).events, List.drop_length]; rfl, .inl rfl⟩
  | unmade choice failed =>
      exact .inl ⟨by rw [events_prepareRequest failed, (chose choice).events, List.drop_length]; rfl,
        .inr ⟨_, rfl⟩⟩
  | gaveUp prepared unhealthy last =>
      refine .inl ⟨?_, .inr ⟨_, rfl⟩⟩
      rw [drop (by rw [prepared.events])]
      rfl
  | skipped prepared unhealthy more =>
      exact .inl ⟨by rw [moved, prepared.events, List.drop_length]; rfl, .inl rfl⟩
  | @sent id r request chosen made _ _ prepared healthy judging =>
      have chosenHolds := keeping.chooseNode input run start
      rw [prepared.choice] at chosenHolds
      have making := (made_of_ok prepared.making).2
      have madeHolds := keeping.made start prepared
      obtain ⟨more, events, answered, _⟩ := (judged judging).events
      refine .inr ⟨⟨id, request, input.outcome⟩, ?_, ⟨_, _, _, _, chosenHolds, making⟩,
        judgement_of_judge (keeping.setNodeIds _ _ madeHolds) judging⟩
      rw [events, handed, prepared.events, List.append_assoc, List.drop_left, List.singleton_append,
        answersIn_sent answered]

/-- An attempt asks the node under the cursor, and moves it within the list. -/
theorem nodes_of_attempt (inList : InList (cls.base run.request)) {outcome : Except JsError (Step Out)}
    (ran : (cls.attempt startTime delay input).run run = (outcome, run')) :
    (∀ answer ∈ (answersIn input (run'.events.drop run.events.length) : List (Answer Req Resp)),
      answer.nodeId ∈ (cls.base run.request).nodeAccountIds.list) ∧
    (outcome = .ok .again → InList (cls.base run'.request) ∧
      (cls.base run'.request).nodeAccountIds.list = (cls.base run.request).nodeAccountIds.list) := by
  have attempt := attempted ran
  constructor
  · obtain ⟨more, events, tail, _⟩ := attempt.events
    rw [events, List.drop_left]
    cases tail with
    | nothing => simp [answersIn]
    | gaveUp => simp [answersIn]
    | sent prepared healthy answered =>
        obtain ⟨rfl, _⟩ := prepared.at inList.current
        rw [answersIn_sent answered]
        exact List.forall_mem_singleton.mpr inList.node_mem
  · rintro rfl
    rw [attempt.base_again_of_current inList.current]
    exact ⟨inList.nextBase _, list_nextBase _ _⟩

theorem nodes_of_heard {isLocalNode : Bool} {schedule : Schedule Prep Resp} {remaining number : Nat}
    (inList : InList (cls.base run.request)) {answer : Answer Req Resp}
    (member : answer ∈ cls.heard isLocalNode schedule remaining number run) :
    answer.nodeId ∈ (cls.base run.request).nodeAccountIds.list := by
  induction remaining generalizing number run with
  | zero => cases member
  | succ remaining inductionHypothesis =>
      rcases one : (cls.attempt schedule.startTime (Executable.delayForAttempt isLocalNode number)
        (schedule.attempts number)).run run with ⟨e | _ | out, next⟩ <;>
        simp only [heard, one, List.mem_append] at member <;>
        obtain ⟨here, later⟩ := nodes_of_attempt inList one
      · exact here answer member
      · obtain ⟨inNext, same⟩ := later rfl
        rcases member with now | after
        · exact here answer now
        · exact same ▸ inductionHypothesis inNext after
      · exact here answer member

/-! ## Executions -/

/-- Every answer but the last asks for another attempt. The last one decides the outcome, or it asks
for another attempt as well and the execution throws. -/
structure Decides (cls : ExecutableClass σ Prep Req Resp Out) (J : σ → Prop)
    (answers : List (Answer Req Resp)) (outcome : Except JsError Out) : Prop where
  asked : ∀ answer ∈ answers, Asked cls J answer
  decided : ((∀ answer ∈ answers, Judgement cls J answer (.ok .again)) ∧ ∃ e, outcome = .error e) ∨
    ∃ earlier last, answers = earlier ++ [last] ∧
      (∀ answer ∈ earlier, Judgement cls J answer (.ok .again)) ∧
      Judgement cls J last (outcome.map .finished)

theorem Decides.cons {answers more : List (Answer Req Resp)} {outcome : Except JsError Out}
    (decides : Decides cls J more outcome) (asked : ∀ answer ∈ answers, Asked cls J answer)
    (pending : ∀ answer ∈ answers, Judgement cls J answer (.ok .again)) :
    Decides cls J (answers ++ more) outcome := by
  refine ⟨List.forall_mem_append.mpr ⟨asked, decides.asked⟩, ?_⟩
  rcases decides.decided with ⟨all, failed⟩ | ⟨earlier, last, rfl, before, judged⟩
  · exact .inl ⟨List.forall_mem_append.mpr ⟨pending, all⟩, failed⟩
  · exact .inr ⟨answers ++ earlier, last, (List.append_assoc ..).symm,
      List.forall_mem_append.mpr ⟨pending, before⟩, judged⟩

theorem decides_heard (keeping : cls.Keeping J) {isLocalNode : Bool} {schedule : Schedule Prep Resp}
    {maxAttempts remaining number : Nat} {outcome : Except JsError Out} (start : J run.request)
    (ran : (cls.retryLoop isLocalNode maxAttempts schedule remaining number).run run = (outcome, run')) :
    Decides cls J (cls.heard isLocalNode schedule remaining number run) outcome := by
  induction remaining generalizing number run with
  | zero =>
      rw [retryLoop, ExecutableClass.exhausted, Method.run_this_bind] at ran
      refine ⟨by simp [heard], .inl ⟨by simp [heard], ?_⟩⟩
      generalize (cls.base run.request).currentText = text at ran
      cases text <;> cases ran <;> exact ⟨_, rfl⟩
  | succ remaining inductionHypothesis =>
      have kept := keeping.attempt schedule.startTime (Executable.delayForAttempt isLocalNode number)
        (schedule.attempts number) run start
      rcases one : (cls.attempt schedule.startTime (Executable.delayForAttempt isLocalNode number)
        (schedule.attempts number)).run run with ⟨e | _ | out, next⟩
      · rw [retryLoop, Method.run_bind_error one] at ran
        cases ran
        simp only [heard, one]
        rcases answers_of_attempt keeping start one with ⟨none, _⟩ | ⟨answer, only, asked, judged⟩
        · rw [none]
          exact ⟨by simp, .inl ⟨by simp, _, rfl⟩⟩
        · rw [only]
          exact ⟨by simpa using asked, .inr ⟨[], answer, rfl, by simp, judged⟩⟩
      · rw [retryLoop, Method.run_bind_ok one] at ran
        rw [one] at kept
        simp only [heard, one]
        have later := inductionHypothesis kept ran
        rcases answers_of_attempt keeping start one with ⟨none, _⟩ | ⟨answer, only, asked, judged⟩
        · rw [none]
          exact later
        · rw [only]
          exact later.cons (by simpa using asked) (by simpa using judged)
      · rw [retryLoop, Method.run_bind_ok one] at ran
        cases ran
        simp only [heard, one]
        rcases answers_of_attempt keeping start one with ⟨_, again | ⟨e, failed⟩⟩ | ⟨answer, only, asked, judged⟩
        · cases again
        · cases failed
        · rw [only]
          exact ⟨by simpa using asked, .inr ⟨[], answer, rfl, by simp, judged⟩⟩

/-- The answers of an execution decide its outcome. -/
theorem decides_heardBy (keeping : cls.Keeping J) {client : Client} {requestTimeout : Option ℚ}
    {schedule : Schedule Prep Resp} {request : σ} {outcome : Except JsError Out}
    (prepares : ∀ prepared, (cls.prepare client requestTimeout schedule).run (Run.start client request) =
      (.ok (), prepared) → J prepared.request)
    (ran : (cls.execute client requestTimeout schedule).run (Run.start client request) = (outcome, run')) :
    Decides cls J (cls.heardBy client requestTimeout schedule request) outcome := by
  rw [heardBy]
  rcases preparing : (cls.prepare client requestTimeout schedule).run (Run.start client request) with
    ⟨e | _, prepared⟩
  · rw [ExecutableClass.execute, Method.run_bind_error preparing] at ran
    cases ran
    exact ⟨by simp, .inl ⟨by simp, _, rfl⟩⟩
  · rw [ExecutableClass.execute, Method.run_bind_ok preparing, Method.run_this_bind] at ran
    exact decides_heard keeping (prepares prepared preparing) ran

end ExecutableClass

end HederaSdk
