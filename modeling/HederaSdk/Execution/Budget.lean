import HederaSdk.Execution.Attempts
import HederaSdk.Transaction.Execute
import Mathlib.Data.List.Pairwise

/-!
# What an execution sends, and until when

Each attempt sends at most one request, so the number of requests is bounded by
the number of attempts. The timeout is only checked at the head of an attempt
and counts from the start of the loop.
-/

namespace HederaSdk.ExecutableClass

open Library Network RunMethod

variable {σ Prep Req Resp Out : Type} {cls : ExecutableClass σ Prep Req Resp Out}

/-- Nothing is sent behind a final verdict. -/
def Closed (events : List (Event Req)) : Prop :=
  events.Pairwise fun verdict later => verdict.isFinal = true → later.isSent = false

def sentCount (events : List (Event Req)) : Nat := events.countP Event.isSent

/-- Every request is sent before the time. -/
def SentBefore (time : ℚ) (events : List (Event Req)) : Prop :=
  ∀ sentAt ∈ events.filterMap Event.sentTime, sentAt < time

instance (time : ℚ) (events : List (Event Req)) : Decidable (SentBefore time events) :=
  inferInstanceAs (Decidable (∀ sentAt ∈ events.filterMap Event.sentTime, sentAt < time))

/-- An attempt that passes the check of the timeout is ready to send before the
timeout has passed since the call. -/
def OnTime (schedule : Schedule Prep Resp) (requestTimeout : ℚ) (number : Nat) : Prop :=
  (schedule.attempts number).now < schedule.startTime + requestTimeout →
    (schedule.attempts number).sentAt < schedule.calledAt + requestTimeout

instance (schedule : Schedule Prep Resp) (requestTimeout : ℚ) (number : Nat) :
    Decidable (OnTime schedule requestTimeout number) :=
  inferInstanceAs (Decidable (_ → _))

/-! ## One attempt -/

section Attempt

variable {startTime : ℚ} {delay : Executable → ℚ} {input : Attempt Resp} {run run' : Run σ Req}
  {outcome : Except JsError (Step Out)} {more : List (Event Req)}

theorem sentCount_eq_zero (answered : ∀ e ∈ more, e.isAnswer = true) : sentCount more = 0 :=
  List.countP_eq_zero.mpr fun e member => by simp [Event.isSent_of_isAnswer (answered e member)]

theorem sentTimes_eq_nil (answered : ∀ e ∈ more, e.isAnswer = true) :
    more.filterMap Event.sentTime = [] := by
  refine List.filterMap_eq_nil_iff.mpr fun e member => ?_
  have answer := answered e member
  cases e <;> simp_all [Event.isAnswer, Event.sentTime]

theorem sentCount_tail (tail : cls.Tail startTime input run more) : sentCount more ≤ 1 := by
  cases tail with
  | nothing => simp [sentCount]
  | gaveUp => simp [sentCount, Event.isSent]
  | sent _ _ answered =>
      have zero := sentCount_eq_zero answered
      rw [sentCount] at zero ⊢
      simp [List.countP_cons, zero, Event.isSent]

theorem closed_tail (tail : cls.Tail startTime input run more) : Closed more := by
  cases tail with
  | nothing => exact List.Pairwise.nil
  | gaveUp => exact List.pairwise_singleton _ _
  | sent _ _ answered =>
      refine List.pairwise_cons.mpr ⟨by simp [Event.isFinal], ?_⟩
      exact List.pairwise_of_forall_mem_list fun _ _ e member _ =>
        Event.isSent_of_isAnswer (answered e member)

theorem Closed.append {events : List (Event Req)} (going : ∀ e ∈ events, e.isFinal = false)
    (closed : Closed more) : Closed (events ++ more) := by
  refine List.pairwise_append.mpr ⟨?_, closed, fun e member _ _ final => ?_⟩
  · exact List.pairwise_of_forall_mem_list fun e member _ _ final => by
      simp [going e member] at final
  · simp [going e member] at final

theorem lt_of_checkTimeout {request : Executable} {now T : ℚ}
    (timeout : request.requestTimeout = some T)
    (inTime : request.checkTimeout startTime now = .ok ()) : now < startTime + T := by
  simp only [Executable.checkTimeout, timeout] at inTime
  split at inTime
  · obtain ⟨_, _, thrown⟩ := except_bind_eq_ok.mp inTime
    cases thrown
  · rename_i early
    exact not_le.mp early

theorem sentBefore_tail {time T : ℚ} (tail : cls.Tail startTime input run more)
    (timeout : (cls.base run.request).requestTimeout = some T)
    (onTime : input.now < startTime + T → input.sentAt < time) : SentBefore time more := by
  cases tail with
  | nothing => simp [SentBefore]
  | gaveUp => simp [SentBefore, Event.sentTime]
  | sent prepared _ answered =>
      have early := onTime (lt_of_checkTimeout timeout prepared.inTime)
      simpa [SentBefore, Event.sentTime, sentTimes_eq_nil answered] using early

end Attempt

/-! ## The loop -/

section Loop

variable {isLocalNode : Bool} {schedule : Schedule Prep Resp} {maxAttempts remaining number : Nat}
  {run run' : Run σ Req} {outcome : Except JsError Out}

theorem closed_retryLoop (going : ∀ e ∈ run.events, e.isFinal = false)
    (ran : (cls.retryLoop isLocalNode maxAttempts schedule remaining number).run run =
      (outcome, run')) : Closed run'.events := by
  refine retryLoop_rule
    (I := fun _ _ run => ∀ e ∈ run.events, e.isFinal = false)
    (Q := fun _ run' => Closed run'.events) ?_ ?_ going (allAttempts_true _ _ _) ran
  · intro remaining number run going _ outcome run' attempt
    obtain ⟨more, events, tail, again⟩ := attempt.events
    have closed : Closed run'.events := events ▸ (closed_tail tail).append going
    rcases outcome with e | _ | out
    · exact closed
    · simp only [events, List.mem_append]
      exact fun e member => member.elim (going e) (again rfl e)
    · exact closed
  · intro number run e going
    simpa using Closed.append going List.Pairwise.nil

theorem sentCount_retryLoop
    (ran : (cls.retryLoop isLocalNode maxAttempts schedule remaining number).run run =
      (outcome, run')) : sentCount run'.events ≤ sentCount run.events + remaining := by
  refine retryLoop_rule
    (I := fun left _ run' => sentCount run'.events + left ≤ sentCount run.events + remaining)
    (Q := fun _ run' => sentCount run'.events ≤ sentCount run.events + remaining)
    ?_ ?_ le_rfl (allAttempts_true _ _ _) ran
  · intro left number before bound _ outcome after attempt
    obtain ⟨more, events, tail, _⟩ := attempt.events
    have one := sentCount_tail tail
    have count : sentCount after.events = sentCount before.events + sentCount more := by
      rw [events, sentCount, List.countP_append]
      rfl
    rcases outcome with e | _ | out <;> dsimp only <;> omega
  · intro number run e bound
    exact bound

theorem sentBefore_retryLoop {T : ℚ} (timeout : (cls.base run.request).requestTimeout = some T)
    (none : SentBefore (schedule.calledAt + T) run.events)
    (onTime : cls.AllAttempts isLocalNode schedule (fun number _ => OnTime schedule T number)
      remaining number run)
    (ran : (cls.retryLoop isLocalNode maxAttempts schedule remaining number).run run =
      (outcome, run')) : SentBefore (schedule.calledAt + T) run'.events := by
  refine retryLoop_rule (I := fun _ _ run => (cls.base run.request).requestTimeout = some T ∧
      SentBefore (schedule.calledAt + T) run.events)
    (Q := fun _ run' => SentBefore (schedule.calledAt + T) run'.events) ?_ ?_ ⟨timeout, none⟩ onTime
    ran
  · rintro remaining number run ⟨timeout, none⟩ onTime outcome run' attempt
    obtain ⟨more, events, tail, _⟩ := attempt.events
    have sent : SentBefore (schedule.calledAt + T) run'.events := by
      rw [events, SentBefore, List.filterMap_append, List.forall_mem_append]
      exact ⟨none, sentBefore_tail tail timeout onTime⟩
    rcases outcome with e | _ | out
    · exact sent
    · obtain ⟨ids, base⟩ := attempt.base_again
      exact ⟨by rw [base]; exact timeout, sent⟩
    · exact sent
  · intro number run e h
    exact h.2

end Loop

/-! ## The execution -/

section Execute

variable {client : Client} {requestTimeout : Option ℚ} {schedule : Schedule Prep Resp}

/-- Preparing a request leaves no event, and the settings but for the defaults it takes
from the client. -/
theorem run_prepare {run run' : Run σ Req} {outcome : Except JsError Unit}
    (ran : (cls.prepare client requestTimeout schedule).run run = (outcome, run')) :
    run'.events = run.events ∧
      (cls.base run'.request).maxAttempts = (cls.base run.request).maxAttempts ∧
      (cls.base run'.request).requestTimeout =
        ((cls.base run.request).setTimeout client requestTimeout).requestTimeout := by
  have settings := cls.beforeExecute_settings client schedule.preparation
    (cls.withBase ((cls.base run.request).setTimeout client requestTimeout) run.request) run.network
  rw [cls.base_withBase] at settings
  rw [prepare, Method.run_update_bind, Method.run_bind, Method.run_zoom] at ran
  simp only at ran
  generalize (cls.beforeExecute client schedule.preparation).run
    (cls.withBase ((cls.base run.request).setTimeout client requestTimeout) run.request,
      run.network) = before at ran settings
  obtain ⟨e | _, request, network⟩ := before
  · cases ran
    simp only [Executable.settings, Prod.mk.injEq] at settings
    exact ⟨rfl, settings.1, settings.2.1⟩
  · simp only [meanwhile, Method.run_update_bind, Method.run_this_bind, cls.base_withBase] at ran
    simp only [Executable.settings, Prod.mk.injEq] at settings
    generalize Executable.checkNodes _ = checked at ran
    cases checked <;> cases ran <;>
      exact ⟨rfl, by rw [cls.base_withBase]; exact settings.1,
        by rw [cls.base_withBase]; exact settings.2.1⟩

/-- The loop that an execution ends in, when it gets that far. -/
theorem run_execute {run prepared : Run σ Req}
    (ready : (cls.prepare client requestTimeout schedule).run run = (.ok (), prepared)) :
    (cls.execute client requestTimeout schedule).run run =
      (cls.retryLoop client.isLocalNode ((cls.base prepared.request).maxAttemptsFor client) schedule
        ((cls.base prepared.request).maxAttemptsFor client) 1).run prepared := by
  rw [execute, Method.run_bind_ok ready, Method.run_this_bind]

/-- Every attempt of the loop that passes the check of the timeout is ready to send
before the timeout has passed since the call. -/
def AllOnTime (cls : ExecutableClass σ Prep Req Resp Out) (client : Client)
    (requestTimeout : Option ℚ) (schedule : Schedule Prep Resp) (request : σ) (T : ℚ) : Prop :=
  let prepared := ((cls.prepare client requestTimeout schedule).run (Run.start client request)).2
  cls.AllAttempts client.isLocalNode schedule (fun number _ => OnTime schedule T number)
    ((cls.base prepared.request).maxAttemptsFor client) 1 prepared

instance (client : Client) (requestTimeout : Option ℚ) (schedule : Schedule Prep Resp) (request : σ)
    (T : ℚ) : Decidable (cls.AllOnTime client requestTimeout schedule request T) :=
  AllAttempts.decidable ..

/-- Nothing is sent behind a final verdict. The number of requests is bounded as the
user was told unless the client allows more attempts than the request, and none is
sent late when preparing takes no time that matters. -/
theorem execute_within_budget (notLocal : client.isLocalNode = false) (request : σ)
    (chosen : Option Nat) (set : (cls.base request).maxAttempts = chosen.getD 10) :
    let events := ((cls.execute client requestTimeout schedule).run (Run.start client request)).2.events
    Closed events ∧
    ((∀ k c, chosen = some k → client.maxAttempts = some c → c ≤ k) →
      sentCount events ≤ chosen.getD (client.maxAttempts.getD 10)) ∧
    ∀ T, ((cls.base request).setTimeout client requestTimeout).requestTimeout = some T →
      cls.AllOnTime client requestTimeout schedule request T →
      SentBefore (schedule.calledAt + T) events := by
  rcases preparing : (cls.prepare client requestTimeout schedule).run (Run.start client request)
    with ⟨e | _, prepared⟩
  · obtain ⟨events, -⟩ := run_prepare preparing
    rw [execute, Method.run_bind_error preparing]
    simp only [events, Run.start]
    exact ⟨List.Pairwise.nil, fun _ => by simp [sentCount], fun T _ _ => by simp [SentBefore]⟩
  · obtain ⟨events, maxAttempts, timeout⟩ := run_prepare preparing
    have none : prepared.events = [] := events
    have attempts : (cls.base prepared.request).maxAttemptsFor client =
        client.maxAttempts.getD (chosen.getD 10) := by
      rw [Executable.maxAttemptsFor, notLocal, if_neg (by simp), maxAttempts, ← set]
      rfl
    rw [run_execute preparing]
    rcases ran : (cls.retryLoop client.isLocalNode
      ((cls.base prepared.request).maxAttemptsFor client) schedule
      ((cls.base prepared.request).maxAttemptsFor client) 1).run prepared with ⟨outcome, run'⟩
    refine ⟨closed_retryLoop (by simp [none]) ran, fun agree => ?_, fun T set onTime => ?_⟩
    · have count := sentCount_retryLoop ran
      simp only [none, sentCount, List.countP_nil, zero_add, attempts] at count ⊢
      refine count.trans ?_
      cases chosen with
      | none => simp
      | some k =>
          cases limit : client.maxAttempts with
          | none => simp
          | some c => simpa using agree k c rfl limit
    · rw [AllOnTime, preparing] at onTime
      refine sentBefore_retryLoop (timeout.trans set) ?_ onTime ran
      simp [SentBefore, none]

end Execute

section Samples

open Transaction

/-- A request with one attempt and ten milliseconds. -/
theorem one_attempt_within_budget :
    let events := ((sampleClass.execute (sampleClient [3, 4]) (some 10)
      (sampleSchedule 0 (.ok (some 12)))).run
      (Run.start (sampleClient [3, 4]) { frozenTransfer [3, 4] with maxAttempts := 1 })).2.events
    sentCount events ≤ 1 ∧ SentBefore (0 + 10) events := by
  intro events
  have budget := @execute_within_budget _ _ _ _ _ sampleClass (sampleClient [3, 4]) (some 10)
    (sampleSchedule 0 (.ok (some 12))) (by decide +kernel)
    { frozenTransfer [3, 4] with maxAttempts := 1 } (some 1) rfl
  exact ⟨budget.2.1 (by simp [sampleClient]), budget.2.2 10 (by decide +kernel) (by decide +kernel)⟩

/-- A limit set on the request gives way to the client's, and a request is sent after
the timeout when preparing took a while. -/
theorem budget_is_exceeded :
    (let client := { sampleClient [3, 4] with maxAttempts := some 2 }
    let tx := { frozenTransfer [3, 4] with maxAttempts := 1 }
    sentCount ((sampleClass.execute client none (sampleSchedule 0 (.ok (some 12)))).run
      (Run.start client tx)).2.events = 2) ∧
    ¬ SentBefore (0 + 10)
      ((sampleClass.execute (sampleClient [3, 4]) (some 10) (sampleSchedule 11 (.ok (some 0)))).run
        (Run.start (sampleClient [3, 4]) (frozenTransfer [3, 4]))).2.events := by
  exact ⟨by decide +kernel, by decide +kernel⟩

end Samples

end HederaSdk.ExecutableClass
