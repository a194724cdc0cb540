import HederaSdk.Execution.Budget
import HederaSdk.Transaction.ExecuteAll
import HederaSdk.Transaction.Splitting
import Mathlib.Algebra.Order.BigOperators.Group.List

/-!
# The timeout of all chunks

`executeAll` is given one timeout for all chunks and hands on, behind each chunk, the
time that it took. An execution keeps the first timeout it is given as the transaction's
own, so what is handed on has no effect: every chunk has the whole timeout, counted from
the start of its own loop.
-/

namespace HederaSdk.Transaction.Session

open Library Network ExecutableClass

variable (proto : Proto) (sha384 : Bytes → Bytes) (client : Client) (schedule : ChunksSchedule)

/-! ## The attempts of all chunks -/

/-- The client with the network that the chunks before have left. -/
def clientOf (session : Session) : Client := { client with network := session.network }

/-- The execution of a chunk at the start of its loop. -/
def ready? (number : Nat) (remainingTimeout : Option ℚ) (session : Session) :
    Option (Run Transaction ProtoTransaction) :=
  match ((executableClass proto sha384).prepare (clientOf client session) remainingTimeout
    (schedule.chunks number)).run (Run.start (clientOf client session) session.tx) with
  | (.ok _, run) => some run
  | _ => none

/-- The session behind a chunk that is followed by another. -/
def next? (number : Nat) (remainingTimeout : Option ℚ) (session : Session) : Option Session :=
  match (executeOne proto sha384 client remainingTimeout (schedule.chunks number) >>= fun _ =>
    awaitReceipt schedule number).run session with
  | (.ok _, session') => some session'
  | _ => none

/-- A condition on the attempts of the chunks, in the state they start in. -/
abbrev Guard := (chunk number : Nat) → Run Transaction ProtoTransaction → Prop

/-- Every attempt of the chunks that remain meets the condition. -/
def AllAttempts (guard : Guard) : Nat → Nat → Option ℚ → Session → Prop
  | 0, _, _, _ => True
  | remaining + 1, number, remainingTimeout, session =>
      (∀ run ∈ ready? proto sha384 client schedule number remainingTimeout session,
        (executableClass proto sha384).AllAttempts (clientOf client session).isLocalNode
          (schedule.chunks number) (guard number)
          (run.request.maxAttemptsFor (clientOf client session)) 1 run) ∧
      ∀ session' ∈ next? proto sha384 client schedule number remainingTimeout session,
        AllAttempts guard remaining (number + 1)
          (remainingTimeout.map fun _ => schedule.elapsed number) session'

/-- Every attempt that `executeAll` makes meets the condition. -/
def AllAttemptsOfAll (guard : Guard) (requestTimeout : Option ℚ) (session : Session) : Prop :=
  ∀ prepared, (prepareAll proto client schedule).run session = (.ok (), prepared) →
    AllAttempts proto sha384 client schedule guard prepared.tx.transactionIds.length 0 requestTimeout
      prepared

instance AllAttempts.decidable (guard : Guard)
    [∀ chunk number run, Decidable (guard chunk number run)] :
    ∀ remaining number remainingTimeout session, Decidable (AllAttempts proto sha384 client schedule
      guard remaining number remainingTimeout session)
  | 0, _, _, _ => inferInstanceAs (Decidable True)
  | remaining + 1, number, remainingTimeout, session =>
      have (session' : Session) := AllAttempts.decidable guard remaining (number + 1)
        (remainingTimeout.map fun _ => schedule.elapsed number) session'
      inferInstanceAs (Decidable ((∀ run ∈ ready? proto sha384 client schedule number
          remainingTimeout session, (executableClass proto sha384).AllAttempts
            (clientOf client session).isLocalNode (schedule.chunks number) (guard number)
            (run.request.maxAttemptsFor (clientOf client session)) 1 run) ∧
        ∀ session' ∈ next? proto sha384 client schedule number remainingTimeout session,
          AllAttempts proto sha384 client schedule guard remaining (number + 1)
            (remainingTimeout.map fun _ => schedule.elapsed number) session'))

variable {proto sha384 client schedule}

/-! ## The timeout is kept -/

/-- The timeout that an execution of the transaction will have. -/
def TimeoutIs (client : Client) (requestTimeout : Option ℚ) (timeout : ℚ) (session : Session) : Prop :=
  (session.tx.toExecutable.setTimeout client requestTimeout).requestTimeout = some timeout

variable {number : Nat} {requestTimeout : Option ℚ} {timeout : ℚ} {session session' : Session}

theorem timeoutIs_of_own (own : session.tx.requestTimeout = some timeout) :
    TimeoutIs client requestTimeout timeout session := by
  simp [TimeoutIs, Executable.setTimeout, own]

theorem requestTimeout_ready {run : Run Transaction ProtoTransaction}
    (timed : TimeoutIs client requestTimeout timeout session)
    (ready : ready? proto sha384 client schedule number requestTimeout session = some run) :
    run.request.requestTimeout = some timeout := by
  rw [ready?] at ready
  split at ready
  · rename_i preparing
    cases ready
    exact (run_prepare preparing).2.2.trans timed
  · cases ready

/-- An attempt that is followed by another leaves the timeout. -/
theorem requestTimeout_again {startTime : ℚ} {delay : Executable → ℚ}
    {input : Attempt (Option Int)} {run run' : Run Transaction ProtoTransaction}
    (timed : run.request.requestTimeout = some timeout)
    (attempt : (executableClass proto sha384).Attempted startTime delay input run (.ok .again) run') :
    run'.request.requestTimeout = some timeout := by
  obtain ⟨_, base⟩ := attempt.base_again
  exact (congrArg Executable.requestTimeout base).trans timed

/-- So does the last attempt of an execution that returns. -/
theorem requestTimeout_finished {startTime : ℚ} {delay : Executable → ℚ}
    {input : Attempt (Option Int)} {run run' : Run Transaction ProtoTransaction}
    {response : TransactionResponse} (timed : run.request.requestTimeout = some timeout)
    (attempt : (executableClass proto sha384).Attempted startTime delay input run
      (.ok (.finished response)) run') :
    run'.request.requestTimeout = some timeout := by
  cases attempt with
  | @sent id r request chosen made _ _ prepared healthy judging =>
      obtain ⟨precheckCode, status, accepted, final, _, verdict, mapping, _, after⟩ :=
        finished_judged judging
      obtain rfl := shouldRetry_finished verdict
      obtain ⟨_, _, _, rfl⟩ := mapResponse_eq_ok mapping
      obtain ⟨_, base⟩ := prepared.base
      rw [after]
      exact (congrArg Executable.requestTimeout base).trans timed

/-- The timeout of an execution that returns stays with the transaction. -/
theorem requestTimeout_execute {input : Schedule Preparation (Option Int)}
    {run' : Run Transaction ProtoTransaction} {response : TransactionResponse}
    (timed : TimeoutIs client requestTimeout timeout session)
    (ran : ((executableClass proto sha384).execute (clientOf client session) requestTimeout input).run
      (Run.start (clientOf client session) session.tx) = (.ok response, run')) :
    run'.request.requestTimeout = some timeout := by
  obtain ⟨_, prepared, preparing, _⟩ := Method.run_bind_eq_ok.mp ran
  have ready : prepared.request.requestTimeout = some timeout :=
    (run_prepare preparing).2.2.trans timed
  rw [run_execute preparing] at ran
  refine retryLoop_rule
    (I := fun _ _ run => run.request.requestTimeout = some timeout)
    (Q := fun outcome run => ∀ response, outcome = .ok response →
      run.request.requestTimeout = some timeout) ?_ ?_ ready (allAttempts_true _ _ _) ran response rfl
  · intro remaining number run timed _ outcome run' attempt
    rcases outcome with e | _ | out
    · exact fun _ same => by cases same
    · exact requestTimeout_again timed attempt
    · exact fun _ _ => requestTimeout_finished timed attempt
  · exact fun _ _ _ _ _ same => by cases same

theorem requestTimeout_next (timed : TimeoutIs client requestTimeout timeout session)
    (going : next? proto sha384 client schedule number requestTimeout session = some session') :
    session'.tx.requestTimeout = some timeout := by
  rw [next?] at going
  split at going
  · rename_i _ _ ran
    cases going
    obtain ⟨response, executed, executing, awaiting⟩ := Method.run_bind_eq_ok.mp ran
    rw [(awaitReceipt_eq_ok awaiting).1]
    have kept := @requestTimeout_execute proto sha384 client requestTimeout timeout session
      (schedule.chunks number)
    simp only [executeOne, Method.run, clientOf] at executing kept
    generalize (executableClass proto sha384).execute { client with network := session.network }
      requestTimeout (schedule.chunks number)
      (Run.start { client with network := session.network } session.tx) = result at executing kept
    obtain ⟨outcome, run'⟩ := result
    cases executing
    exact kept timed rfl
  · cases going

/-! ## The attempts have the timeout -/

/-- A condition on the attempts may use the timeout. -/
theorem AllAttempts.imp {guard guard' : Guard} {remaining : Nat}
    (implies : ∀ chunk number run, run.request.requestTimeout = some timeout →
      guard chunk number run → guard' chunk number run)
    (timed : TimeoutIs client requestTimeout timeout session)
    (all : AllAttempts proto sha384 client schedule guard remaining number requestTimeout session) :
    AllAttempts proto sha384 client schedule guard' remaining number requestTimeout session := by
  induction remaining generalizing number requestTimeout session with
  | zero => trivial
  | succ remaining inductionHypothesis =>
      obtain ⟨here, others⟩ := all
      constructor
      · intro run ready
        refine (here run ready).imp (fun _ _ _ timed attempt => requestTimeout_again timed attempt) ?_
          (requestTimeout_ready timed ready)
        exact fun attempt run => implies number attempt run
      · intro session' going
        apply inductionHypothesis
        · exact timeoutIs_of_own (requestTimeout_next timed going)
        · exact others session' going

theorem settings_freezeOn {kept : (Nat × Option ℚ × Option ℚ × ℚ) × List String}
    (input : Preparation) :
    Method.Keeps (fun session : Session => HasSettings kept session.tx)
      (freezeOn proto client input) := by
  intro session settings
  have freezes (picked : Except JsError (List AccountId)) :
      HasSettings kept ((freezeForExecution proto client picked input.generated).run session.tx).2 :=
    Method.Keeps.bind .this (fun _ => .ite (.pure _) (settings_freezeWith _ _ _)) _ settings
  exact freezes _

theorem settings_onTransaction {kept : (Nat × Option ℚ × Option ℚ × ℚ) × List String} {α : Type}
    {m : TransactionMethod α} (keeps : Method.Keeps (HasSettings kept) m) :
    Method.Keeps (fun session : Session => HasSettings kept session.tx) (onTransaction m) :=
  fun session settings => keeps session.tx settings

/-- Nothing that is done before the first chunk sets a timeout. -/
theorem settings_prepareAll {kept : (Nat × Option ℚ × Option ℚ × ℚ) × List String} :
    Method.Keeps (fun session : Session => HasSettings kept session.tx)
      (prepareAll proto client schedule) := by
  refine .bind .this fun _ => .bind (.ofExcept _) fun _ => .bind (settings_freezeOn _) fun _ =>
    .bind (settings_onTransaction ?_) fun _ => .ite ?_ (.pure _)
  · refine .bind .this fun tx => .ite (.throwing _) (.bind (.update fun _ h => h) fun _ => ?_)
    cases tx.transactionIds.current with
    | none => exact .throwing _
    | some id => exact .pure _
  · rw [signWithOperator]
    cases client.operator with
    | none => exact .throwing _
    | some operator =>
        exact .bind (settings_freezeOn _) fun _ => settings_onTransaction (settings_signWith _ _ _)

theorem requestTimeout_prepareAll {prepared : Session}
    (ran : (prepareAll proto client schedule).run session = (.ok (), prepared)) :
    prepared.tx.requestTimeout = session.tx.requestTimeout := by
  have kept := @settings_prepareAll proto client schedule _ session (rfl : HasSettings _ session.tx)
  rw [ran] at kept
  exact congrArg (fun settings => settings.1.2.1) kept

theorem AllAttemptsOfAll.imp {guard guard' : Guard} {T : ℚ}
    (implies : ∀ chunk number run,
      run.request.requestTimeout = some (session.tx.requestTimeout.getD T) →
        guard chunk number run → guard' chunk number run)
    (all : AllAttemptsOfAll proto sha384 client schedule guard (some T) session) :
    AllAttemptsOfAll proto sha384 client schedule guard' (some T) session := by
  intro prepared ran
  refine (all prepared ran).imp implies ?_
  have own := requestTimeout_prepareAll ran
  simp only [TimeoutIs, Executable.setTimeout, own]
  cases session.tx.requestTimeout <;> rfl

/-! ## Attempts in time -/

section

variable (schedule : ChunksSchedule) (began T : ℚ)

/-- The milliseconds that the executions have taken when one comes to an attempt. -/
def taken (chunk : Nat) (now : ℚ) : ℚ :=
  ((List.range chunk).map schedule.elapsed).sum + (now - (schedule.chunks chunk).calledAt)

/-- An attempt starts at most `T` behind the beginning, and the timeout only ends a run
whose executions have taken `T`. -/
def InTime : Guard := fun chunk number run =>
  let now := ((schedule.chunks chunk).attempts number).now
  match run.request.checkTimeout (schedule.chunks chunk).startTime now with
  | .ok _ => now ≤ began + T
  | .error _ => T ≤ taken schedule chunk now

/-- An attempt that is earlier than the timeout of its own execution is at most `T` behind
the beginning; when it is not earlier, the executions have taken `T`. -/
def Fits (timeout : ℚ) : Guard := fun chunk number _ =>
  let now := ((schedule.chunks chunk).attempts number).now
  if now < (schedule.chunks chunk).startTime + timeout then now ≤ began + T
  else T ≤ taken schedule chunk now

/-- An attempt that is earlier than `T` behind the start of its own loop is at most `T`
behind the beginning. -/
def Early : Guard := fun chunk number _ =>
  let now := ((schedule.chunks chunk).attempts number).now
  now < (schedule.chunks chunk).startTime + T → now ≤ began + T

instance InTime.decidable (chunk number : Nat) (run : Run Transaction ProtoTransaction) :
    Decidable (InTime schedule began T chunk number run) :=
  match checked : run.request.checkTimeout (schedule.chunks chunk).startTime
      ((schedule.chunks chunk).attempts number).now with
  | .ok _ => decidable_of_iff (((schedule.chunks chunk).attempts number).now ≤ began + T) <| by
      simp only [InTime, checked]
  | .error _ => decidable_of_iff
      (T ≤ taken schedule chunk ((schedule.chunks chunk).attempts number).now) <| by
        simp only [InTime, checked]

end

variable {began T : ℚ}

/-- The check throws exactly from the timeout on. -/
theorem checkTimeout_eq_ok_iff {request : Executable} {startTime now : ℚ}
    (timed : request.requestTimeout = some timeout) :
    request.checkTimeout startTime now = .ok () ↔ now < startTime + timeout := by
  constructor
  · exact lt_of_checkTimeout timed
  · intro early
    simp only [Executable.checkTimeout, timed]
    exact if_neg (not_le.mpr early)

theorem inTime_iff_fits {chunk number : Nat} {run : Run Transaction ProtoTransaction}
    (timed : run.request.requestTimeout = some timeout) :
    InTime schedule began T chunk number run ↔ Fits schedule began T timeout chunk number run := by
  have passes := @checkTimeout_eq_ok_iff timeout run.request.toExecutable (schedule.chunks chunk).startTime
    ((schedule.chunks chunk).attempts number).now timed
  simp only [InTime, Fits]
  rcases checked : run.request.checkTimeout (schedule.chunks chunk).startTime
    ((schedule.chunks chunk).attempts number).now with e | _
  · rw [if_neg fun early => by cases checked.symm.trans (passes.mpr early)]
  · rw [if_pos (passes.mp checked)]

/-- An execution that comes to its timeout `T` has taken `T`. -/
theorem fits_iff_early (forward : ∀ chunk, 0 ≤ schedule.elapsed chunk)
    (prepares : ∀ chunk, (schedule.chunks chunk).calledAt ≤ (schedule.chunks chunk).startTime)
    {chunk number : Nat} {run : Run Transaction ProtoTransaction} :
    Fits schedule began T T chunk number run ↔ Early schedule began T chunk number run := by
  simp only [Fits, Early]
  split
  · rename_i early
    exact ⟨fun inTime _ => inTime, fun inTime => inTime early⟩
  · rename_i late
    refine ⟨fun _ early => absurd early late, fun _ => ?_⟩
    have before : 0 ≤ ((List.range chunk).map schedule.elapsed).sum :=
      List.sum_nonneg fun time member => by
        obtain ⟨earlier, _, rfl⟩ := List.mem_map.mp member
        exact forward earlier
    have preparing := prepares chunk
    rw [taken]
    linarith [not_lt.mp late]

/-- Every attempt of `executeAll` is in time exactly when the attempts fit the timeout that
the transaction had or was given. A timeout that was given never ends a run too early. -/
theorem executeAll_inTime_iff (proto : Proto) (sha384 : Bytes → Bytes) (client : Client)
    (schedule : ChunksSchedule) (began T : ℚ) (session : Session) :
    (AllAttemptsOfAll proto sha384 client schedule (InTime schedule began T) (some T) session ↔
      AllAttemptsOfAll proto sha384 client schedule
        (Fits schedule began T (session.tx.requestTimeout.getD T)) (some T) session) ∧
      (session.tx.requestTimeout = none → (∀ chunk, 0 ≤ schedule.elapsed chunk) →
        (∀ chunk, (schedule.chunks chunk).calledAt ≤ (schedule.chunks chunk).startTime) →
          (AllAttemptsOfAll proto sha384 client schedule (InTime schedule began T) (some T) session ↔
            AllAttemptsOfAll proto sha384 client schedule (Early schedule began T) (some T)
              session)) := by
  have fits : AllAttemptsOfAll proto sha384 client schedule (InTime schedule began T) (some T)
        session ↔ AllAttemptsOfAll proto sha384 client schedule
          (Fits schedule began T (session.tx.requestTimeout.getD T)) (some T) session := by
    constructor
    · intro all
      exact all.imp fun _ _ _ timed => (inTime_iff_fits timed).mp
    · intro all
      exact all.imp fun _ _ _ timed => (inTime_iff_fits timed).mpr
  refine ⟨fits, fun own forward prepares => fits.trans ?_⟩
  rw [own, Option.getD_none]
  constructor
  · intro all
    exact all.imp fun _ _ _ _ => (fits_iff_early forward prepares).mp
  · intro all
    exact all.imp fun _ _ _ _ => (fits_iff_early forward prepares).mpr

/-- The call for each of two chunks takes twelve milliseconds. -/
def slowChunk : ChunksSchedule where
  freezing := { now := 0 }
  signing := { now := 0 }
  chunks chunk :=
    { calledAt := 12 * chunk
      preparation := { now := 12 * chunk }
      startTime := 12 * chunk
      attempts := fun _ =>
        { now := 12 * chunk
          sentAt := 12 * chunk
          outcome := .ok (some 0)
          answeredAt := 12 * chunk + 12 } }
  elapsed _ := 12

def slowStart : Session := ⟨sampleMessage [1, 2, 3], (sampleClient [3, 4]).network, []⟩

def slowPreparation : Except JsError Unit × Session :=
  (prepareAll prefixProto (sampleClient [3, 4]) slowChunk).run slowStart

/-- With a timeout of ten milliseconds the second chunk is submitted nonetheless. -/
theorem second_chunk_is_late :
    ¬AllAttemptsOfAll prefixProto (fun _ => List.replicate 48 0) (sampleClient [3, 4]) slowChunk
      (InTime slowChunk 0 10) (some 10) slowStart := by
  have returned : slowPreparation.1 = .ok () := by decide +kernel
  have late : ¬AllAttempts prefixProto (fun _ => List.replicate 48 0) (sampleClient [3, 4]) slowChunk
      (InTime slowChunk 0 10) slowPreparation.2.tx.transactionIds.length 0 (some 10)
      slowPreparation.2 := by decide +kernel
  have ran : slowPreparation = (slowPreparation.1, slowPreparation.2) := Prod.mk.eta.symm
  rw [returned] at ran
  generalize slowPreparation.2 = prepared at late ran
  rw [slowPreparation] at ran
  intro all
  exact late (all prepared ran)

end HederaSdk.Transaction.Session
