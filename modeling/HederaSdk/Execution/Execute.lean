import HederaSdk.Execution.Executable
import HederaSdk.Library.Method

/-!
# Executing a request

`execute` prepares a request and then makes attempts. An attempt looks up the
node under the cursor, makes the request, checks that the node is healthy, moves
the cursor and calls the node; the answer decides whether another attempt
follows.

An execution waits while it prepares, makes a request, calls a node and backs
off. What the rest of the program does to the network meanwhile, what the clock
shows and what the nodes answer are inputs of the run.
-/

namespace HederaSdk

open Library Network

/-- What happened in a run, in order. -/
inductive Event (Req : Type) where
  /-- A request was handed to the channel of a node. -/
  | sent (node : Node) (nodeAccountId : AccountId) (request : Req) (time : ℚ)
  | failed (error : JsError)
  | classified (state : ExecutionState)
  /-- The loop throws that all nodes are unhealthy. -/
  | gaveUp (time : ℚ)
  /-- The loop waits before the next attempt, in milliseconds. -/
  | delayed (delay : ℚ)

namespace Event

variable {Req : Type}

def isSent : Event Req → Bool
  | .sent .. => true
  | _ => false

/-- What the judgement of an answer leaves. -/
def isAnswer : Event Req → Bool
  | .failed _ | .classified _ | .delayed _ => true
  | _ => false

theorem isSent_of_isAnswer {e : Event Req} (answer : e.isAnswer = true) : e.isSent = false := by
  cases e <;> simp_all [isAnswer, isSent]

def sentTime : Event Req → Option ℚ
  | .sent _ _ _ time => some time
  | _ => none

/-- The key of the node that a request was handed to. -/
def sentKey : Event Req → Option String
  | .sent node _ _ _ => some node.getKey
  | _ => none

def gaveUpTime : Event Req → Option ℚ
  | .gaveUp time => some time
  | _ => none

theorem mem_of_gaveUpTime {events : List (Event Req)} {time : ℚ}
    (member : time ∈ events.filterMap gaveUpTime) : .gaveUp time ∈ events := by
  obtain ⟨e, inEvents, same⟩ := List.mem_filterMap.mp member
  cases e <;> cases same
  exact inEvents

/-- A verdict behind which nothing more is to be sent. -/
def isFinal : Event Req → Bool
  | .failed error => !isRetryable error
  | .classified state => state ≠ .retry
  | .gaveUp _ => true
  | _ => false

end Event

/-- A request in execution, and the network of the client. -/
structure Run (σ Req : Type) where
  request : σ
  network : Network
  events : List (Event Req) := []
  /-- The text of the last error. -/
  persistentError : Option String := none

/-- What an attempt meets. Each list of calls is made to the network while the
attempt waits. -/
structure Attempt (Resp : Type) where
  now : ℚ
  draws : Nat → Nat := id
  moment : Nat := 0
  generated : Timestamp := ⟨0, 0⟩
  whileMaking : List NetworkCall := []
  sentAt : ℚ
  outcome : Except JsError Resp
  whileCalling : List NetworkCall := []
  answeredAt : ℚ
  regenerated : Timestamp := ⟨0, 0⟩
  whileWaiting : List NetworkCall := []

/-- What an execution meets, from the call on. Attempts are numbered from 1. -/
structure Schedule (Prep Resp : Type) where
  calledAt : ℚ
  preparation : Prep
  whilePreparing : List NetworkCall := []
  startTime : ℚ
  attempts : Nat → Attempt Resp

/-- What the user may set and an execution only reads. -/
def Executable.settings (request : Executable) : Nat × Option ℚ × Option ℚ × ℚ :=
  (request.maxAttempts, request.requestTimeout, request.minBackoff, request.maxBackoff)

/-- The methods that a subclass of `Executable` overrides. They leave what the
class itself holds alone, but for a cursor that making a request may move. -/
structure ExecutableClass (σ Prep Req Resp Out : Type) where
  base : σ → Executable
  withBase : Executable → σ → σ
  beforeExecute : Client → Prep → Method JsError (σ × Network) Unit
  getLogId : Method JsError σ Unit
  makeRequest : (moment : Nat) → (generated : Timestamp) → Method JsError σ Req
  shouldRetry : Req → Resp → (generated : Timestamp) → Method JsError σ (Status × ExecutionState)
  mapStatusError : Req → Resp → AccountId → Method JsError σ JsError
  mapResponse : Resp → AccountId → Req → Method JsError σ Out
  /-- Whether making a request moves the cursor of the node ids. -/
  movesCursor : Executable → Bool
  movesCursor_nodeIds : ∀ request nodeAccountIds,
    movesCursor { request with nodeAccountIds } = movesCursor request
  base_withBase : ∀ b s, base (withBase b s) = b
  beforeExecute_settings : ∀ client input s net,
    (base ((beforeExecute client input).run (s, net)).2.1).settings = (base s).settings
  getLogId_keeps : ∀ s, (getLogId.run s).2 = s
  makeRequest_base : ∀ moment generated s, base ((makeRequest moment generated).run s).2 =
    if movesCursor (base s) then
      { base s with nodeAccountIds := (base s).nodeAccountIds.advance }
    else base s
  shouldRetry_base : ∀ request response generated s,
    base ((shouldRetry request response generated).run s).2 = base s

/-- Whether the loop goes on. -/
inductive Step (Out : Type) where
  | again
  | finished (out : Out)

namespace Run

variable {σ Req : Type}

/-- A request that is about to be executed. -/
def start (client : Client) (request : σ) : Run σ Req := { request, network := client.network }

/-- A status that is no success is remembered. -/
def noteStatus (status : Status) (run : Run σ Req) : Run σ Req :=
  { run with
    persistentError :=
      if status = .Ok ∨ status = .Success then run.persistentError else some status.name }

@[simp] theorem request_noteStatus (status : Status) (run : Run σ Req) :
    (run.noteStatus status).request = run.request := rfl

@[simp] theorem events_noteStatus (status : Status) (run : Run σ Req) :
    (run.noteStatus status).events = run.events := rfl

@[simp] theorem network_noteStatus (status : Status) (run : Run σ Req) :
    (run.noteStatus status).network = run.network := rfl

end Run

abbrev RunMethod (σ Req : Type) := Method JsError (Run σ Req)

namespace RunMethod

variable {σ Req : Type}

/-- A method of the request. -/
def onRequest {α : Type} (m : Method JsError σ α) : RunMethod σ Req α :=
  Method.zoom Run.request (fun request run => { run with request }) m

/-- A method of the network. -/
def onNetwork {α : Type} (m : NetworkMethod α) : RunMethod σ Req α :=
  Method.zoom Run.network (fun network run => { run with network }) m

def meanwhile (calls : List NetworkCall) : RunMethod σ Req Unit :=
  Method.update fun run => { run with network := runAll step run.network calls }

def note (event : Event Req) : RunMethod σ Req Unit :=
  Method.update fun run => { run with events := run.events ++ [event] }

end RunMethod

/-! ## Settings -/

namespace Executable

/-- A timeout set on the request comes first, then the one given, then the client's. -/
def setTimeout (request : Executable) (client : Client) (requestTimeout : Option ℚ) : Executable :=
  { request with
    requestTimeout := request.requestTimeout.or (requestTimeout.or client.requestTimeout) }

def takeMinBackoff (request : Executable) (client : Client) : Executable :=
  { request with minBackoff := some (request.minBackoff.getD client.minBackoff) }

def maxAttemptsFor (request : Executable) (client : Client) : Nat :=
  if client.isLocalNode then 1000 else client.maxAttempts.getD request.maxAttempts

/-- The milliseconds before the next attempt. -/
def delayForAttempt (isLocalNode : Bool) (number : Nat) (request : Executable) : ℚ :=
  let minBackoff := request.minBackoff.getD 0
  if isLocalNode then minBackoff else min ((minBackoff * 2 ^ number).floor : ℚ) request.maxBackoff

/-- A request with nodes of which the client knows none is refused. -/
def checkNodes (request : Executable) : Except JsError Unit :=
  let ids := request.nodeAccountIds.list.map AccountId.toString
  if request.transactionNodeIds ≠ [] ∧ ∀ id ∈ request.transactionNodeIds, id ∉ ids then
    let display :=
      if 2 < ids.length then ", ".intercalate (ids.take 2) ++ " ..." else ", ".intercalate ids
    let plural := if ids.length = 1 then "" else "s"
    let verb := if ids.length = 1 then "is" else "are"
    .error (.error (s!"Attempting to execute a transaction against node{plural} {display}, " ++
      s!"which {verb} not included in the Client's node list. " ++
      "Please review your Client configuration."))
  else .ok ()

/-- A node that is not among those of the client. -/
def isForeign (request : Executable) (id : AccountId) : Bool :=
  request.transactionNodeIds ≠ [] && id.toString ∉ request.transactionNodeIds

/-- The cursor is at the last node, or there is no other. -/
def isLastNode (request : Executable) : Bool :=
  request.nodeAccountIds.index + 1 = request.nodeAccountIds.length ||
    request.nodeAccountIds.length ≤ 1

def allUnhealthy (request : Executable) : JsError :=
  .error ("Network connectivity issue: All nodes are unhealthy. Original node list: " ++
    ", ".intercalate (request.nodeAccountIds.list.map AccountId.toString))

/-- `this._nodeAccountIds.current.toString()` -/
def currentText (request : Executable) : Except JsError String :=
  match request.nodeAccountIds.current with
  | some id => .ok id.toString
  | none => .error (.typeError "Cannot read properties of undefined (reading 'toString')")

def currentTextIfAny (request : Executable) : Except JsError String :=
  if request.nodeAccountIds.isEmpty then .ok "No node account ID set" else request.currentText

/-- Throws once the request timeout has passed. -/
def checkTimeout (request : Executable) (startTime now : ℚ) : Except JsError Unit :=
  match request.requestTimeout with
  | none => .ok ()
  | some requestTimeout =>
      if startTime + requestTimeout ≤ now then do
        let current ← request.currentTextIfAny
        .error (.maxAttemptsOrTimeout "timeout exceeded" current)
      else .ok ()

end Executable

namespace ExecutableClass

variable {σ Prep Req Resp Out : Type} (cls : ExecutableClass σ Prep Req Resp Out)

open RunMethod

/-! ## An attempt -/

def nodeIds (request : σ) : SdkList AccountId := (cls.base request).nodeAccountIds

def setNodeIds (nodeAccountIds : SdkList AccountId) (request : σ) : σ :=
  cls.withBase { cls.base request with nodeAccountIds } request

/-- `this._nodeAccountIds.advance()` -/
def advance : RunMethod σ Req Unit :=
  Method.update fun run =>
    { run with request := cls.setNodeIds (cls.nodeIds run.request).advance run.request }

/-- A request without nodes is given the one that the network picks. -/
def pickNode (input : Attempt Resp) : RunMethod σ Req (AccountId × NodeRef) := do
  let r ← onNetwork (Network.getNode none input.draws input.now)
  let run ← Method.this
  match r with
  | none =>
      Method.throwing (.typeError "Cannot read properties of undefined (reading 'accountId')")
  | some r => do
      let id := (run.network.heap r).accountId
      let ids ← Method.ofExcept ((cls.nodeIds run.request).setList [id])
      Method.update fun run => { run with request := cls.setNodeIds ids run.request }
      pure (id, r)

/-- The node under the cursor; the cursor of a list with elements is within it. -/
def lookUpNode (input : Attempt Resp) : RunMethod σ Req (AccountId × NodeRef) := do
  let run ← Method.this
  match (cls.nodeIds run.request).current with
  | none => do
      let _ ← onNetwork (Network.getNode none input.draws input.now)
      Method.throwing (.typeError "Cannot read properties of undefined (reading 'toString')")
  | some id => do
      let r ← onNetwork (Network.getNode (some id.toString) input.draws input.now)
      match r with
      | none => Method.throwing (.error s!"NodeAccountId not recognized: {id.toString}")
      | some r => pure (id, r)

def chooseNode (input : Attempt Resp) : RunMethod σ Req (AccountId × NodeRef) := do
  let run ← Method.this
  if (cls.nodeIds run.request).isEmpty then cls.pickNode input else cls.lookUpNode input

def prepareRequest (r : NodeRef) (input : Attempt Resp) : RunMethod σ Req Req := do
  onRequest cls.getLogId
  onNetwork (Method.update fun net => net.updateNode r Node.getChannel)
  let request ← onRequest (cls.makeRequest input.moment input.generated)
  meanwhile input.whileMaking
  pure request

def skipUnhealthy (time : ℚ) : RunMethod σ Req (Step Out) := do
  let run ← Method.this
  if (cls.base run.request).isLastNode then do
    note (.gaveUp time)
    Method.throwing (cls.base run.request).allUnhealthy
  else do
    cls.advance
    pure .again

/-- The node's backoff is increased after an error that is retried. -/
def judgeError (r : NodeRef) (input : Attempt Resp) (e : JsError) : RunMethod σ Req (Step Out) := do
  let error ← Method.ofExcept (grpcServiceErrorFromResponse e)
  note (.failed error)
  Method.update fun run => { run with persistentError := some error.describe }
  if isRetryable error then do
    onNetwork (Method.update (Network.increaseBackoff r input.answeredAt))
    pure .again
  else Method.throwing e

/-- Wait and try again. -/
def backOff (delay : Executable → ℚ) (input : Attempt Resp) : RunMethod σ Req (Step Out) := do
  let run ← Method.this
  note (.delayed (delay (cls.base run.request)))
  meanwhile input.whileWaiting
  pure .again

def judgeResponse (delay : Executable → ℚ) (id : AccountId) (r : NodeRef) (request : Req)
    (input : Attempt Resp) (response : Resp) : RunMethod σ Req (Step Out) := do
  onNetwork (Method.update (Network.decreaseBackoff r))
  let (status, state) ← onRequest (cls.shouldRetry request response input.regenerated)
  note (.classified state)
  Method.update (Run.noteStatus status)
  match state with
  | .retry => cls.backOff delay input
  | .finished => do
      let out ← onRequest (cls.mapResponse response id request)
      pure (.finished out)
  | .error => do
      let e ← onRequest (cls.mapStatusError request response id)
      Method.throwing e

/-- The call; the cursor has moved on before the answer is there. -/
def send (delay : Executable → ℚ) (id : AccountId) (r : NodeRef) (request : Req)
    (input : Attempt Resp) : RunMethod σ Req (Step Out) := do
  cls.advance
  let run ← Method.this
  note (.sent (run.network.heap r) id request input.sentAt)
  meanwhile input.whileCalling
  match input.outcome with
  | .error e => judgeError r input e
  | .ok response => cls.judgeResponse delay id r request input response

def sendIfHealthy (delay : Executable → ℚ) (id : AccountId) (r : NodeRef) (request : Req)
    (input : Attempt Resp) : RunMethod σ Req (Step Out) := do
  let run ← Method.this
  if (run.network.heap r).isHealthy input.sentAt then cls.send delay id r request input
  else cls.skipUnhealthy input.sentAt

/-- The body of the retry loop. -/
def attempt (startTime : ℚ) (delay : Executable → ℚ) (input : Attempt Resp) :
    RunMethod σ Req (Step Out) := do
  let run ← Method.this
  Method.ofExcept ((cls.base run.request).checkTimeout startTime input.now)
  let (id, r) ← cls.chooseNode input
  let run ← Method.this
  if (cls.base run.request).isForeign id then do
    cls.advance
    pure .again
  else do
    let request ← cls.prepareRequest r input
    cls.sendIfHealthy delay id r request input

/-! ## The loop -/

/-- All attempts have been made. -/
def exhausted (maxAttempts : Nat) : RunMethod σ Req Out := do
  let run ← Method.this
  let current ← Method.ofExcept (cls.base run.request).currentText
  Method.throwing (.maxAttemptsOrTimeout
    (s!"max attempts of {maxAttempts} was reached for request with last error being: " ++
      run.persistentError.getD "") current)

/-- The attempts that remain, from the one with the number on. -/
def retryLoop (isLocalNode : Bool) (maxAttempts : Nat) (schedule : Schedule Prep Resp) :
    Nat → Nat → RunMethod σ Req Out
  | 0, _ => cls.exhausted maxAttempts
  | remaining + 1, number => do
      let step ← cls.attempt schedule.startTime (Executable.delayForAttempt isLocalNode number)
        (schedule.attempts number)
      match step with
      | .again => retryLoop isLocalNode maxAttempts schedule remaining (number + 1)
      | .finished out => pure out

/-- What is done before the loop. -/
def prepare (client : Client) (requestTimeout : Option ℚ) (schedule : Schedule Prep Resp) :
    RunMethod σ Req Unit := do
  Method.update fun run => { run with
    request := cls.withBase ((cls.base run.request).setTimeout client requestTimeout) run.request }
  Method.zoom (fun run => (run.request, run.network))
    (fun part run => { run with request := part.1, network := part.2 })
    (cls.beforeExecute client schedule.preparation)
  meanwhile schedule.whilePreparing
  Method.update fun run => { run with
    request := cls.withBase ((cls.base run.request).takeMinBackoff client) run.request }
  let run ← Method.this
  Method.ofExcept (cls.base run.request).checkNodes

/-- `execute` -/
def execute (client : Client) (requestTimeout : Option ℚ) (schedule : Schedule Prep Resp) :
    RunMethod σ Req Out := do
  cls.prepare client requestTimeout schedule
  let run ← Method.this
  let maxAttempts := (cls.base run.request).maxAttemptsFor client
  cls.retryLoop client.isLocalNode maxAttempts schedule maxAttempts 1

end ExecutableClass

end HederaSdk
