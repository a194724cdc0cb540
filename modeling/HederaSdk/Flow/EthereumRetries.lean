import HederaSdk.Flow.Outages

/-!
# Executing an Ethereum flow again

A flow that has put its call data into a file keeps the emptied data, whether the transaction
after that is accepted or not. The next time it is submitted without its call data. Every other
way through the flow leaves the data as it was, and the next time is like the first.
-/

namespace HederaSdk

open Library

/-- The flow while it is executed, and what the network was asked. -/
structure EthereumAttempts (FileId : Type) where
  flow : EthereumFlow FileId
  asked : List (FlowRequest FileId) := []

namespace EthereumFlow

variable {FileId : Type}

abbrev Attempt (FileId : Type) := Method JsError (EthereumAttempts FileId)

def asking {α : Type} (m : Asking FileId α) : Attempt FileId α :=
  Method.zoom EthereumAttempts.asked (fun asked attempts => { attempts with asked }) m

variable (network : FlowNetwork FileId) (rlp : Rlp)

/-- `createFile` with a network that may fail. -/
def createFileOver (client : FlowClient) (callData : Bytes) (maxChunks : Option ℚ) : Asking FileId FileId := do
  let hexedCallData := hexEncode callData
  let operator ← Method.ofExcept client.freezeWith
  let _ ← network.ask
    (.execute (.fileCreate client.operatorPublicKey.toList (utf8Encode (substringTo hexedCallData 4096)))
      [operator])
  let fileId ← network.ask .getReceipt
  if 4096 < callData.length then do
    let append : FileAppend := { contents := some (utf8Encode (substringFrom hexedCallData 4096)) }
    network.appendFile fileId
      (match maxChunks with
        | some maxChunks => { append with maxChunks }
        | none => append) [operator]
    pure fileId
  else pure fileId

def submitOver (client : FlowClient) (ethereumData : Bytes) (callDataFileId : Option FileId) :
    Attempt FileId PUnit := do
  let attempts ← Method.this
  let operator ← Method.ofExcept client.freezeWith
  let _ ← asking (network.ask
    (.execute (.ethereum ethereumData callDataFileId attempts.flow.maxGasAllowance) [operator]))
  pure ⟨⟩

/-- `execute` with a network that may fail. -/
def executeOver (client : FlowClient) : Attempt FileId PUnit := do
  let attempts ← Method.this
  match attempts.flow.ethereumData with
  | none => Method.throwing (.error "cannot submit ethereum transaction with no ethereum data")
  | some data =>
      match attempts.flow.callDataFileId with
      | some callDataFileId =>
          if data.callData.length = 0 then
            Method.throwing (.error
              "call data file ID provided, but ethereum data already contains call data")
          else submitOver network client (data.toBytes rlp) (some callDataFileId)
      | none =>
          if (data.toBytes rlp).length ≤ 5120 then submitOver network client (data.toBytes rlp) none
          else do
            let fileId ← asking (createFileOver network client data.callData attempts.flow.maxChunks)
            Method.update fun attempts =>
              { attempts with flow := { attempts.flow with ethereumData := some (data.setCallData []) } }
            submitOver network client ((data.setCallData []).toBytes rlp) (some fileId)

/-! ## With a network that grants everything -/

section Granting

variable (newFile : Nat → FileId) (client : FlowClient)

/-- The attempts as a session, without the questions for receipts. -/
def session (attempts : EthereumAttempts FileId) : EthereumSession FileId where
  flow := attempts.flow
  log := FlowNetwork.submissions newFile attempts.asked

open FlowNetwork in
theorem create_follows (keys : List PublicKey) (contents : Bytes) (signedBy : List PublicKey) :
    Method.Follows (submissions newFile)
      (do
        let _ ← (granting newFile).ask (.execute (.fileCreate keys contents) signedBy)
        (granting newFile).ask .getReceipt)
      (FileFlow.createFile newFile keys contents signedBy) := by
  intro asked
  have sent := submissions_append newFile asked (.execute (.fileCreate keys contents) signedBy)
  have received := (submissions_getReceipt newFile _).trans sent
  have number : (submissions newFile (asked ++ [.execute (.fileCreate keys contents) signedBy] ++
      [.getReceipt])).length - 1 = (submissions newFile asked).length := by
    rw [received, submitted, List.length_append]
    rfl
  refine Prod.ext ?_ received.symm
  exact congrArg (fun n => Except.ok (newFile n)) number.symm

theorem createFileOver_follows (callData : Bytes) (maxChunks : Option ℚ) :
    Method.Follows (FlowNetwork.submissions newFile)
      (createFileOver (FlowNetwork.granting newFile) client callData maxChunks)
      (createFile newFile client callData maxChunks) := by
  apply Method.Follows.bind (Method.Follows.ofExcept _)
  intro operator
  rw [← Method.bind_assoc]
  apply Method.Follows.bind (create_follows newFile _ _ _)
  intro fileId
  apply Method.Follows.ite
  · exact Method.Follows.bind (FlowNetwork.appendFile_follows newFile fileId _ _) fun _ => Method.Follows.pure _
  · exact Method.Follows.pure _

theorem submitOver_follows (ethereumData : Bytes) (callDataFileId : Option FileId) :
    Method.Follows (session newFile)
      (submitOver (FlowNetwork.granting newFile) client ethereumData callDataFileId)
      (submit client ethereumData callDataFileId) := by
  apply Method.Follows.this
  intro attempts
  apply Method.Follows.bind (Method.Follows.ofExcept _)
  intro operator current
  have sent := FlowNetwork.submissions_append newFile current.asked
    (.execute (.ethereum ethereumData callDataFileId attempts.flow.maxGasAllowance) [operator])
  exact congrArg (fun log => (Except.ok PUnit.unit, EthereumSession.mk current.flow log)) sent.symm

/-- With such a network the flow does what it does when nothing is said of failures. -/
theorem executeOver_follows :
    Method.Follows (session newFile) (executeOver (FlowNetwork.granting newFile) rlp client)
      (execute newFile rlp client) := by
  apply Method.Follows.this
  intro attempts
  change Method.Follows _ _ (match attempts.flow.ethereumData with | none => _ | some data => _)
  cases attempts.flow.ethereumData with
  | none => exact Method.Follows.throwing _
  | some data =>
      change Method.Follows _ _ (match attempts.flow.callDataFileId with | some callDataFileId => _ | none => _)
      cases attempts.flow.callDataFileId with
      | some callDataFileId =>
          apply Method.Follows.ite
          · exact Method.Follows.throwing _
          · exact submitOver_follows newFile client _ _
      | none =>
          apply Method.Follows.ite
          · exact submitOver_follows newFile client _ _
          · apply Method.Follows.bind
            · apply @Method.Follows.zoom _ _ _ _ _ _ _ (FlowNetwork.submissions newFile)
              · exact fun _ => rfl
              · exact fun _ _ => rfl
              · exact createFileOver_follows newFile client data.callData attempts.flow.maxChunks
            · intro fileId
              apply Method.Follows.bind
              · apply Method.Follows.update
                exact fun _ => rfl
              · exact fun _ => submitOver_follows newFile client _ _

end Granting

/-! ## The file -/

/-- A file for the call data comes about: there is an operator, and every request on the way is
granted. -/
def MakesFile (client : FlowClient) (callData : Bytes) (maxChunks : Option ℚ)
    (asked : List (FlowRequest FileId)) : Prop :=
  ∃ key fileId, client.operatorPublicKey = some key ∧
    let create : FlowRequest FileId :=
      .execute (.fileCreate [key] (utf8Encode (substringTo (hexEncode callData) 4096))) [key]
    let rest := utf8Encode (substringFrom (hexEncode callData) 4096)
    network.Grants asked [create] ∧ network.answer (asked ++ [create, .getReceipt]) = .ok fileId ∧
      (4096 < callData.length →
        FileFlow.Fits (maxChunks.getD 20) (requiredChunks callData) ∧
          network.Grants (asked ++ [create, .getReceipt])
            (FlowNetwork.appendRequests fileId [key] (chunksOf rest 4096)))

/-- What is done with the rest of the text once the file is there. -/
def appendRest (key : PublicKey) (callData : Bytes) (maxChunks : Option ℚ) (fileId : FileId) :
    Asking FileId FileId :=
  if 4096 < callData.length then do
    network.appendFile fileId
      { contents := some (utf8Encode (substringFrom (hexEncode callData) 4096))
        maxChunks := maxChunks.getD 20 } [key]
    pure fileId
  else pure fileId

theorem createFileOver_eq (key : PublicKey) (callData : Bytes) (maxChunks : Option ℚ) :
    createFileOver network ⟨some key⟩ callData maxChunks = (do
      let _ ← network.ask
        (.execute (.fileCreate [key] (utf8Encode (substringTo (hexEncode callData) 4096))) [key])
      let fileId ← network.ask .getReceipt
      appendRest network key callData maxChunks fileId) := by
  cases maxChunks <;> rfl

theorem appendRest_ok_iff (key : PublicKey) (callData : Bytes) (maxChunks : Option ℚ) (fileId : FileId)
    (asked : List (FlowRequest FileId)) :
    (∃ made after, (appendRest network key callData maxChunks fileId).run asked = (.ok made, after)) ↔
      (4096 < callData.length →
        FileFlow.Fits (maxChunks.getD 20) (requiredChunks callData) ∧
          network.Grants asked (FlowNetwork.appendRequests fileId [key]
            (chunksOf (utf8Encode (substringFrom (hexEncode callData) 4096)) 4096))) := by
  rw [appendRest]
  by_cases long : 4096 < callData.length
  · have appended (after : List (FlowRequest FileId)) :=
      @FlowNetwork.run_appendFile_eq_ok _ network fileId
        { contents := some (utf8Encode (substringFrom (hexEncode callData) 4096))
          maxChunks := maxChunks.getD 20 } _ rfl [key] asked after
    rw [length_rest] at appended
    rw [if_pos long, forall_prop_of_true long]
    constructor
    · rintro ⟨made, after, ran⟩
      obtain ⟨_, middle, first, -⟩ := Method.run_bind_eq_ok.mp ran
      obtain ⟨fits, granted, -⟩ := (appended middle).mp first
      exact ⟨fits, granted⟩
    · rintro ⟨fits, granted⟩
      exact ⟨fileId, _, Method.run_bind_ok ((appended _).mpr ⟨fits, granted, rfl⟩)⟩
  · rw [if_neg long]
    exact ⟨fun _ isLong => absurd isLong long, fun _ => ⟨fileId, asked, rfl⟩⟩

theorem createFileOver_ok_iff (client : FlowClient) (callData : Bytes) (maxChunks : Option ℚ)
    (asked : List (FlowRequest FileId)) :
    (∃ fileId after, (createFileOver network client callData maxChunks).run asked = (.ok fileId, after)) ↔
      MakesFile network client callData maxChunks asked := by
  obtain ⟨_ | key⟩ := client
  · constructor
    · rintro ⟨_, _, ran⟩
      cases ran
    · rintro ⟨_, _, missing, _⟩
      cases missing
  · rw [createFileOver_eq]
    simp only [FlowNetwork.run_ask_bind_eq_ok, MakesFile, Option.some.injEq, FlowNetwork.Grants, and_true,
      ← appendRest_ok_iff, List.append_assoc, List.cons_append, List.nil_append]
    constructor
    · rintro ⟨made, after, _, sent, fileId, received, ran⟩
      exact ⟨key, fileId, rfl, ⟨_, sent⟩, received, made, after, ran⟩
    · rintro ⟨_, fileId, rfl, ⟨_, sent⟩, received, made, after, ran⟩
      exact ⟨made, after, _, sent, fileId, received, ran⟩

/-- Where everything is granted, the number of chunks alone decides. -/
theorem makesFile_granting (newFile : Nat → FileId) (key : PublicKey) (callData : Bytes) (maxChunks : Option ℚ)
    (asked : List (FlowRequest FileId)) (fits : FileFlow.Fits (maxChunks.getD 20) (requiredChunks callData)) :
    MakesFile (FlowNetwork.granting newFile) ⟨some key⟩ callData maxChunks asked :=
  ⟨key, _, rfl, FlowNetwork.granting_grants newFile _ _, rfl,
    fun _ => ⟨fits, FlowNetwork.granting_grants newFile _ _⟩⟩

/-! ## What one run asks -/

def OnFiles : FlowRequest FileId → Prop
  | .execute (.ethereum ..) _ => False
  | _ => True

theorem createFileOver_extends (client : FlowClient) (callData : Bytes) (maxChunks : Option ℚ)
    (start : List (FlowRequest FileId)) :
    Method.Keeps (FlowNetwork.Extends OnFiles start) (createFileOver network client callData maxChunks) := by
  rw [createFileOver]
  refine Method.Keeps.bind (Method.Keeps.ofExcept _) fun operator => ?_
  refine Method.Keeps.bind (FlowNetwork.ask_extends network trivial) fun _ => ?_
  refine Method.Keeps.bind (FlowNetwork.ask_extends network trivial) fun fileId => ?_
  refine Method.Keeps.ite ?_ ?_
  · refine Method.Keeps.bind (FlowNetwork.appendFile_extends network fileId _ _ (fun _ => trivial) trivial) fun _ => ?_
    exact Method.Keeps.pure _
  · exact Method.Keeps.pure _

/-- An Ethereum transaction is complete in the request, or all of it but the call data, which is
in a file that was made of it. -/
def Carries (client : FlowClient) (flow : EthereumFlow FileId) (data : EthereumTransactionData)
    (asked : List (FlowRequest FileId)) : FlowRequest FileId → Prop
  | .execute (.ethereum ethereumData callDataFileId _) _ =>
      ethereumData = data.toBytes rlp ∧ callDataFileId = flow.callDataFileId ∨
        ∃ fileId after, (createFileOver network client data.callData flow.maxChunks).run asked = (.ok fileId, after) ∧
          ethereumData = (data.setCallData []).toBytes rlp ∧ callDataFileId = some fileId
  | _ => True

theorem submitOver_flow (client : FlowClient) (ethereumData : Bytes) (callDataFileId : Option FileId)
    (flow : EthereumFlow FileId) :
    Method.Keeps (fun attempts => attempts.flow = flow)
      (submitOver network client ethereumData callDataFileId) := by
  rw [submitOver]
  refine Method.Keeps.bind Method.Keeps.this fun attempts => ?_
  refine Method.Keeps.bind (Method.Keeps.ofExcept _) fun operator => ?_
  exact Method.Keeps.bind (fun _ same => same) fun _ => Method.Keeps.pure _

theorem submitOver_extends {P : FlowRequest FileId → Prop} {start : List (FlowRequest FileId)}
    (client : FlowClient) (ethereumData : Bytes) (callDataFileId : Option FileId)
    (submits : ∀ gas signedBy, P (.execute (.ethereum ethereumData callDataFileId gas) signedBy)) :
    Method.Keeps (fun attempts => FlowNetwork.Extends P start attempts.asked)
      (submitOver network client ethereumData callDataFileId) := by
  rw [submitOver]
  refine Method.Keeps.bind Method.Keeps.this fun attempts => ?_
  refine Method.Keeps.bind (Method.Keeps.ofExcept _) fun operator => ?_
  refine Method.Keeps.bind ?_ fun _ => ?_
  · exact fun current before => before.snoc (submits _ _)
  · exact Method.Keeps.pure _

section Run

variable {client : FlowClient} {data : EthereumTransactionData} {maxGasAllowance : Option Int}
  {maxChunks : Option ℚ} {asked : List (FlowRequest FileId)}

theorem run_executeOver_supplied (callDataFileId : FileId) :
    (executeOver network rlp client).run
        ⟨{ ethereumData := some data, callDataFileId := some callDataFileId, maxGasAllowance, maxChunks }, asked⟩ =
      (if data.callData.length = 0 then
        Method.throwing (.error
          "call data file ID provided, but ethereum data already contains call data")
      else submitOver network client (data.toBytes rlp) (some callDataFileId) : Attempt FileId PUnit).run
        ⟨{ ethereumData := some data, callDataFileId := some callDataFileId, maxGasAllowance, maxChunks }, asked⟩ :=
  rfl

theorem run_executeOver_inline (inline : (data.toBytes rlp).length ≤ 5120) :
    (executeOver network rlp client).run
        ⟨{ ethereumData := some data, callDataFileId := none, maxGasAllowance, maxChunks }, asked⟩ =
      (submitOver network client (data.toBytes rlp) none).run
        ⟨{ ethereumData := some data, callDataFileId := none, maxGasAllowance, maxChunks }, asked⟩ := by
  simp only [executeOver, Method.run_this_bind, if_pos inline]

variable (large : ¬ (data.toBytes rlp).length ≤ 5120)

include large

theorem run_executeOver_made {fileId : FileId} {after : List (FlowRequest FileId)}
    (made : (createFileOver network client data.callData maxChunks).run asked = (.ok fileId, after)) :
    (executeOver network rlp client).run
        ⟨{ ethereumData := some data, callDataFileId := none, maxGasAllowance, maxChunks }, asked⟩ =
      (submitOver network client ((data.setCallData []).toBytes rlp) (some fileId)).run
        ⟨{ ethereumData := some (data.setCallData []), callDataFileId := none, maxGasAllowance, maxChunks },
          after⟩ := by
  have onFile : (asking (createFileOver network client data.callData maxChunks)).run
      ⟨{ ethereumData := some data, callDataFileId := none, maxGasAllowance, maxChunks }, asked⟩ =
        (.ok fileId,
          ⟨{ ethereumData := some data, callDataFileId := none, maxGasAllowance, maxChunks }, after⟩) := by
    rw [asking, Method.run_zoom, made]
  simp only [executeOver, Method.run_this_bind, if_neg large]
  rw [Method.run_bind_ok onFile, Method.run_update_bind]

theorem run_executeOver_failed {e : JsError} {after : List (FlowRequest FileId)}
    (failed : (createFileOver network client data.callData maxChunks).run asked = (.error e, after)) :
    (executeOver network rlp client).run
        ⟨{ ethereumData := some data, callDataFileId := none, maxGasAllowance, maxChunks }, asked⟩ =
      (.error e, ⟨{ ethereumData := some data, callDataFileId := none, maxGasAllowance, maxChunks }, after⟩) := by
  have onFile : (asking (createFileOver network client data.callData maxChunks)).run
      ⟨{ ethereumData := some data, callDataFileId := none, maxGasAllowance, maxChunks }, asked⟩ =
        (.error e,
          ⟨{ ethereumData := some data, callDataFileId := none, maxGasAllowance, maxChunks }, after⟩) := by
    rw [asking, Method.run_zoom, failed]
  simp only [executeOver, Method.run_this_bind, if_neg large]
  rw [Method.run_bind_error onFile]

end Run

/-- Whatever becomes of a run, what it submits carries the data that the flow had. -/
theorem executeOver_extends (client : FlowClient) (data : EthereumTransactionData) (callDataFileId : Option FileId)
    (maxGasAllowance : Option Int) (maxChunks : Option ℚ) (asked : List (FlowRequest FileId)) :
    FlowNetwork.Extends
      (Carries network rlp client { ethereumData := some data, callDataFileId, maxGasAllowance, maxChunks } data asked)
      asked
      ((executeOver network rlp client).run
        ⟨{ ethereumData := some data, callDataFileId, maxGasAllowance, maxChunks }, asked⟩).2.asked := by
  cases callDataFileId with
  | some callDataFileId =>
      rw [run_executeOver_supplied]
      split
      · exact FlowNetwork.extends_self
      · exact submitOver_extends network client _ _ (fun _ _ => .inl ⟨rfl, rfl⟩) _ FlowNetwork.extends_self
  | none =>
      by_cases inline : (data.toBytes rlp).length ≤ 5120
      · rw [run_executeOver_inline network rlp inline]
        exact submitOver_extends network client _ _ (fun _ _ => .inl ⟨rfl, rfl⟩) _ FlowNetwork.extends_self
      · have files := createFileOver_extends network client data.callData maxChunks asked asked
          FlowNetwork.extends_self
        have carried (flow : EthereumFlow FileId) (request : FlowRequest FileId) (onFiles : OnFiles request) :
            Carries network rlp client flow data asked request := by
          match request with
          | .execute (.ethereum ..) _ => exact onFiles.elim
          | .execute (.fileCreate ..) _ => trivial
          | .execute (.fileAppend ..) _ => trivial
          | .execute (.contractCreate ..) _ => trivial
          | .execute (.fileDelete ..) _ => trivial
          | .getReceipt => trivial
        rcases ran : (createFileOver network client data.callData maxChunks).run asked with ⟨e | fileId, after⟩
        · rw [run_executeOver_failed network rlp inline ran]
          rw [ran] at files
          exact files.imp (carried _)
        · rw [run_executeOver_made network rlp inline ran]
          rw [ran] at files
          exact submitOver_extends network client _ _ (fun _ _ => .inr ⟨fileId, after, ran, rfl, rfl⟩) _
            (files.imp (carried _))

/-! ## Executing again -/

/-- The flow after it was executed, whatever came of it. -/
def executed (client : FlowClient) (before : EthereumAttempts FileId) : EthereumAttempts FileId :=
  ((executeOver network rlp client).run before).2

/-- Executing leaves the data as it is, and whoever executes the flow again submits what carries
the data. -/
structure Repeats (client : FlowClient) (before : EthereumAttempts FileId) (data : EthereumTransactionData) :
    Prop where
  unchanged : (executed network rlp client before).flow.ethereumData = some data
  again : ∀ other, FlowNetwork.Extends
    (Carries network rlp other before.flow data (executed network rlp client before).asked)
    (executed network rlp client before).asked
    (executed network rlp other (executed network rlp client before)).asked

theorem setCallData_eq_self_iff (data : EthereumTransactionData) (callData : Bytes) :
    data.setCallData callData = data ↔ data.callData = callData := by
  cases data <;> simp [EthereumTransactionData.setCallData, EthereumTransactionData.callData, eq_comm]

section Again

variable (client : FlowClient) (data : EthereumTransactionData) (callDataFileId : Option FileId)
  (maxGasAllowance : Option Int) (maxChunks : Option ℚ) (asked : List (FlowRequest FileId))

/-- A flow without a file, too large for one transaction, loses its call data to the file. -/
theorem executed_flow_of_made (large : ¬ (data.toBytes rlp).length ≤ 5120)
    (made : MakesFile network client data.callData maxChunks asked) :
    (executed network rlp client
        ⟨{ ethereumData := some data, callDataFileId := none, maxGasAllowance, maxChunks }, asked⟩).flow =
      { ethereumData := some (data.setCallData []), callDataFileId := none, maxGasAllowance, maxChunks } := by
  obtain ⟨fileId, after, ran⟩ := (createFileOver_ok_iff network client data.callData maxChunks asked).mpr made
  rw [executed, run_executeOver_made network rlp large ran]
  exact submitOver_flow network client _ _ _ _ rfl

/-- In every other case nothing of the flow changes. -/
theorem executed_flow_of_kept (kept : callDataFileId ≠ none ∨ (data.toBytes rlp).length ≤ 5120 ∨
      ¬ MakesFile network client data.callData maxChunks asked) :
    (executed network rlp client
        ⟨{ ethereumData := some data, callDataFileId, maxGasAllowance, maxChunks }, asked⟩).flow =
      { ethereumData := some data, callDataFileId, maxGasAllowance, maxChunks } := by
  cases callDataFileId with
  | some callDataFileId =>
      rw [executed, run_executeOver_supplied]
      split
      · rfl
      · exact submitOver_flow network client _ _ _ _ rfl
  | none =>
      by_cases inline : (data.toBytes rlp).length ≤ 5120
      · rw [executed, run_executeOver_inline network rlp inline]
        exact submitOver_flow network client _ _ _ _ rfl
      · have unmade : ¬ MakesFile network client data.callData maxChunks asked := by
          rcases kept with named | short | unmade
          · exact absurd rfl named
          · exact absurd short inline
          · exact unmade
        rcases ran : (createFileOver network client data.callData maxChunks).run asked with ⟨e | fileId, after⟩
        · rw [executed, run_executeOver_failed network rlp inline ran]
        · exact absurd ((createFileOver_ok_iff network client data.callData maxChunks asked).mp
            ⟨fileId, after, ran⟩) unmade

theorem repeats_of_same_flow
    (same : (executed network rlp client
        ⟨{ ethereumData := some data, callDataFileId, maxGasAllowance, maxChunks }, asked⟩).flow =
      { ethereumData := some data, callDataFileId, maxGasAllowance, maxChunks }) :
    Repeats network rlp client
      ⟨{ ethereumData := some data, callDataFileId, maxGasAllowance, maxChunks }, asked⟩ data := by
  constructor
  · rw [same]
  · intro other
    generalize executed network rlp client _ = after at same ⊢
    obtain ⟨flow, asked⟩ := after
    rw [show flow = _ from same]
    exact executeOver_extends network rlp other data callDataFileId maxGasAllowance maxChunks asked

/-- A flow can be executed again exactly when it names a file, or its data is short enough for
one transaction, or there is no call data, or no file comes about. -/
theorem repeats_iff :
    Repeats network rlp client
        ⟨{ ethereumData := some data, callDataFileId, maxGasAllowance, maxChunks }, asked⟩ data ↔
      callDataFileId ≠ none ∨ (data.toBytes rlp).length ≤ 5120 ∨ data.callData = [] ∨
        ¬ MakesFile network client data.callData maxChunks asked := by
  by_cases kept : callDataFileId ≠ none ∨ (data.toBytes rlp).length ≤ 5120 ∨
      ¬ MakesFile network client data.callData maxChunks asked
  · have same := executed_flow_of_kept network rlp client data callDataFileId maxGasAllowance maxChunks asked kept
    exact iff_of_true (repeats_of_same_flow network rlp client data _ _ _ _ same) (by tauto)
  · simp only [not_or, not_not] at kept
    obtain ⟨rfl, large, made⟩ := kept
    have emptied := executed_flow_of_made network rlp client data maxGasAllowance maxChunks asked large made
    constructor
    · intro repeats
      have unchanged := repeats.unchanged
      rw [emptied, Option.some.injEq, setCallData_eq_self_iff] at unchanged
      exact .inr (.inr (.inl unchanged))
    · rintro (named | short | empty | unmade)
      · exact absurd rfl named
      · exact absurd short large
      · apply repeats_of_same_flow
        rw [emptied, (setCallData_eq_self_iff data []).mpr empty]
      · exact absurd made unmade

end Again

/-- A flow with 6000 bytes of call data has none of them the second time. -/
theorem second_time_without_call_data :
    ¬ Repeats (FlowNetwork.granting fun n => n) recursiveLengthPrefix ⟨some Transaction.sampleKey⟩
      ⟨{ ethereumData := some (sampleData 6000 0) }, []⟩ (sampleData 6000 0) := by
  intro repeats
  have length : (sampleData 6000 0).callData.length = 6000 := List.length_replicate
  have large : ¬ ((sampleData 6000 0).toBytes recursiveLengthPrefix).length ≤ 5120 := by
    rw [length_toBytes_sampleData]
    decide +kernel
  have made : MakesFile (FlowNetwork.granting fun n => n) ⟨some Transaction.sampleKey⟩ (sampleData 6000 0).callData
      none [] := by
    apply makesFile_granting
    right
    rw [requiredChunks, length]
    decide
  have emptied := executed_flow_of_made _ recursiveLengthPrefix _ _ none none [] large made
  have unchanged := repeats.unchanged
  rw [emptied, Option.some.injEq, setCallData_eq_self_iff] at unchanged
  rw [unchanged] at length
  cases length

end EthereumFlow

end HederaSdk
