import HederaSdk.Flow.EthereumFlow

/-!
# Flows that fail on the way

Any request of a flow may fail, when a transaction is executed or when its receipt is asked
for. What the network answers is a function of everything that it was asked; a run stops at
the first answer that is an error. With a network that grants everything a flow does what it
does in `FileFlow`.
-/

namespace HederaSdk

open Library

/-- A transaction, or a question for the receipt of one. -/
inductive FlowRequest (FileId : Type) where
  | execute (body : FlowBody FileId) (signedBy : List PublicKey)
  | getReceipt

/-- The answer to the last of the requests. Only of the receipt of a new file the file id is
read. -/
structure FlowNetwork (FileId : Type) where
  answer : List (FlowRequest FileId) → Except JsError FileId

abbrev Asking (FileId : Type) := Method JsError (List (FlowRequest FileId))

namespace FlowNetwork

variable {FileId : Type} (network : FlowNetwork FileId)

def ask (request : FlowRequest FileId) : Asking FileId FileId := fun asked =>
  (network.answer (asked ++ [request]), asked ++ [request])

def appendChunk (fileId : FileId) (signedBy : List PublicKey) (chunk : Bytes) : Asking FileId PUnit := do
  let _ ← network.ask (.execute (.fileAppend fileId chunk) signedBy)
  let _ ← network.ask .getReceipt
  pure ⟨⟩

/-- Every chunk waits for its receipt; that of the first one is asked for again at the end. -/
def appendFile (fileId : FileId) (append : FileAppend) (signedBy : List PublicKey) :
    Asking FileId PUnit := do
  Method.ofExcept (Transaction.Session.checkExecutable { data := .fileAppend append })
  Method.forEach (network.appendChunk fileId signedBy) (chunksOf (append.contents.getD []) append.chunkSize)
  let _ ← network.ask .getReceipt
  pure ⟨⟩

/-! ## Granted requests -/

/-- The network grants all of the requests when they follow what it was asked. -/
def Grants : List (FlowRequest FileId) → List (FlowRequest FileId) → Prop
  | _, [] => True
  | asked, request :: rest =>
      (∃ fileId, network.answer (asked ++ [request]) = .ok fileId) ∧ Grants (asked ++ [request]) rest

theorem run_ask (request : FlowRequest FileId) (asked : List (FlowRequest FileId)) :
    (network.ask request).run asked = (network.answer (asked ++ [request]), asked ++ [request]) := rfl

/-- What comes after a request is reached exactly when the request is granted. -/
theorem run_ask_bind_eq_ok {α : Type} {request : FlowRequest FileId} {f : FileId → Asking FileId α} {a : α}
    {asked after : List (FlowRequest FileId)} :
    (network.ask request >>= f).run asked = (.ok a, after) ↔
      ∃ fileId, network.answer (asked ++ [request]) = .ok fileId ∧
        (f fileId).run (asked ++ [request]) = (.ok a, after) := by
  rw [Method.run_bind_eq_ok]
  constructor
  · rintro ⟨fileId, middle, ran, rest⟩
    rw [run_ask, Prod.mk.injEq] at ran
    obtain ⟨granted, rfl⟩ := ran
    exact ⟨fileId, granted, rest⟩
  · rintro ⟨fileId, granted, rest⟩
    exact ⟨fileId, _, by rw [run_ask, granted], rest⟩

def chunkRequests (fileId : FileId) (signedBy : List PublicKey) (chunk : Bytes) : List (FlowRequest FileId) :=
  [.execute (.fileAppend fileId chunk) signedBy, .getReceipt]

theorem grants_append (first second asked : List (FlowRequest FileId)) :
    network.Grants asked (first ++ second) ↔
      network.Grants asked first ∧ network.Grants (asked ++ first) second := by
  induction first generalizing asked with
  | nil => simp [Grants]
  | cons request rest inductionHypothesis =>
      simp only [List.cons_append, Grants, inductionHypothesis, List.append_assoc, List.nil_append, and_assoc]

theorem run_appendChunk_eq_ok (fileId : FileId) (signedBy : List PublicKey) (chunk : Bytes)
    (asked after : List (FlowRequest FileId)) :
    (network.appendChunk fileId signedBy chunk).run asked = (.ok ⟨⟩, after) ↔
      network.Grants asked (chunkRequests fileId signedBy chunk) ∧
        after = asked ++ chunkRequests fileId signedBy chunk := by
  rw [appendChunk, run_ask_bind_eq_ok]
  simp only [run_ask_bind_eq_ok, Method.run_pure, Prod.mk.injEq, true_and, chunkRequests, Grants, and_true,
    List.append_assoc, List.cons_append, List.nil_append]
  constructor
  · rintro ⟨_, sent, _, received, rfl⟩
    exact ⟨⟨⟨_, sent⟩, _, received⟩, rfl⟩
  · rintro ⟨⟨⟨_, sent⟩, _, received⟩, rfl⟩
    exact ⟨_, sent, _, received, rfl⟩

theorem run_forEach_appendChunk_eq_ok (fileId : FileId) (signedBy : List PublicKey) (chunks : List Bytes)
    (asked after : List (FlowRequest FileId)) :
    (Method.forEach (network.appendChunk fileId signedBy) chunks).run asked = (.ok ⟨⟩, after) ↔
      network.Grants asked (chunks.flatMap (chunkRequests fileId signedBy)) ∧
        after = asked ++ chunks.flatMap (chunkRequests fileId signedBy) := by
  induction chunks generalizing asked with
  | nil => simp [Grants, eq_comm]
  | cons chunk rest inductionHypothesis =>
      rw [Method.forEach_cons, Method.run_bind_eq_ok, List.flatMap_cons, grants_append, ← List.append_assoc]
      constructor
      · rintro ⟨_, middle, one, more⟩
        obtain ⟨granted, rfl⟩ := (run_appendChunk_eq_ok network fileId signedBy chunk _ _).mp one
        obtain ⟨others, rfl⟩ := (inductionHypothesis _).mp more
        exact ⟨⟨granted, others⟩, rfl⟩
      · rintro ⟨⟨granted, others⟩, rfl⟩
        exact ⟨⟨⟩, _, (run_appendChunk_eq_ok network fileId signedBy chunk _ _).mpr ⟨granted, rfl⟩,
          (inductionHypothesis _).mpr ⟨others, rfl⟩⟩

/-- What is asked to append contents in so many chunks. -/
def appendRequests (fileId : FileId) (signedBy : List PublicKey) (chunks : List Bytes) :
    List (FlowRequest FileId) :=
  chunks.flatMap (chunkRequests fileId signedBy) ++ [.getReceipt]

/-- Contents are appended exactly when they fit and every request is granted. -/
theorem run_appendFile_eq_ok {fileId : FileId} {append : FileAppend} {contents : Bytes}
    (set : append.contents = some contents) (signedBy : List PublicKey)
    (asked after : List (FlowRequest FileId)) :
    (network.appendFile fileId append signedBy).run asked = (.ok ⟨⟩, after) ↔
      FileFlow.Fits append.maxChunks (requiredChunks contents.length append.chunkSize) ∧
        network.Grants asked (appendRequests fileId signedBy (chunksOf contents append.chunkSize)) ∧
        after = asked ++ appendRequests fileId signedBy (chunksOf contents append.chunkSize) := by
  have checked : Transaction.Session.checkExecutable { data := .fileAppend append } = .ok () ↔
      FileFlow.Fits append.maxChunks (requiredChunks contents.length append.chunkSize) := by
    simp only [Transaction.Session.checkExecutable, set, FileFlow.Fits]
    by_cases few : append.maxChunks ≠ 0 ∧
        append.maxChunks < requiredChunks contents.length append.chunkSize
    · rw [if_pos few]
      simp [few.1, few.2]
    · rw [if_neg few]
      rw [not_and_or, not_ne_iff, not_lt] at few
      exact iff_of_true rfl few
  rw [appendFile, set, ← checked]
  cases executable : Transaction.Session.checkExecutable { data := .fileAppend append } with
  | error e =>
      rw [Method.run_bind_error (Method.run_ofExcept_error e asked)]
      simp
  | ok =>
      rw [Method.run_bind_ok (Method.run_ofExcept_ok _ asked), Method.run_bind_eq_ok, appendRequests, grants_append,
        ← List.append_assoc]
      have chunks := run_forEach_appendChunk_eq_ok network fileId signedBy (chunksOf contents append.chunkSize)
      simp only [run_ask_bind_eq_ok, Method.run_pure, Prod.mk.injEq, true_and, Grants, and_true, Option.getD_some]
      constructor
      · rintro ⟨_, _, ran, _, received, rfl⟩
        obtain ⟨granted, rfl⟩ := (chunks asked _).mp ran
        exact ⟨⟨granted, _, received⟩, rfl⟩
      · rintro ⟨⟨granted, _, received⟩, rfl⟩
        exact ⟨⟨⟩, _, (chunks asked _).mpr ⟨granted, rfl⟩, _, received, rfl⟩

/-! ## What is asked -/

/-- What was asked since then has the property. -/
def Extends (P : FlowRequest FileId → Prop) (start asked : List (FlowRequest FileId)) : Prop :=
  ∃ new, asked = start ++ new ∧ ∀ request ∈ new, P request

section Extends

variable {P : FlowRequest FileId → Prop} {start : List (FlowRequest FileId)}

theorem extends_self : Extends P start start := ⟨[], (List.append_nil start).symm, by simp⟩

theorem Extends.snoc {asked : List (FlowRequest FileId)} {request : FlowRequest FileId}
    (before : Extends P start asked) (last : P request) : Extends P start (asked ++ [request]) := by
  obtain ⟨new, rfl, each⟩ := before
  refine ⟨new ++ [request], List.append_assoc start new [request], fun asked member => ?_⟩
  rcases List.mem_append.mp member with earlier | now
  · exact each asked earlier
  · rwa [List.mem_singleton.mp now]

theorem Extends.imp {Q : FlowRequest FileId → Prop} {asked : List (FlowRequest FileId)}
    (weaker : ∀ request, P request → Q request) (extended : Extends P start asked) : Extends Q start asked := by
  obtain ⟨new, rfl, each⟩ := extended
  exact ⟨new, rfl, fun request member => weaker request (each request member)⟩

theorem ask_extends {request : FlowRequest FileId} (holds : P request) :
    Method.Keeps (Extends P start) (network.ask request) := fun _ before => before.snoc holds

theorem appendFile_extends (fileId : FileId) (append : FileAppend) (signedBy : List PublicKey)
    (appends : ∀ chunk, P (.execute (.fileAppend fileId chunk) signedBy)) (receipt : P .getReceipt) :
    Method.Keeps (Extends P start) (network.appendFile fileId append signedBy) := by
  have asksReceipt := Method.Keeps.bind (@ask_extends _ network P start _ receipt)
    fun _ => Method.Keeps.pure PUnit.unit
  rw [appendFile]
  refine Method.Keeps.bind (Method.Keeps.ofExcept _) fun _ => ?_
  refine Method.Keeps.bind ?_ fun _ => ?_
  · refine Method.Keeps.forEach (fun chunk => ?_) _
    exact Method.Keeps.bind (ask_extends network (appends chunk)) fun _ => asksReceipt
  · exact asksReceipt

end Extends

/-! ## A network that grants everything -/

/-- What is submitted, without the questions for receipts. -/
def submitted (newFile : Nat → FileId) (log : List (Submission FileId)) :
    FlowRequest FileId → List (Submission FileId)
  | .execute (.fileCreate keys contents) signedBy =>
      log ++ [⟨.fileCreate keys contents, signedBy, some (newFile log.length)⟩]
  | .execute body signedBy => log ++ [⟨body, signedBy, none⟩]
  | .getReceipt => log

def submissions (newFile : Nat → FileId) (asked : List (FlowRequest FileId)) : List (Submission FileId) :=
  asked.foldl (submitted newFile) []

theorem submissions_append (newFile : Nat → FileId) (asked : List (FlowRequest FileId))
    (request : FlowRequest FileId) :
    submissions newFile (asked ++ [request]) = submitted newFile (submissions newFile asked) request := by
  rw [submissions, List.foldl_append]
  rfl

theorem submissions_getReceipt (newFile : Nat → FileId) (asked : List (FlowRequest FileId)) :
    submissions newFile (asked ++ [.getReceipt]) = submissions newFile asked :=
  submissions_append newFile asked .getReceipt

/-- The file id of the last submission. -/
def granting (newFile : Nat → FileId) : FlowNetwork FileId where
  answer asked := .ok (newFile ((submissions newFile asked).length - 1))

theorem granting_grants (newFile : Nat → FileId) (asked requests : List (FlowRequest FileId)) :
    (granting newFile).Grants asked requests := by
  induction requests generalizing asked with
  | nil => exact trivial
  | cons request rest inductionHypothesis => exact ⟨⟨_, rfl⟩, inductionHypothesis _⟩

theorem appendFile_follows (newFile : Nat → FileId) (fileId : FileId) (append : FileAppend)
    (signedBy : List PublicKey) :
    Method.Follows (submissions newFile) ((granting newFile).appendFile fileId append signedBy)
      (FileFlow.appendFile fileId append signedBy) := by
  have one (chunk : Bytes) : Method.Follows (submissions newFile)
      ((granting newFile).appendChunk fileId signedBy chunk)
      (FileFlow.submit (.fileAppend fileId chunk) signedBy) := by
    intro asked
    have sent := submissions_append newFile asked (.execute (.fileAppend fileId chunk) signedBy)
    exact congrArg (Prod.mk _) ((submissions_getReceipt newFile _).trans sent).symm
  have all := Method.Follows.forEach one (chunksOf (append.contents.getD []) append.chunkSize)
  intro asked
  have appended := Method.Follows.bind
    (@Method.Follows.ofExcept _ _ _ _ (submissions newFile)
      (Transaction.Session.checkExecutable { data := .fileAppend append }))
    (fun _ => all) asked
  rw [FileFlow.appendFile, appended, appendFile, ← Method.bind_assoc]
  generalize (Method.ofExcept (Transaction.Session.checkExecutable { data := .fileAppend append }) >>= fun _ =>
    Method.forEach ((granting newFile).appendChunk fileId signedBy)
      (chunksOf (append.contents.getD []) append.chunkSize)) = before
  rw [Method.run_bind]
  rcases before.run asked with ⟨_ | _, after⟩
  · rfl
  · exact congrArg (Prod.mk _) (submissions_getReceipt newFile after).symm

end FlowNetwork

end HederaSdk
