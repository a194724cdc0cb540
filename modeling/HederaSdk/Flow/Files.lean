import HederaSdk.Transaction.Splitting

/-!
# Files of a flow

A flow submits several transactions one after the other and goes on when the receipt of the
last one is there. `FileFlow` runs it against a network that accepts everything; the file
contents at any moment are a function of what was submitted before.
-/

namespace HederaSdk

open Library

/-- The bodies of the transactions that flows submit. -/
inductive FlowBody (FileId : Type) where
  | fileCreate (keys : List PublicKey) (contents : Bytes)
  | fileAppend (fileId : FileId) (contents : Bytes)
  | contractCreate (bytecodeFileId : FileId)
  | fileDelete (fileId : FileId)
  | ethereum (ethereumData : Bytes) (callDataFileId : Option FileId) (maxGasAllowance : Option Int)

/-- A transaction that was accepted, and the file id of its receipt. -/
structure Submission (FileId : Type) where
  body : FlowBody FileId
  signedBy : List PublicKey
  fileId : Option FileId

/-- What a flow reads of a client. -/
structure FlowClient where
  operatorPublicKey : Option PublicKey

/-- A transaction without an id is frozen for the operator of the client. -/
def FlowClient.freezeWith (client : FlowClient) : Except JsError PublicKey :=
  match client.operatorPublicKey with
  | some key => .ok key
  | none => .error (.error "`transactionId` must be set or `client` must be provided with `freezeWith`")

abbrev FileFlow (FileId : Type) := Method JsError (List (Submission FileId))

namespace FileFlow

variable {FileId : Type}

def submit (body : FlowBody FileId) (signedBy : List PublicKey) : FileFlow FileId PUnit :=
  Method.update fun log => log ++ [⟨body, signedBy, none⟩]

/-- The network gives the file created after so many submissions an id. -/
def createFile (newFile : Nat → FileId) (keys : List PublicKey) (contents : Bytes)
    (signedBy : List PublicKey) : FileFlow FileId FileId := fun log =>
  (.ok (newFile log.length), log ++ [⟨.fileCreate keys contents, signedBy, some (newFile log.length)⟩])

/-- What executing a `FileAppendTransaction` comes to: a transaction for each chunk. -/
def appendFile (fileId : FileId) (append : FileAppend) (signedBy : List PublicKey) :
    FileFlow FileId PUnit := do
  Method.ofExcept (Transaction.Session.checkExecutable { data := .fileAppend append })
  Method.forEach (fun chunk => submit (.fileAppend fileId chunk) signedBy)
    (chunksOf (append.contents.getD []) append.chunkSize)

def appendSubmission (fileId : FileId) (signedBy : List PublicKey) (chunk : Bytes) : Submission FileId where
  body := .fileAppend fileId chunk
  signedBy := signedBy
  fileId := none

theorem run_forEach_submit (fileId : FileId) (signedBy : List PublicKey) (chunks : List Bytes)
    (log : List (Submission FileId)) :
    (Method.forEach (fun chunk => submit (.fileAppend fileId chunk) signedBy) chunks).run log =
      (.ok ⟨⟩, log ++ chunks.map (appendSubmission fileId signedBy)) := by
  induction chunks generalizing log with
  | nil => rw [List.map_nil, List.append_nil]; rfl
  | cons chunk rest inductionHypothesis =>
      rw [Method.forEach_cons, submit, Method.run_update_bind, inductionHypothesis, List.append_assoc]
      rfl

/-- The chunks are within the maximum; 0 is no maximum. -/
def Fits (maxChunks : ℚ) (chunks : Nat) : Prop := maxChunks = 0 ∨ (chunks : ℚ) ≤ maxChunks

instance (maxChunks : ℚ) (chunks : Nat) : Decidable (Fits maxChunks chunks) :=
  inferInstanceAs (Decidable (_ ∨ _))

theorem run_appendFile_of_fits {fileId : FileId} {append : FileAppend} {contents : Bytes}
    (set : append.contents = some contents)
    (fits : Fits append.maxChunks (requiredChunks contents.length append.chunkSize))
    (signedBy : List PublicKey) (log : List (Submission FileId)) :
    (appendFile fileId append signedBy).run log =
      (.ok ⟨⟩, log ++ (chunksOf contents append.chunkSize).map (appendSubmission fileId signedBy)) := by
  have executable : Transaction.Session.checkExecutable { data := .fileAppend append } = .ok () := by
    simp only [Transaction.Session.checkExecutable, set]
    apply if_neg
    rintro ⟨limited, few⟩
    rcases fits with unlimited | fits
    · exact limited unlimited
    · exact absurd few (not_lt_of_ge fits)
  rw [appendFile, executable, set]
  exact run_forEach_submit fileId signedBy _ log

theorem run_appendFile_of_not_fits {fileId : FileId} {append : FileAppend} {contents : Bytes}
    (set : append.contents = some contents)
    (exceeds : ¬ Fits append.maxChunks (requiredChunks contents.length append.chunkSize))
    (signedBy : List PublicKey) (log : List (Submission FileId)) :
    ∃ message, (appendFile fileId append signedBy).run log = (.error (.error message), log) := by
  have refused : append.maxChunks ≠ 0 ∧
      append.maxChunks < requiredChunks contents.length append.chunkSize := by
    rw [Fits, not_or, not_le] at exceeds
    exact exceeds
  refine ⟨s!"cannot execute `FileAppendTransaction` with more than {append.maxChunks} chunks", ?_⟩
  rw [appendFile]
  simp only [Transaction.Session.checkExecutable, set]
  rw [if_pos refused]
  rfl

end FileFlow

/-! ## Contents -/

namespace Submission

variable {FileId : Type} [DecidableEq FileId]

/-- What a submission does to a file. -/
def applyTo (fileId : FileId) (file : Option Bytes) (submission : Submission FileId) : Option Bytes :=
  match submission.body with
  | .fileCreate _ contents => if submission.fileId = some fileId then some contents else file
  | .fileAppend appended contents =>
      if appended = fileId then file.map fun written => written ++ contents else file
  | .fileDelete deleted => if deleted = fileId then none else file
  | .contractCreate _ => file
  | .ethereum .. => file

/-- The contents of a file, if it exists. -/
def fileContents (fileId : FileId) (log : List (Submission FileId)) : Option Bytes :=
  log.foldl (applyTo fileId) none

theorem fileContents_append (fileId : FileId) (first second : List (Submission FileId)) :
    fileContents fileId (first ++ second) = second.foldl (applyTo fileId) (fileContents fileId first) :=
  List.foldl_append

theorem fileContents_create (fileId : FileId) (log : List (Submission FileId)) (keys : List PublicKey)
    (contents : Bytes) (signedBy : List PublicKey) :
    fileContents fileId (log ++ [⟨.fileCreate keys contents, signedBy, some fileId⟩]) = some contents := by
  rw [fileContents_append]
  exact if_pos rfl

/-- Appended chunks are joined to what was there. -/
theorem foldl_applyTo_appends (fileId : FileId) (signedBy : List PublicKey) (chunks : List Bytes)
    (written : Bytes) :
    (chunks.map (FileFlow.appendSubmission fileId signedBy)).foldl (applyTo fileId) (some written) =
      some (written ++ chunks.flatten) := by
  induction chunks generalizing written with
  | nil => simp
  | cons chunk rest inductionHypothesis =>
      have one : applyTo fileId (some written) (FileFlow.appendSubmission fileId signedBy chunk) =
          some (written ++ chunk) := if_pos rfl
      rw [List.map_cons, List.foldl_cons, one, inductionHypothesis, List.flatten_cons, List.append_assoc]

end Submission

end HederaSdk
