import HederaSdk.Flow.Files

/-!
# Creating a contract from a file

The bytecode goes to a file, in a first part and in chunks, and the contract is created from
the file. The flow is written down twice: for a client and for a signer. Only the second
hands its maximum of chunks on.
-/

namespace HederaSdk

open Library

structure ContractCreateFlow where
  bytecode : Option Bytes := none
  publicKeys : List PublicKey := []
  maxChunks : Option ℚ := none

/-- What the flow reads of a signer: `getAccountKey`, if it has one. -/
structure FlowSigner where
  accountKey : Option PublicKey

namespace ContractCreateFlow

/-- `signWith`: a key that has signed does not sign again. -/
def signWith (signedBy : List PublicKey) (key : PublicKey) : List PublicKey :=
  if key ∈ signedBy then signedBy else signedBy ++ [key]

def addSignersToTransaction (signedBy : List PublicKey) (publicKeys : List PublicKey) : List PublicKey :=
  publicKeys.foldl signWith signedBy

variable {FileId : Type} (newFile : Nat → FileId)

/-- Executing signs with the operator last. -/
def execute (flow : ContractCreateFlow) (client : FlowClient) : FileFlow FileId PUnit :=
  match flow.bytecode with
  | none => Method.throwing (.error "cannot create contract with no bytecode")
  | some bytecode => do
      let operator ← Method.ofExcept client.freezeWith
      let signedBy := signWith (addSignersToTransaction [] flow.publicKeys) operator
      let fileId ← FileFlow.createFile newFile client.operatorPublicKey.toList
        (bytecode.take (min bytecode.length 2048)) signedBy
      if 2048 < bytecode.length then
        FileFlow.appendFile fileId { contents := some (bytecode.drop 2048) } signedBy
      else pure ⟨⟩
      FileFlow.submit (.contractCreate fileId) signedBy
      if client.operatorPublicKey.isSome then FileFlow.submit (.fileDelete fileId) signedBy else pure ⟨⟩

/-- The signer signs first. -/
def executeWithSigner (flow : ContractCreateFlow) (signer : FlowSigner) : FileFlow FileId PUnit :=
  match flow.bytecode, signer.accountKey with
  | none, _ => Method.throwing (.error "cannot create contract with no bytecode")
  | some _, none =>
      Method.throwing
        (.error "`Signer.getAccountKey()` is not implemented, but is required for `ContractCreateFlow`")
  | some bytecode, some key => do
      let signedBy := addSignersToTransaction (signWith [] key) flow.publicKeys
      let fileId ← FileFlow.createFile newFile [key] (bytecode.take (min bytecode.length 2048)) signedBy
      if 2048 < bytecode.length then
        let append : FileAppend := { contents := some (bytecode.drop 2048) }
        FileFlow.appendFile fileId
          (match flow.maxChunks with
            | some maxChunks => { append with maxChunks }
            | none => append) signedBy
      else pure ⟨⟩
      FileFlow.submit (.contractCreate fileId) signedBy
      FileFlow.submit (.fileDelete fileId) signedBy

/-! ## What is submitted -/

/-- The chunks behind the first part of the file. -/
def requiredChunks (bytecode : Bytes) : Nat := HederaSdk.requiredChunks (bytecode.length - 2048) 4096

/-- The whole sequence. -/
def sequence (bytecode : Bytes) (key : PublicKey) (signedBy : List PublicKey) : List (Submission FileId) :=
  [⟨.fileCreate [key] (bytecode.take 2048), signedBy, some (newFile 0)⟩] ++
      (chunksOf (bytecode.drop 2048) 4096).map (FileFlow.appendSubmission (newFile 0) signedBy) ++
    [⟨.contractCreate (newFile 0), signedBy, none⟩, ⟨.fileDelete (newFile 0), signedBy, none⟩]

/-- The bytecode is all in the first part, or its other chunks are within the maximum. -/
def Accepts (maxChunks : ℚ) (bytecode : Bytes) : Prop :=
  bytecode.length ≤ 2048 ∨ FileFlow.Fits maxChunks (requiredChunks bytecode)

instance (maxChunks : ℚ) (bytecode : Bytes) : Decidable (Accepts maxChunks bytecode) :=
  inferInstanceAs (Decidable (_ ∨ _))

def appendRest (maxChunks : ℚ) (bytecode : Bytes) (signedBy : List PublicKey) (fileId : FileId) :
    FileFlow FileId PUnit :=
  if 2048 < bytecode.length then
    FileFlow.appendFile fileId { contents := some (bytecode.drop 2048), maxChunks } signedBy
  else pure ⟨⟩

/-- What the two ways share: all but the signatures and the maximum. -/
def upload (maxChunks : ℚ) (bytecode : Bytes) (key : PublicKey) (signedBy : List PublicKey) :
    FileFlow FileId PUnit := do
  let fileId ← FileFlow.createFile newFile [key] (bytecode.take (min bytecode.length 2048)) signedBy
  appendRest maxChunks bytecode signedBy fileId
  FileFlow.submit (.contractCreate fileId) signedBy
  FileFlow.submit (.fileDelete fileId) signedBy

variable {bytecode : Bytes} {publicKeys : List PublicKey} {maxChunks : Option ℚ}

theorem execute_eq (key : PublicKey) :
    execute newFile { bytecode := some bytecode, publicKeys, maxChunks } ⟨some key⟩ =
      upload newFile 20 bytecode key (signWith (addSignersToTransaction [] publicKeys) key) := by
  by_cases long : 2048 < bytecode.length
  · simp only [execute, upload, appendRest, if_pos long]
    rfl
  · simp only [execute, upload, appendRest, if_neg long]
    rfl

theorem executeWithSigner_eq (key : PublicKey) :
    executeWithSigner newFile { bytecode := some bytecode, publicKeys, maxChunks } ⟨some key⟩ =
      upload newFile (maxChunks.getD 20) bytecode key
        (addSignersToTransaction (signWith [] key) publicKeys) := by
  by_cases long : 2048 < bytecode.length
  · simp only [executeWithSigner, upload, appendRest, if_pos long]
    cases maxChunks <;> rfl
  · simp only [executeWithSigner, upload, appendRest, if_neg long]
    rfl

theorem take_firstPart (bytecode : Bytes) : bytecode.take (min bytecode.length 2048) = bytecode.take 2048 := by
  rw [Nat.min_comm, ← List.take_take, List.take_length]

theorem requiredChunks_eq (bytecode : Bytes) :
    HederaSdk.requiredChunks (bytecode.drop 2048).length 4096 = requiredChunks bytecode := by
  rw [List.length_drop, requiredChunks]

theorem createFile_first (keys : List PublicKey) (contents : Bytes) (signedBy : List PublicKey) :
    (FileFlow.createFile newFile keys contents signedBy).run [] =
      (.ok (newFile 0), [⟨.fileCreate keys contents, signedBy, some (newFile 0)⟩]) := rfl

theorem run_upload_of_accepts {maxChunks : ℚ} (accepts : Accepts maxChunks bytecode) (key : PublicKey)
    (signedBy : List PublicKey) :
    (upload newFile maxChunks bytecode key signedBy).run [] = (.ok ⟨⟩, sequence newFile bytecode key signedBy) := by
  have appended (log : List (Submission FileId)) :
      (appendRest maxChunks bytecode signedBy (newFile 0)).run log =
        (.ok ⟨⟩, log ++ (chunksOf (bytecode.drop 2048) 4096).map
          (FileFlow.appendSubmission (newFile 0) signedBy)) := by
    by_cases long : 2048 < bytecode.length
    · rw [appendRest, if_pos long]
      apply FileFlow.run_appendFile_of_fits rfl
      rw [requiredChunks_eq]
      exact accepts.resolve_left (Nat.not_le_of_lt long)
    · rw [appendRest, if_neg long, List.drop_of_length_le (Nat.le_of_not_lt long)]
      simp [chunksOf]
  rw [upload, take_firstPart, Method.run_bind_ok (createFile_first newFile _ _ _), Method.run_bind_ok (appended _),
    FileFlow.submit, Method.run_update_bind, FileFlow.submit, Method.run_update, List.append_assoc]
  rfl

theorem run_upload_of_not_accepts {maxChunks : ℚ} (refuses : ¬ Accepts maxChunks bytecode) (key : PublicKey)
    (signedBy : List PublicKey) :
    ∃ message, (upload newFile maxChunks bytecode key signedBy).run [] =
      (.error (.error message), [⟨.fileCreate [key] (bytecode.take 2048), signedBy, some (newFile 0)⟩]) := by
  rw [Accepts, not_or, Nat.not_le] at refuses
  obtain ⟨long, exceeds⟩ := refuses
  rw [← requiredChunks_eq] at exceeds
  have set : FileAppend.contents { contents := some (bytecode.drop 2048), maxChunks } =
      some (bytecode.drop 2048) := rfl
  obtain ⟨message, failed⟩ := FileFlow.run_appendFile_of_not_fits set exceeds signedBy
    [⟨.fileCreate [key] (bytecode.take 2048), signedBy, some (newFile 0)⟩]
  refine ⟨message, ?_⟩
  rw [upload, take_firstPart, Method.run_bind_ok (createFile_first newFile _ _ _), appendRest, if_pos long]
  exact Method.run_bind_error failed

/-- Only the file is created when the chunks are refused. -/
theorem stops_iff (key : PublicKey) (signedBy : List PublicKey) {maxChunks : ℚ} :
    ((upload newFile maxChunks bytecode key signedBy).run []).2.length = 1 ↔ ¬ Accepts maxChunks bytecode := by
  by_cases accepts : Accepts maxChunks bytecode
  · rw [run_upload_of_accepts newFile accepts]
    simp [sequence, accepts]
  · obtain ⟨message, failed⟩ := run_upload_of_not_accepts newFile accepts key signedBy
    rw [failed]
    simp [accepts]

/-! ## The two ways -/

/-- The same body and receipt, with the same signatures in any order. -/
structure SameTransaction (first second : Submission FileId) : Prop where
  body : first.body = second.body
  fileId : first.fileId = second.fileId
  signedBy : first.signedBy.Perm second.signedBy

/-- A contract is created from a file with the whole bytecode. -/
def CreatesFrom [DecidableEq FileId] (bytecode : Bytes) (log : List (Submission FileId)) : Prop :=
  ∀ before fileId signedBy receipt rest,
    log = before ++ ⟨.contractCreate fileId, signedBy, receipt⟩ :: rest →
      Submission.fileContents fileId before = some bytecode

/-- Both ways submit the same transactions, create the contract from the whole bytecode and
refuse a bytecode that is too large for the maximum. -/
structure Equivalent [DecidableEq FileId] (key : PublicKey) (flow : ContractCreateFlow) (bytecode : Bytes) :
    Prop where
  same : List.Forall₂ SameTransaction ((execute newFile flow ⟨some key⟩).run []).2
    ((executeWithSigner newFile flow ⟨some key⟩).run []).2
  whole : CreatesFrom bytecode ((execute newFile flow ⟨some key⟩).run []).2
  wholeWithSigner : CreatesFrom bytecode ((executeWithSigner newFile flow ⟨some key⟩).run []).2
  refused : ¬ Accepts (flow.maxChunks.getD 20) bytecode →
    (∃ e, ((execute newFile flow ⟨some key⟩).run []).1 = .error e) ∧
      ∃ e, ((executeWithSigner newFile flow ⟨some key⟩).run []).1 = .error e

theorem mem_addSignersToTransaction (signedBy publicKeys : List PublicKey) (key : PublicKey) :
    key ∈ addSignersToTransaction signedBy publicKeys ↔ key ∈ signedBy ∨ key ∈ publicKeys := by
  induction publicKeys generalizing signedBy with
  | nil => simp [addSignersToTransaction]
  | cons first rest inductionHypothesis =>
      change key ∈ addSignersToTransaction (signWith signedBy first) rest ↔ _
      rw [inductionHypothesis, signWith]
      split
      · grind
      · grind

theorem nodup_addSignersToTransaction {signedBy : List PublicKey} (distinct : signedBy.Nodup)
    (publicKeys : List PublicKey) : (addSignersToTransaction signedBy publicKeys).Nodup := by
  induction publicKeys generalizing signedBy with
  | nil => exact distinct
  | cons first rest inductionHypothesis =>
      apply inductionHypothesis
      rw [signWith]
      split
      · exact distinct
      · rename_i new
        rw [← List.concat_eq_append]
        exact distinct.concat new

/-- The order of the signer among the keys does not matter. -/
theorem perm_signers (publicKeys : List PublicKey) (key : PublicKey) :
    (signWith (addSignersToTransaction [] publicKeys) key).Perm
      (addSignersToTransaction (signWith [] key) publicKeys) := by
  have last : signWith (addSignersToTransaction [] publicKeys) key =
      addSignersToTransaction (addSignersToTransaction [] publicKeys) [key] := rfl
  have first : signWith [] key = addSignersToTransaction [] [key] := rfl
  have alone : ([] : List PublicKey).Nodup := List.nodup_nil
  rw [last, first, List.perm_ext_iff_of_nodup
    (nodup_addSignersToTransaction (nodup_addSignersToTransaction alone _) _)
    (nodup_addSignersToTransaction (nodup_addSignersToTransaction alone [key]) _)]
  intro other
  simp [mem_addSignersToTransaction, or_comm]

theorem sameTransaction_sequence {signedBy signedBy' : List PublicKey} (same : signedBy.Perm signedBy')
    (key : PublicKey) :
    List.Forall₂ SameTransaction (sequence newFile bytecode key signedBy)
      (sequence newFile bytecode key signedBy') := by
  have chunks (chunks : List Bytes) :
      List.Forall₂ SameTransaction (chunks.map (FileFlow.appendSubmission (newFile 0) signedBy))
        (chunks.map (FileFlow.appendSubmission (newFile 0) signedBy')) := by
    induction chunks with
    | nil => exact .nil
    | cons chunk rest inductionHypothesis => exact .cons ⟨rfl, rfl, same⟩ inductionHypothesis
  apply List.rel_append
  · exact List.rel_append (.cons ⟨rfl, rfl, same⟩ .nil) (chunks _)
  · exact .cons ⟨rfl, rfl, same⟩ (.cons ⟨rfl, rfl, same⟩ .nil)

/-- The contract is created from the file with the first part and all chunks. -/
theorem createsFrom_sequence [DecidableEq FileId] (key : PublicKey) (signedBy : List PublicKey) :
    CreatesFrom bytecode (sequence newFile bytecode key signedBy) := by
  intro before fileId signedBy' receipt rest split
  rw [sequence, List.append_cons_inj_of_notMem] at split
  · obtain ⟨uploaded, created, -⟩ := split
    rw [Submission.mk.injEq, FlowBody.contractCreate.injEq] at created
    rw [← uploaded, ← created.1, Submission.fileContents_append]
    have start := Submission.fileContents_create (newFile 0) [] [key] (bytecode.take 2048) signedBy
    rw [List.nil_append] at start
    rw [start, Submission.foldl_applyTo_appends, flatten_chunksOf, List.take_append_drop]
  · rw [List.mem_append, List.mem_singleton, List.mem_map]
    rintro (first | ⟨chunk, -, appended⟩)
    · cases first
    · cases appended
  · rw [List.mem_singleton]
    intro deleted
    cases deleted

/-- A file alone creates no contract. -/
theorem createsFrom_create [DecidableEq FileId] (keys : List PublicKey) (contents : Bytes)
    (signedBy : List PublicKey) (receipt : Option FileId) :
    CreatesFrom bytecode [⟨.fileCreate keys contents, signedBy, receipt⟩] := by
  intro before fileId signedBy' receipt' rest split
  have member : ⟨.contractCreate fileId, signedBy', receipt'⟩ ∈
      [(⟨.fileCreate keys contents, signedBy, receipt⟩ : Submission FileId)] := by
    rw [split]
    exact List.mem_append_right _ List.mem_cons_self
  rw [List.mem_singleton] at member
  cases member

/-- The two ways are equivalent exactly when the bytecode is accepted with the maximum of the
flow and with the default of 20 chunks, or with neither. -/
theorem equivalent_iff [DecidableEq FileId] (key : PublicKey) :
    Equivalent newFile key { bytecode := some bytecode, publicKeys, maxChunks } bytecode ↔
      (Accepts 20 bytecode ↔ Accepts (maxChunks.getD 20) bytecode) := by
  constructor
  · intro equivalent
    have lengths := equivalent.same.length_eq
    rw [execute_eq, executeWithSigner_eq] at lengths
    rw [← not_iff_not, ← stops_iff newFile key, ← stops_iff newFile key, lengths]
  · intro agree
    by_cases accepts : Accepts 20 bytecode
    · have client := run_upload_of_accepts newFile accepts key
      have signer := run_upload_of_accepts newFile (agree.mp accepts) key
      constructor
      · rw [execute_eq, executeWithSigner_eq, client, signer]
        exact sameTransaction_sequence newFile (perm_signers publicKeys key) key
      · rw [execute_eq, client]
        exact createsFrom_sequence newFile key _
      · rw [executeWithSigner_eq, signer]
        exact createsFrom_sequence newFile key _
      · intro refuses
        exact absurd (agree.mp accepts) refuses
    · obtain ⟨message, client⟩ := run_upload_of_not_accepts newFile accepts key
        (signWith (addSignersToTransaction [] publicKeys) key)
      obtain ⟨message', signer⟩ := run_upload_of_not_accepts newFile (agree.not.mp accepts) key
        (addSignersToTransaction (signWith [] key) publicKeys)
      constructor
      · rw [execute_eq, executeWithSigner_eq, client, signer]
        exact .cons ⟨rfl, rfl, perm_signers publicKeys key⟩ .nil
      · rw [execute_eq, client]
        exact createsFrom_create _ _ _ _
      · rw [executeWithSigner_eq, signer]
        exact createsFrom_create _ _ _ _
      · intro refuses
        rw [execute_eq, executeWithSigner_eq, client, signer]
        exact ⟨⟨_, rfl⟩, _, rfl⟩

/-- A flow for at most one chunk with a bytecode that takes two. -/
theorem client_exceeds_maximum :
    ¬ Equivalent (fun n => n) Transaction.sampleKey
      { bytecode := some (List.replicate 6145 0), maxChunks := some 1 } (List.replicate 6145 0) := by
  intro equivalent
  have lengths := equivalent.same.length_eq
  exact absurd lengths (by decide +kernel)

end ContractCreateFlow

end HederaSdk
