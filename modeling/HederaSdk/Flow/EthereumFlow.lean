import HederaSdk.Cryptography.Hex
import HederaSdk.Flow.Files
import HederaSdk.Js.Json
import HederaSdk.Library.BigEndian

/-!
# Submitting an Ethereum transaction

Data that is too long for one transaction is submitted without its call data, whose hex text
goes to a file. The file is as long as the text, twice the call data; whether there is more
to append is decided by the length of the call data itself.
-/

namespace HederaSdk

open Library

/-- `text.substring(0, n)` -/
def substringTo (text : String) (n : Nat) : String := .ofList (text.toList.take n)

/-- `text.substring(n)` -/
def substringFrom (text : String) (n : Nat) : String := .ofList (text.toList.drop n)

/-- What is encoded: bytes, or an access list. -/
inductive RlpItem where
  | data (data : Bytes)
  | list (items : List Bytes)

/-- The bytes that `rlp.encode` gives the hex text of. -/
structure Rlp where
  wire : List RlpItem → Bytes

def Rlp.encode (rlp : Rlp) (items : List RlpItem) : String := "0x" ++ hexEncode (rlp.wire items)

inductive EthereumTransactionData where
  | legacy (nonce gasPrice gasLimit toAddress value callData v r s : Bytes)
  | eip2930 (chainId nonce gasPrice gasLimit toAddress value callData : Bytes) (accessList : List Bytes)
      (recId r s : Bytes)
  | eip1559 (chainId nonce maxPriorityGas maxGas gasLimit toAddress value callData : Bytes)
      (accessList : List Bytes) (recId r s : Bytes)

namespace EthereumTransactionData

def callData : EthereumTransactionData → Bytes
  | legacy _ _ _ _ _ callData _ _ _ => callData
  | eip2930 _ _ _ _ _ _ callData _ _ _ _ => callData
  | eip1559 _ _ _ _ _ _ _ callData _ _ _ _ => callData

/-- `this.callData = callData` -/
def setCallData (callData : Bytes) : EthereumTransactionData → EthereumTransactionData
  | legacy nonce gasPrice gasLimit toAddress value _ v r s =>
      legacy nonce gasPrice gasLimit toAddress value callData v r s
  | eip2930 chainId nonce gasPrice gasLimit toAddress value _ accessList recId r s =>
      eip2930 chainId nonce gasPrice gasLimit toAddress value callData accessList recId r s
  | eip1559 chainId nonce maxPriorityGas maxGas gasLimit toAddress value _ accessList recId r s =>
      eip1559 chainId nonce maxPriorityGas maxGas gasLimit toAddress value callData accessList recId r s

def toBytes (rlp : Rlp) : EthereumTransactionData → Bytes
  | legacy nonce gasPrice gasLimit toAddress value callData v r s =>
      hexDecode (rlp.encode ([nonce, gasPrice, gasLimit, toAddress, value, callData, v, r, s].map .data))
  | eip2930 chainId nonce gasPrice gasLimit toAddress value callData accessList recId r s =>
      let encoded := rlp.encode
        ([chainId, nonce, gasPrice, gasLimit, toAddress, value, callData].map .data ++
          .list accessList :: [recId, r, s].map .data)
      hexDecode ("01" ++ substringFrom encoded 2)
  | eip1559 chainId nonce maxPriorityGas maxGas gasLimit toAddress value callData accessList recId r s =>
      let encoded := rlp.encode
        ([chainId, nonce, maxPriorityGas, maxGas, gasLimit, toAddress, value, callData].map .data ++
          .list accessList :: [recId, r, s].map .data)
      hexDecode ("02" ++ substringFrom encoded 2)

/-- The bytes behind the type of the transaction. -/
theorem hexDecode_typed (rlp : Rlp) (items : List RlpItem) (type : UInt8) :
    hexDecode (hexEncode [type] ++ substringFrom (rlp.encode items) 2) = type :: rlp.wire items := by
  have text : hexEncode [type] ++ substringFrom (rlp.encode items) 2 = hexEncode (type :: rlp.wire items) := by
    apply String.toList_inj.mp
    rw [String.toList_append, substringFrom, Rlp.encode, String.toList_append, String.toList_ofList,
      List.drop_append_of_le_length (by decide)]
    simp [hexEncode]
  rw [text, hexDecode_hexEncode]

end EthereumTransactionData

structure EthereumFlow (FileId : Type) where
  ethereumData : Option EthereumTransactionData := none
  callDataFileId : Option FileId := none
  /-- In tinybars. -/
  maxGasAllowance : Option Int := none
  maxChunks : Option ℚ := none

/-- What the constructor is given; it leaves `callData` aside. -/
structure EthereumFlowProps (FileId : Type) where
  ethereumData : Option EthereumTransactionData := none
  callData : Option FileId := none
  maxGasAllowance : Option Int := none

/-- The flow while it is executed, and what it has submitted. -/
structure EthereumSession (FileId : Type) where
  flow : EthereumFlow FileId
  log : List (Submission FileId) := []

namespace EthereumFlow

variable {FileId : Type}

def construct (props : EthereumFlowProps FileId) : EthereumFlow FileId where
  ethereumData := props.ethereumData
  maxGasAllowance := props.maxGasAllowance

abbrev Execution (FileId : Type) := Method JsError (EthereumSession FileId)

def onFiles {α : Type} (m : FileFlow FileId α) : Execution FileId α :=
  Method.zoom EthereumSession.log (fun log session => { session with log }) m

variable (newFile : Nat → FileId) (rlp : Rlp)

/-- `createFile`: the text is cut at 4096 digits, which are 2048 bytes. -/
def createFile (client : FlowClient) (callData : Bytes) (maxChunks : Option ℚ) : FileFlow FileId FileId := do
  let hexedCallData := hexEncode callData
  let operator ← Method.ofExcept client.freezeWith
  let fileId ← FileFlow.createFile newFile client.operatorPublicKey.toList
    (utf8Encode (substringTo hexedCallData 4096)) [operator]
  if 4096 < callData.length then do
    let append : FileAppend := { contents := some (utf8Encode (substringFrom hexedCallData 4096)) }
    FileFlow.appendFile fileId
      (match maxChunks with
        | some maxChunks => { append with maxChunks }
        | none => append) [operator]
    pure fileId
  else pure fileId

def submit (client : FlowClient) (ethereumData : Bytes) (callDataFileId : Option FileId) :
    Execution FileId PUnit := do
  let session ← Method.this
  let operator ← Method.ofExcept client.freezeWith
  onFiles (FileFlow.submit (.ethereum ethereumData callDataFileId session.flow.maxGasAllowance) [operator])

def execute (client : FlowClient) : Execution FileId PUnit := do
  let session ← Method.this
  match session.flow.ethereumData with
  | none => Method.throwing (.error "cannot submit ethereum transaction with no ethereum data")
  | some data =>
      match session.flow.callDataFileId with
      | some callDataFileId =>
          if data.callData.length = 0 then
            Method.throwing (.error
              "call data file ID provided, but ethereum data already contains call data")
          else submit client (data.toBytes rlp) (some callDataFileId)
      | none =>
          if (data.toBytes rlp).length ≤ 5120 then submit client (data.toBytes rlp) none
          else do
            let fileId ← onFiles (createFile newFile client data.callData session.flow.maxChunks)
            Method.update fun session =>
              { session with flow := { session.flow with ethereumData := some (data.setCallData []) } }
            submit client ((data.setCallData []).toBytes rlp) (some fileId)

/-! ## The hex text -/

theorem mem_hexEncode {data : Bytes} {c : Char} (member : c ∈ (hexEncode data).toList) :
    ∃ n, n < 16 ∧ c = hexDigit n := by
  rw [hexEncode, String.toList_ofList, List.mem_flatMap] at member
  obtain ⟨b, -, digit⟩ := member
  have bound := b.toNat_lt
  simp only [List.mem_cons, List.not_mem_nil, or_false] at digit
  rcases digit with rfl | rfl
  · exact ⟨_, by omega, rfl⟩
  · exact ⟨_, by omega, rfl⟩

theorem length_utf8EncodeChar_hexDigit {n : Nat} (small : n < 16) :
    (String.utf8EncodeChar (hexDigit n)).length = 1 := by
  have all : ∀ n : Fin 16, (String.utf8EncodeChar (hexDigit n)).length = 1 := by decide
  exact all ⟨n, small⟩

/-- A hex digit is one byte. -/
theorem length_utf8Encode {data : Bytes} {digits : List Char} (part : digits ⊆ (hexEncode data).toList) :
    (utf8Encode (.ofList digits)).length = digits.length := by
  rw [utf8Encode, String.toList_ofList]
  induction digits with
  | nil => rfl
  | cons c rest inductionHypothesis =>
      obtain ⟨n, small, rfl⟩ := mem_hexEncode (part List.mem_cons_self)
      rw [List.flatMap_cons, List.length_append, length_utf8EncodeChar_hexDigit small,
        inductionHypothesis fun c member => part (List.mem_cons_of_mem _ member), List.length_cons, Nat.add_comm]

/-- The hex text of the call data, as it stands in a file. -/
def hexText (callData : Bytes) : Bytes := utf8Encode (hexEncode callData)

theorem length_hexText (callData : Bytes) : (hexText callData).length = 2 * callData.length := by
  have all := @length_utf8Encode callData _ (List.Subset.refl _)
  rw [String.ofList_toList] at all
  rw [hexText, all, length_hexEncode]

theorem hexText_eq_append (callData : Bytes) :
    hexText callData = utf8Encode (substringTo (hexEncode callData) 4096) ++
      utf8Encode (substringFrom (hexEncode callData) 4096) := by
  rw [hexText, utf8Encode, utf8Encode, utf8Encode, substringTo, substringFrom, String.toList_ofList, String.toList_ofList,
    ← List.flatMap_append, List.take_append_drop]

theorem length_rest (callData : Bytes) :
    (utf8Encode (substringFrom (hexEncode callData) 4096)).length = 2 * callData.length - 4096 := by
  rw [substringFrom, length_utf8Encode (List.drop_subset _ _), List.length_drop, length_hexEncode]

/-! ## The file -/

section File

variable {callData : Bytes} {maxChunks : Option ℚ}

/-- The chunks that are appended to the file of the call data. -/
def requiredChunks (callData : Bytes) : Nat := HederaSdk.requiredChunks (2 * callData.length - 4096) 4096

def created (key : PublicKey) (callData : Bytes) : Submission FileId where
  body := .fileCreate [key] (utf8Encode (substringTo (hexEncode callData) 4096))
  signedBy := [key]
  fileId := some (newFile 0)

theorem run_createFile_of_short (short : callData.length ≤ 4096) (key : PublicKey) :
    (createFile newFile ⟨some key⟩ callData maxChunks).run [] = (.ok (newFile 0), [created newFile key callData]) := by
  simp only [createFile, if_neg (Nat.not_lt_of_le short)]
  rfl

theorem run_createFile_of_long (long : 4096 < callData.length)
    (fits : FileFlow.Fits (maxChunks.getD 20) (requiredChunks callData)) (key : PublicKey) :
    (createFile newFile ⟨some key⟩ callData maxChunks).run [] =
      (.ok (newFile 0), [created newFile key callData] ++
        (chunksOf (utf8Encode (substringFrom (hexEncode callData) 4096)) 4096).map
          (FileFlow.appendSubmission (newFile 0) [key])) := by
  let rest := utf8Encode (substringFrom (hexEncode callData) 4096)
  have set : FileAppend.contents { contents := some rest, maxChunks := maxChunks.getD 20 } = some rest := rfl
  have appended := @FileFlow.run_appendFile_of_fits _ (newFile 0) _ rest set
    (by rw [length_rest]; exact fits) [key] [created newFile key callData]
  simp only [createFile, if_pos long]
  cases maxChunks with
  | none => exact Method.run_bind_ok (f := fun _ => pure (newFile 0)) appended
  | some maxChunks => exact Method.run_bind_ok (f := fun _ => pure (newFile 0)) appended

variable [DecidableEq FileId]

theorem fileContents_of_short (key : PublicKey) (callData : Bytes) :
    Submission.fileContents (newFile 0) [created newFile key callData] =
      some (utf8Encode (substringTo (hexEncode callData) 4096)) :=
  Submission.fileContents_create (newFile 0) [] _ _ _

theorem fileContents_of_long (key : PublicKey) (callData : Bytes) :
    Submission.fileContents (newFile 0) ([created newFile key callData] ++
        (chunksOf (utf8Encode (substringFrom (hexEncode callData) 4096)) 4096).map
          (FileFlow.appendSubmission (newFile 0) [key])) = some (hexText callData) := by
  rw [Submission.fileContents_append, fileContents_of_short, Submission.foldl_applyTo_appends,
    flatten_chunksOf, hexText_eq_append]

/-- Without the rest the file holds the whole text only when there is no rest. -/
theorem take_eq_hexText_iff (callData : Bytes) :
    utf8Encode (substringTo (hexEncode callData) 4096) = hexText callData ↔
      callData.length ≤ 2048 := by
  rw [hexText_eq_append, List.self_eq_append_right, ← List.length_eq_zero_iff, length_rest]
  omega

end File

/-! ## What is denoted -/

/-- The data of a transaction is complete unless a file is named; then its call data is empty
and the file has the hex text. -/
def Denotes [DecidableEq FileId] (log : List (Submission FileId)) (data : EthereumTransactionData) :
    FlowBody FileId → Prop
  | .ethereum ethereumData none _ => ethereumData = data.toBytes rlp
  | .ethereum ethereumData (some fileId) _ =>
      ethereumData = (data.setCallData []).toBytes rlp ∧
        Submission.fileContents fileId log = some (hexText data.callData)
  | _ => False

/-- The flow submits a transaction that denotes the data, as the last one. -/
def SubmitsDenoted [DecidableEq FileId] (key : PublicKey) (flow : EthereumFlow FileId)
    (data : EthereumTransactionData) : Prop :=
  ∃ session log submission, (execute newFile rlp ⟨some key⟩).run { flow } = (.ok ⟨⟩, session) ∧
    session.log = log ++ [submission] ∧ Denotes rlp log data submission.body

structure Meets [DecidableEq FileId] (key : PublicKey) (flow : EthereumFlow FileId)
    (data : EthereumTransactionData) : Prop where
  denotes : flow.callDataFileId = none → SubmitsDenoted newFile rlp key flow data
  submits : flow.callDataFileId ≠ none → data.callData = [] →
    ((execute newFile rlp ⟨some key⟩).run { flow }).1 = .ok ⟨⟩
  rejects : flow.callDataFileId ≠ none → data.callData ≠ [] →
    ∃ e, ((execute newFile rlp ⟨some key⟩).run { flow }).1 = .error e

section Meets

variable {data : EthereumTransactionData} {maxGasAllowance : Option Int} {maxChunks : Option ℚ}

/-- Executing data that is submitted as it is. -/
theorem run_execute_inline (key : PublicKey) (inline : (data.toBytes rlp).length ≤ 5120) :
    (execute newFile rlp ⟨some key⟩).run { flow := { ethereumData := some data, maxGasAllowance, maxChunks } } =
      (.ok ⟨⟩,
        { flow := { ethereumData := some data, maxGasAllowance, maxChunks }
          log := [⟨.ethereum (data.toBytes rlp) none maxGasAllowance, [key], none⟩] }) := by
  simp only [execute, Method.run_this_bind, if_pos inline]
  rfl

/-- Executing data whose call data goes to a file. -/
theorem run_execute_file (key : PublicKey) (large : ¬ (data.toBytes rlp).length ≤ 5120)
    {log : List (Submission FileId)}
    (created : (createFile newFile ⟨some key⟩ data.callData maxChunks).run [] = (.ok (newFile 0), log)) :
    (execute newFile rlp ⟨some key⟩).run { flow := { ethereumData := some data, maxGasAllowance, maxChunks } } =
      (.ok ⟨⟩,
        { flow := { ethereumData := some (data.setCallData []), maxGasAllowance, maxChunks }
          log := log ++
            [⟨.ethereum ((data.setCallData []).toBytes rlp) (some (newFile 0)) maxGasAllowance, [key], none⟩] }) := by
  have onFile : (onFiles (createFile newFile ⟨some key⟩ data.callData maxChunks)).run
      { flow := { ethereumData := some data, maxGasAllowance, maxChunks } } =
        (.ok (newFile 0), { flow := { ethereumData := some data, maxGasAllowance, maxChunks }, log }) := by
    rw [onFiles, Method.run_zoom, created]
  simp only [execute, Method.run_this_bind, if_neg large]
  rw [Method.run_bind_ok onFile]
  rfl

/-- A flow that names a file refuses exactly the data that it should submit. -/
theorem run_execute_supplied (key : PublicKey) (fileId : FileId) :
    ((execute newFile rlp ⟨some key⟩).run
        { flow := { ethereumData := some data, callDataFileId := some fileId, maxGasAllowance, maxChunks } }).1 =
      if data.callData = [] then
        .error (.error "call data file ID provided, but ethereum data already contains call data")
      else .ok ⟨⟩ := by
  by_cases empty : data.callData = []
  · simp only [execute, Method.run_this_bind, if_pos (List.length_eq_zero_iff.mpr empty), if_pos empty]
    rfl
  · simp only [execute, Method.run_this_bind, if_neg (mt List.length_eq_zero_iff.mp empty), if_neg empty]
    rfl

variable [DecidableEq FileId]

theorem not_meets_of_supplied (key : PublicKey) (fileId : FileId) :
    ¬ Meets newFile rlp key
      { ethereumData := some data, callDataFileId := some fileId, maxGasAllowance, maxChunks } data := by
  intro meets
  have named : (some fileId : Option FileId) ≠ none := Option.some_ne_none fileId
  by_cases empty : data.callData = []
  · have submits := meets.submits named empty
    rw [run_execute_supplied, if_pos empty] at submits
    cases submits
  · obtain ⟨e, rejects⟩ := meets.rejects named empty
    rw [run_execute_supplied, if_neg empty] at rejects
    cases rejects

/-- What is submitted with a file denotes the data when the file holds the whole text. -/
theorem submitsDenoted_of_file_iff (key : PublicKey) (large : ¬ (data.toBytes rlp).length ≤ 5120)
    {log : List (Submission FileId)}
    (created : (createFile newFile ⟨some key⟩ data.callData maxChunks).run [] = (.ok (newFile 0), log)) :
    SubmitsDenoted newFile rlp key { ethereumData := some data, maxGasAllowance, maxChunks } data ↔
      Submission.fileContents (newFile 0) log = some (hexText data.callData) := by
  have ran := @run_execute_file _ newFile rlp data maxGasAllowance maxChunks key large log created
  constructor
  · rintro ⟨session, before, submission, same, last, denotes⟩
    rw [ran, Prod.mk.injEq] at same
    rw [← same.2] at last
    obtain ⟨rfl, submitted⟩ := List.append_inj' last rfl
    cases submitted
    exact denotes.2
  · intro whole
    exact ⟨_, log, _, ran, rfl, rfl, whole⟩

/-- A flow that names no file submits what denotes the data exactly when nothing is left out
of the file. -/
theorem submitsDenoted_iff (key : PublicKey)
    (fits : FileFlow.Fits (maxChunks.getD 20) (requiredChunks data.callData)) :
    SubmitsDenoted newFile rlp key { ethereumData := some data, maxGasAllowance, maxChunks } data ↔
      (data.toBytes rlp).length ≤ 5120 ∨ data.callData.length ≤ 2048 ∨ 4096 < data.callData.length := by
  by_cases inline : (data.toBytes rlp).length ≤ 5120
  · have ran := @run_execute_inline _ newFile rlp data maxGasAllowance maxChunks key inline
    exact ⟨fun _ => .inl inline, fun _ => ⟨_, [], _, ran, rfl, rfl⟩⟩
  · by_cases long : 4096 < data.callData.length
    · rw [submitsDenoted_of_file_iff newFile rlp key inline (run_createFile_of_long newFile long fits key),
        fileContents_of_long]
      simp [long]
    · have short := Nat.le_of_not_lt long
      rw [submitsDenoted_of_file_iff newFile rlp key inline (run_createFile_of_short newFile short key),
        fileContents_of_short, Option.some.injEq, take_eq_hexText_iff]
      simp [inline, long]

/-- A file that the constructor is given makes no difference. -/
theorem construct_submitsDenoted_iff (callData : Option FileId) (key : PublicKey)
    (fits : FileFlow.Fits 20 (requiredChunks data.callData)) :
    SubmitsDenoted newFile rlp key
        (construct { ethereumData := some data, callData, maxGasAllowance }) data ↔
      (data.toBytes rlp).length ≤ 5120 ∨ data.callData.length ≤ 2048 ∨ 4096 < data.callData.length :=
  submitsDenoted_iff newFile rlp key fits

/-- A flow meets its purpose exactly when it names no file and the data is short enough for one
transaction, or its call data for one file transaction, or the call data is so long that the
rest of its text is appended. -/
theorem meets_iff (callDataFileId : Option FileId) (key : PublicKey)
    (fits : FileFlow.Fits (maxChunks.getD 20) (requiredChunks data.callData)) :
    Meets newFile rlp key { ethereumData := some data, callDataFileId, maxGasAllowance, maxChunks } data ↔
      callDataFileId = none ∧
        ((data.toBytes rlp).length ≤ 5120 ∨ data.callData.length ≤ 2048 ∨ 4096 < data.callData.length) := by
  cases callDataFileId with
  | none =>
      rw [← @submitsDenoted_iff _ newFile rlp data maxGasAllowance maxChunks _ key fits]
      constructor
      · exact fun meets => ⟨rfl, meets.denotes rfl⟩
      · exact fun denoted => ⟨fun _ => denoted.2, fun named => absurd rfl named, fun named => absurd rfl named⟩
  | some fileId =>
      constructor
      · exact fun meets => absurd meets (not_meets_of_supplied newFile rlp key fileId)
      · exact fun unnamed => absurd unnamed.1 (Option.some_ne_none fileId)

end Meets

/-! ## Sizes -/

/-- The header of so many bytes. -/
def rlpHeader (base : UInt8) (length : Nat) : Bytes :=
  if length < 56 then [base + .ofNat length]
  else
    let size := BigEndian.minimal length
    (base + 55 + .ofNat size.length) :: size

def rlpData (data : Bytes) : Bytes :=
  match data with
  | [b] => if b < 0x80 then [b] else [0x81, b]
  | data => rlpHeader 0x80 data.length ++ data

def rlpList (payload : Bytes) : Bytes := rlpHeader 0xc0 payload.length ++ payload

/-- The encoding as it is. -/
def recursiveLengthPrefix : Rlp where
  wire items := rlpList <| items.flatMap fun
    | .data data => rlpData data
    | .list items => rlpList (items.flatMap rlpData)

/-- A transaction with call data and an access list of zeros. -/
def sampleData (callData accessList : Nat) : EthereumTransactionData :=
  .eip1559 [] [] [] [] [] [] [] (List.replicate callData 0) (List.replicate accessList (List.replicate 20 0))
    [] [] []

theorem length_toBytes_sampleData (rlp : Rlp) (callData accessList : Nat) :
    ((sampleData callData accessList).toBytes rlp).length = (rlp.wire
      ([[], [], [], [], [], [], [], List.replicate callData 0].map .data ++
        .list (List.replicate accessList (List.replicate 20 0)) :: [[], [], []].map .data)).length + 1 :=
  congrArg List.length (EthereumTransactionData.hexDecode_typed rlp _ 2)

theorem short_call_data_met :
    Meets (fun n => n) recursiveLengthPrefix Transaction.sampleKey { ethereumData := some (sampleData 3 1) }
      (sampleData 3 1) := by
  apply (meets_iff (fun n => n) recursiveLengthPrefix none Transaction.sampleKey (.inr (by decide))).mpr
  exact ⟨rfl, .inr (.inl (by decide))⟩

/-- Of 3000 bytes of call data, 2048 are in the file. -/
theorem call_data_cut_short :
    FileFlow.Fits 20 (requiredChunks (sampleData 3000 150).callData) ∧
      ¬ Meets (fun n => n) recursiveLengthPrefix Transaction.sampleKey
        { ethereumData := some (sampleData 3000 150) } (sampleData 3000 150) := by
  have short : (sampleData 3000 150).callData.length = 3000 := List.length_replicate
  have large : ¬ ((sampleData 3000 150).toBytes recursiveLengthPrefix).length ≤ 5120 := by
    rw [length_toBytes_sampleData]
    decide +kernel
  refine ⟨.inr (by rw [requiredChunks, short]; decide), fun meets => ?_⟩
  have created := @run_createFile_of_short _ (fun n => n) _ none (short.trans_le (by decide)) Transaction.sampleKey
  have expected := (submitsDenoted_of_file_iff (fun n => n) recursiveLengthPrefix Transaction.sampleKey large
    created).mp (meets.denotes rfl)
  have whole := Option.some.inj ((fileContents_of_short (fun n => n) Transaction.sampleKey _).symm.trans expected)
  rw [take_eq_hexText_iff, short] at whole
  exact absurd whole (by decide)

end EthereumFlow

end HederaSdk
