import HederaSdk.Transaction.Building
import HederaSdk.Transaction.Chunks
import HederaSdk.Transaction.Incomplete

/-!
# Unfrozen file appends in bytes

An unfrozen file append is written chunk by chunk: a row of bodies for each chunk, with
an id that starts one interval after the one before. Its contents, chunk size and
interval are read from the rows.
-/

namespace HederaSdk

open Library
open Js (Value Properties)

/-- The chunks that a file is written in. -/
def FileAppend.chunks (append : FileAppend) : Nat :=
  match append.contents with
  | none => 1
  | some contents => requiredChunks contents.length append.chunkSize

/-- What a body shows of a file at a row. -/
def FileAppend.dataAt (append : FileAppend) (row : Nat) : Value :=
  .object <| .consSome "fileID" append.fileId <|
    .consSome "contents" (append.contents.map fun contents =>
      .bytes (chunkOf contents append.chunkSize row)) .nil

namespace Transaction

variable {proto : Proto} {append : FileAppend}

/-! ## Writing a file append -/

/-- The payer of the chunks, and the start of the first. -/
def firstStart (now : Timestamp) (tx : Transaction) : AccountId × Timestamp :=
  ((tx.transactionIds.current.map TransactionId.accountId).getD (.ofNum 0),
    (tx.transactionIds.current.map TransactionId.validStart).getD now)

/-- The id of a chunk of an unfrozen file append. -/
def fileIdAt (first : AccountId × Timestamp) (interval : Int) (row : Nat) : TransactionId :=
  .withValidStart first.1 (plusNanos first.2 (interval * row))

/-- The bodies that an unfrozen file append is written as. -/
def fileBodies (append : FileAppend) (now : Timestamp) (tx : Transaction) : BodyGrid where
  ids := (List.range append.chunks).map (fileIdAt (firstStart now tx) append.chunkInterval)
  nodes := tx.nodeAccountIds.list
  body row id nodeId :=
    { transactionID := id
      nodeAccountID := nodeId
      transactionFee := tx.maxTransactionFee
      transactionValidDuration := tx.transactionValidDuration
      memo := tx.transactionMemo
      dataCase := .fileAppend
      data := append.dataAt row }

theorem pushIncomplete_eq_ok {tx tx' : Transaction} {nodeId : Option AccountId}
    (pushed : (pushIncomplete proto nodeId).run tx = (.ok (), tx')) :
    tx' = tx.withTransactions { tx.transactions with
      list := tx.transactions.list ++ [some (bare proto (tx.makeTransactionBody proto nodeId))] } := by
  rw [pushIncomplete, Method.run_this_bind] at pushed
  cases locked : tx.transactions.locked with
  | true =>
      simp only [SdkList.push, locked, if_true] at pushed
      cases pushed
  | false =>
      rw [SdkList.push_of_unlocked locked] at pushed
      cases pushed
      rfl

theorem pushIncompleteRow_eq_ok {nodeIds : List (Option AccountId)} {tx tx' : Transaction}
    (pushed : (Method.forEach (pushIncomplete proto) nodeIds).run tx = (.ok (), tx')) :
    tx' = tx.withTransactions { tx.transactions with
      list := tx.transactions.list ++
        nodeIds.map fun nodeId => some (bare proto (tx.makeTransactionBody proto nodeId)) } := by
  induction nodeIds generalizing tx with
  | nil =>
      cases pushed
      simp [withTransactions]
  | cons nodeId rest inductionHypothesis =>
      obtain ⟨_, one, first, others⟩ := Method.run_bind_eq_ok.mp pushed
      have more := inductionHypothesis others
      rw [pushIncomplete_eq_ok first] at more
      rw [more]
      simp only [withTransactions, List.map_cons, List.append_assoc, List.singleton_append]
      rfl

/-- The bodies of a row, while its chunk is built. -/
theorem makeTransactionBody_fileAppend {tx : Transaction} {row : Nat} {id : TransactionId}
    (data : tx.data = .fileAppend append) (index : tx.transactionIds.index = row)
    (current : tx.transactionIds.current = some id) (nodeId : Option AccountId) :
    tx.makeTransactionBody proto nodeId =
      { transactionID := some id
        nodeAccountID := nodeId
        transactionFee := tx.maxTransactionFee
        transactionValidDuration := tx.transactionValidDuration
        memo := tx.transactionMemo
        dataCase := .fileAppend
        data := append.dataAt row } := by
  simp only [makeTransactionBody, current, dataCase, data, makeTransactionData, index,
    FileAppend.dataAt]

/-- The pass of the loop for a chunk. -/
def pushFileRow (proto : Proto) (ids : Nat → TransactionId) (chunk : Nat) : TransactionMethod Unit := do
  pushTransactionId (ids chunk)
  let tx ← Method.this
  Method.forEach (pushIncomplete proto) tx.incompleteNodes

/-- What the loop over the chunks adds to the list of transactions. -/
theorem pushFileRows_eq_ok (tx : Transaction) {ids : Nat → TransactionId} {count : Nat}
    {tx' : Transaction} (data : tx.data = .fileAppend append) (last : AtLast tx.transactionIds)
    (pushed : (Method.forEach (pushFileRow proto ids)
      (List.range' tx.transactionIds.list.length count)).run tx = (.ok (), tx')) :
    tx'.transactions.list = tx.transactions.list ++
      grid (fun row nodeId => some (bare proto {
        transactionID := some (ids row)
        nodeAccountID := nodeId
        transactionFee := tx.maxTransactionFee
        transactionValidDuration := tx.transactionValidDuration
        memo := tx.transactionMemo
        dataCase := .fileAppend
        data := append.dataAt row }))
      (List.range' tx.transactionIds.list.length count) (orNone tx.nodeAccountIds.list) := by
  generalize first : tx.transactionIds.list.length = row at pushed ⊢
  induction count generalizing tx row with
  | zero =>
      cases pushed
      simp
  | succ count inductionHypothesis =>
      rw [List.range'_succ] at pushed ⊢
      obtain ⟨_, filled, filling, others⟩ := Method.run_bind_eq_ok.mp pushed
      rw [pushFileRow] at filling
      obtain ⟨_, named, naming, filling⟩ := Method.run_bind_eq_ok.mp filling
      rw [Method.run_this_bind] at filling
      obtain rfl := pushTransactionId_eq_ok naming
      obtain rfl := pushIncompleteRow_eq_ok filling
      have cursor : (tx.transactionIds.index + 1) % (row + 1) = row := first ▸ last.push
      have nodes (tx : Transaction) : tx.incompleteNodes = orNone tx.nodeAccountIds.list := by
        unfold incompleteNodes orNone
        cases tx.nodeAccountIds.list <;> rfl
      refine (inductionHypothesis _ ?_ ?_ (row + 1) ?_ others).trans ?_
      · exact data
      · simp [AtLast, first, cursor, withTransactions]
      · simp [withTransactions, first]
      · rw [Grid.grid_cons, ← List.append_assoc]
        congr 1
        simp only [withTransactions]
        congr 1
        rw [nodes]
        refine List.map_congr_left fun nodeId _ => ?_
        refine congrArg (fun body => some (bare proto body))
          (makeTransactionBody_fileAppend ?_ ?_ ?_ nodeId)
        · exact data
        · simp [first, cursor]
        · simp [SdkList.current, SdkList.get, first, cursor]

theorem cells_fileBodies (append : FileAppend) (now : Timestamp) (tx : Transaction)
    (nonempty : 0 < append.chunks) :
    (fileBodies append now tx).cells =
      grid (fun row nodeId => {
        transactionID := some (fileIdAt (firstStart now tx) append.chunkInterval row)
        nodeAccountID := nodeId
        transactionFee := tx.maxTransactionFee
        transactionValidDuration := tx.transactionValidDuration
        memo := tx.transactionMemo
        dataCase := .fileAppend
        data := append.dataAt row })
      (List.range append.chunks) (orNone tx.nodeAccountIds.list) := by
  have rows : (orNone (fileBodies append now tx).ids).zipIdx = (List.range append.chunks).map fun row =>
      (some (fileIdAt (firstStart now tx) append.chunkInterval row), row) := by
    have some : (fileBodies append now tx).ids.isEmpty = false := by
      simp [fileBodies]
      omega
    rw [orNone, some, if_neg (by simp)]
    refine List.ext_getElem? fun row => ?_
    simp only [fileBodies, List.getElem?_zipIdx, List.getElem?_map, Option.map_map]
    by_cases inside : row < append.chunks
    · simp [List.getElem?_range inside]
    · simp [List.getElem?_eq_none (show (List.range append.chunks).length ≤ row by simpa using inside)]
  rw [BodyGrid.cells, rows, Grid.grid_map_rows]
  rfl

theorem lockTransactionIds_frame (tx : Transaction) : lockTransactionIds tx =
    { tx with transactionIds := (lockTransactionIds tx).transactionIds } := by
  unfold lockTransactionIds
  split <;> rfl

theorem firstStart_lockTransactionIds (now : Timestamp) (tx : Transaction) :
    firstStart now (lockTransactionIds tx) = firstStart now tx := by
  unfold lockTransactionIds
  split <;> rfl

/-- The list of transactions that an unfrozen file append builds. -/
theorem buildIncompleteFileAppend_eq_ok {tx tx' : Transaction} {now : Timestamp}
    (data : tx.data = .fileAppend append)
    (built : (buildIncompleteFileAppend proto append now).run tx = (.ok (), tx')) :
    tx'.transactions.list = grid (fun row nodeId => some (bare proto {
        transactionID := some (fileIdAt (firstStart now tx) append.chunkInterval row)
        nodeAccountID := nodeId
        transactionFee := tx.maxTransactionFee
        transactionValidDuration := tx.transactionValidDuration
        memo := tx.transactionMemo
        dataCase := .fileAppend
        data := append.dataAt row }))
      (List.range append.chunks) (orNone tx.nodeAccountIds.list) := by
  rw [buildIncompleteFileAppend, Method.run_update_bind, Method.run_this_bind] at built
  obtain ⟨_, checked, checking, built⟩ := Method.run_bind_eq_ok.mp built
  cases allowed : (lockTransactionIds tx).checkChunks with
  | error e =>
      rw [allowed] at checking
      cases checking
  | ok _ =>
      rw [allowed] at checking
      cases checking
      rw [Method.run_update_bind] at built
      obtain ⟨_, filled, filling, finishing⟩ := Method.run_bind_eq_ok.mp built
      cases finishing
      have same := lockTransactionIds_frame tx
      have pushed : (Method.forEach (pushFileRow proto
          (fileIdAt (firstStart now (lockTransactionIds tx)) append.chunkInterval))
          (List.range' (clearForChunks (lockTransactionIds tx)).transactionIds.list.length
            append.chunks)).run (clearForChunks (lockTransactionIds tx)) = (.ok (), filled) := by
        rw [List.range_eq_range'] at filling
        exact filling
      have rows := pushFileRows_eq_ok (clearForChunks (lockTransactionIds tx)) (by rw [same]; exact data)
        (by simp [AtLast, clearForChunks, SdkList.clear]) pushed
      rw [firstStart_lockTransactionIds, same] at rows
      rw [List.range_eq_range']
      exact rows

/-- The bytes of an unfrozen file append. -/
theorem toBytes_fileAppend_eq_ok {tx tx' : Transaction} {now : Timestamp} {bytes : Bytes}
    (unfrozen : tx.isFrozenOrOnDemand = false) (data : tx.data = .fileAppend append)
    (written : (toBytes proto now).run tx = (.ok bytes, tx')) :
    bytes = proto.encodeList (if append.chunks = 0 then []
      else (fileBodies append now tx).cells.map (bare proto)) := by
  obtain ⟨built, encoded⟩ := toBytes_unfrozen_eq_ok unfrozen written
  rw [buildIncompleteTransactions, Method.run_this_bind, data] at built
  have list := buildIncompleteFileAppend_eq_ok data built
  have entries : tx'.transactions.list = (if append.chunks = 0 then []
      else (fileBodies append now tx).cells.map (bare proto)).map some := by
    rw [list]
    split
    · rename_i none
      rw [none]
      rfl
    · rename_i some
      rw [cells_fileBodies append now tx (by omega), Grid.map_grid, Grid.map_grid]
  rw [entries, encodeTransactions_some] at encoded
  exact (Except.ok.inj encoded).symm

/-! ## Reading a file append -/

/-- The contents of the rows from one on are joined. -/
theorem joinContents_rows {bodies : List Value} {step rows : Nat} {contents : Nat → Bytes}
    (length : bodies.length = rows * step)
    (cells : ∀ row < rows, ∃ body, bodies[row * step]? = some body ∧
      (body.get "fileAppend").isNullish = false ∧
      ((body.get "fileAppend").get "contents").toBytes?.getD [] = contents row)
    {fuel remaining row : Nat} (inside : row + remaining = rows) (enough : remaining ≤ fuel) :
    joinContents bodies step fuel (row * step) =
      .ok ((List.range' row remaining).map contents).flatten := by
  induction remaining generalizing fuel row with
  | zero =>
      cases fuel with
      | zero => rfl
      | succ fuel =>
          have behind : bodies[row * step]? = none := by
            rw [List.getElem?_eq_none_iff, length, ← inside, Nat.add_zero]
          rw [joinContents, behind]
          rfl
  | succ remaining inductionHypothesis =>
      cases fuel with
      | zero => omega
      | succ fuel =>
          obtain ⟨body, found, set, bytes⟩ := cells row (by omega)
          have rest := @inductionHypothesis fuel (row + 1) (by omega) (by omega)
          rw [Nat.succ_mul] at rest
          rw [joinContents, found, List.range'_succ]
          simp only [set, Bool.false_eq_true, if_false, rest, bytes]
          rfl

theorem sound_fileBodies {append : FileAppend} {now : Timestamp} {tx : Transaction}
    (plain : ∀ fileId, append.fileId = some fileId → fileId.Plain)
    (nodes : (tx.nodeAccountIds.list.map AccountId.toString).Nodup) :
    (fileBodies append now tx).Sound where
  id _ _ _ := rfl
  node _ _ _ := rfl
  same _ _ _ _ := rfl
  plain row _ _ := by
    refine Properties.plain_consSome plain (Properties.plain_consSome ?_ trivial)
    intro value set
    obtain ⟨contents, _, rfl⟩ := Option.map_eq_some_iff.mp set
    exact Js.plain_bytes _
  nodes := nodes

/-- The interval that is read from the ids of the chunks. -/
def readInterval : List TransactionId → Int
  | first :: second :: _ => second.validStart.nanos - first.validStart.nanos
  | _ => 10

/-- What a copy has of a file append. -/
structure CopiesFile (contents : Bytes) (chunkSize : ℕ+) (ids : List TransactionId)
    (copied : FileAppend) : Prop where
  whole : copied.contents = some contents
  size : copied.chunkSize = readChunkSize (chunkOf contents chunkSize 0).length
  interval : copied.chunkInterval = readInterval ids

/-- The body at the head of a row. -/
theorem fileBodies_head {append : FileAppend} {now : Timestamp} {tx : Transaction} {contents : Bytes}
    (set : append.contents = some contents) (nonempty : 0 < append.chunks) (keys : KeyCodec) :
    ∀ row < append.chunks, ∃ body,
      ((fileBodies append now tx).cells.map (TransactionBody.toObject keys))[
        row * (orNone tx.nodeAccountIds.list).length]? = some body ∧
      (body.get "fileAppend").isNullish = false ∧
      ((body.get "fileAppend").get "contents").toBytes?.getD [] =
        chunkOf contents append.chunkSize row := by
  intro row inside
  obtain ⟨nodeId, rest, columns⟩ := List.exists_cons_of_ne_nil (orNone_ne_nil tx.nodeAccountIds.list)
  have cell := Grid.grid_at (fun row nodeId => ({
        transactionID := some (fileIdAt (firstStart now tx) append.chunkInterval row)
        nodeAccountID := nodeId
        transactionFee := tx.maxTransactionFee
        transactionValidDuration := tx.transactionValidDuration
        memo := tx.transactionMemo
        dataCase := .fileAppend
        data := append.dataAt row } : TransactionBody))
    (List.getElem?_range inside) (show (orNone tx.nodeAccountIds.list)[0]? = some nodeId by simp [columns])
  have data := TransactionBody.get_data keys {
        transactionID := some (fileIdAt (firstStart now tx) append.chunkInterval row)
        nodeAccountID := nodeId
        transactionFee := tx.maxTransactionFee
        transactionValidDuration := tx.transactionValidDuration
        memo := tx.transactionMemo
        dataCase := .fileAppend
        data := append.dataAt row }
  rw [← cells_fileBodies append now tx nonempty, Nat.add_zero] at cell
  refine ⟨_, by rw [List.getElem?_map, cell]; rfl, ?_, ?_⟩
  · rw [show "fileAppend" = DataCase.fileAppend.name from rfl, data]
    rfl
  · rw [show "fileAppend" = DataCase.fileAppend.name from rfl, data, FileAppend.dataAt, set]
    cases append.fileId <;> simp [Properties.consSome]

theorem readFileAppend_fileBodies {append : FileAppend} {now : Timestamp} {tx : Transaction}
    {contents : Bytes} (set : append.contents = some contents) (nonempty : 0 < append.chunks)
    (keys : KeyCodec) :
    ∃ copied, readFileAppend ((fileBodies append now tx).parsed keys []) = .ok copied ∧
      CopiesFile contents append.chunkSize (fileBodies append now tx).readIds copied := by
  have heads := @fileBodies_head append now tx contents set nonempty keys
  have step : (if 0 < ((fileBodies append now tx).parsed keys []).nodeIds.length then
      ((fileBodies append now tx).parsed keys []).nodeIds.length else 1) =
        (orNone tx.nodeAccountIds.list).length := by
    have count : ((fileBodies append now tx).parsed keys []).nodeIds.length =
        tx.nodeAccountIds.list.length := by simp [BodyGrid.parsed, fileBodies]
    rw [count]
    cases tx.nodeAccountIds.list <;> simp [orNone]
  have chunks : append.chunks = requiredChunks contents.length append.chunkSize := by
    rw [FileAppend.chunks, set]
  have length : ((fileBodies append now tx).parsed keys []).bodies.length =
      append.chunks * (orNone tx.nodeAccountIds.list).length := by
    simp only [BodyGrid.parsed, cells_fileBodies append now tx nonempty, List.length_map,
      Grid.length_grid, List.length_range]
  have wide := List.length_pos_iff.mpr (orNone_ne_nil tx.nodeAccountIds.list)
  have joined := joinContents_rows length heads (Nat.zero_add append.chunks)
    (Nat.le_mul_of_pos_right append.chunks wide)
  rw [Nat.zero_mul, ← List.range_eq_range', flatten_chunks, chunks,
    List.take_of_length_le (requiredChunks_mul _ _), ← chunks, ← length] at joined
  obtain ⟨body, found, _, bytes⟩ := heads 0 nonempty
  rw [Nat.zero_mul] at found
  have first : bodyAt ((fileBodies append now tx).parsed keys []).bodies 0 = body := by
    simp only [bodyAt, BodyGrid.parsed, found, Option.getD_some]
  rw [readFileAppend]
  simp only [step, joined, bind, Except.bind, Except.ok.injEq, exists_eq_left']
  exact ⟨rfl, by rw [first, bytes], rfl⟩

/-! ## The interval -/

/-- The start of the second chunk is in the second of the first: no nanoseconds are carried. -/
def Carryless (nanos interval : Int) : Prop :=
  interval ≠ 0 ∧ (nanos + interval).tmod 1000000000 = nanos.tmod 1000000000 + interval

instance (nanos interval : Int) : Decidable (Carryless nanos interval) :=
  inferInstanceAs (Decidable (_ ∧ _))

section Interval

variable {first : AccountId × Timestamp} {interval : Int}

/-- The parts of a number of nanoseconds. -/
theorem tdiv_tmod_nanos (n : Int) : n = 1000000000 * n.tdiv 1000000000 + n.tmod 1000000000 ∧
    -1000000000 < n.tmod 1000000000 ∧ n.tmod 1000000000 < 1000000000 :=
  ⟨(Int.mul_tdiv_add_tmod n 1000000000).symm, Int.lt_tmod_of_pos n (by decide),
    Int.tmod_lt_of_pos n (by decide)⟩

theorem nanos_fileIdAt (row : Nat) : (fileIdAt first interval row).onWire.validStart.nanos =
    (first.2.nanos + interval * row).tmod 1000000000 := by
  obtain ⟨_, low, high⟩ := tdiv_tmod_nanos (first.2.nanos + interval * row)
  have small : Timestamp.toInt ((first.2.nanos + interval * row).tmod 1000000000) =
      (first.2.nanos + interval * row).tmod 1000000000 := Int.bmod_eq_of_le (by omega) (by omega)
  exact small

theorem toInt_eq_toInt {m n : Int} (same : Timestamp.toInt m = Timestamp.toInt n) :
    (m - n) % 4294967296 = 0 := by
  simp only [Timestamp.toInt, Int.bmod_def] at same
  split at same <;> split at same <;> omega

/-- Ids of chunks have one text on the wire only when the starts are the same there. -/
theorem text_fileIdAt_iff {row other : Nat} : (fileIdAt first interval row).onWire.toString =
    (fileIdAt first interval other).onWire.toString ↔
      (fileIdAt first interval row).onWire.validStart = (fileIdAt first interval other).onWire.validStart := by
  rw [TransactionId.toString_eq_iff]
  simp [fileIdAt, TransactionId.withValidStart, TransactionId.onWire]

theorem readInterval_lt {ids : List TransactionId}
    (small : ∀ id ∈ ids, -1000000000 < id.validStart.nanos ∧ id.validStart.nanos < 1000000000) :
    -2000000000 < readInterval ids ∧ readInterval ids < 2000000000 := by
  match ids with
  | [] | [_] => simp [readInterval]
  | first :: second :: rest =>
      have bounds := small first List.mem_cons_self
      have bounds' := small second (List.mem_cons_of_mem _ List.mem_cons_self)
      rw [readInterval]
      omega

/-- Two chunks have one start on the wire only when no interval lies between them, or one that
is far longer than any that is read. -/
theorem interval_of_same_start
    (same : (fileIdAt first interval 0).onWire.validStart = (fileIdAt first interval 1).onWire.validStart) :
    interval = 0 ∨ interval ≤ -2000000000 ∨ 2000000000 ≤ interval := by
  have seconds := toInt_eq_toInt (congrArg Timestamp.seconds same)
  have nanos := congrArg Timestamp.nanos same
  have one : interval * ((1 : Nat) : Int) = interval := by simp
  have none : interval * ((0 : Nat) : Int) = 0 := by simp
  change (first.2.seconds + (first.2.nanos + interval * ((0 : Nat) : Int)).tdiv 1000000000 -
    (first.2.seconds + (first.2.nanos + interval * ((1 : Nat) : Int)).tdiv 1000000000)) % _ = 0 at seconds
  rw [nanos_fileIdAt, nanos_fileIdAt] at nanos
  rw [one, none] at seconds nanos
  have parts := tdiv_tmod_nanos (first.2.nanos + 0)
  have parts' := tdiv_tmod_nanos (first.2.nanos + interval)
  omega

/-- The interval is read from the ids of two chunks or more exactly when nothing is carried. -/
theorem readInterval_eq_iff (first : AccountId × Timestamp) (interval : Int) (count : Nat) :
    readInterval (distinct TransactionId.toString
      (((List.range (count + 2)).map (fileIdAt first interval)).map TransactionId.onWire)) = interval ↔
        Carryless first.2.nanos interval := by
  obtain ⟨rest, ids⟩ : ∃ rest, ((List.range (count + 2)).map (fileIdAt first interval)).map
      TransactionId.onWire = (fileIdAt first interval 0).onWire ::
        (fileIdAt first interval 1).onWire :: rest := by
    rw [List.range_succ_eq_map, List.range_succ_eq_map]
    exact ⟨_, rfl⟩
  have nanos := @nanos_fileIdAt first interval 0
  have nanos' := @nanos_fileIdAt first interval 1
  simp only [Nat.cast_zero, Int.mul_zero, Int.add_zero, Nat.cast_one, Int.mul_one] at nanos nanos'
  by_cases same : (fileIdAt first interval 0).onWire.validStart =
      (fileIdAt first interval 1).onWire.validStart
  · have far := interval_of_same_start same
    have small : ∀ id ∈ distinct TransactionId.toString (((List.range (count + 2)).map
        (fileIdAt first interval)).map TransactionId.onWire),
        -1000000000 < id.validStart.nanos ∧ id.validStart.nanos < 1000000000 := by
      intro id member
      obtain ⟨original, inIds, rfl⟩ := List.mem_map.mp (mem_of_mem_distinct member)
      obtain ⟨row, _, rfl⟩ := List.mem_map.mp inIds
      rw [nanos_fileIdAt]
      exact (tdiv_tmod_nanos _).2
    have bounds := readInterval_lt small
    have carries : ¬ Carryless first.2.nanos interval := by
      rintro ⟨nonzero, carryless⟩
      have equal := congrArg Timestamp.nanos same
      rw [nanos, nanos'] at equal
      omega
    refine iff_of_false (fun read => ?_) carries
    rw [read] at bounds
    obtain rfl : interval = 0 := by omega
    have all : ∀ id ∈ (fileIdAt first 0 1).onWire :: rest,
        id.toString = (fileIdAt first 0 0).onWire.toString := by
      intro id member
      obtain ⟨original, inIds, rfl⟩ := List.mem_map.mp (ids ▸ List.mem_cons_of_mem _ member)
      obtain ⟨row, _, rfl⟩ := List.mem_map.mp inIds
      simp [fileIdAt]
    rw [ids, distinct_of_same all] at read
    simp [readInterval] at read
  · have apart := mt text_fileIdAt_iff.mp same
    obtain ⟨more, two⟩ := distinct_cons_cons apart rest
    rw [ids, two, readInterval, nanos, nanos', Carryless]
    constructor
    · intro read
      refine ⟨?_, by omega⟩
      rintro rfl
      exact same rfl
    · rintro ⟨_, carryless⟩
      omega

end Interval

end Transaction

end HederaSdk
