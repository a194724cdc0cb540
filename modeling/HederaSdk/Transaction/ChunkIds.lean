import HederaSdk.Transaction.FileBytes
import HederaSdk.Transaction.Splitting

/-!
# The valid starts of the chunks

Freezing adds the interval to the nanoseconds of the chunk before and carries nothing
into the seconds; a file append that is written unfrozen counts each chunk from the
first with `plusNanos`, which does. The two agree, and the nanoseconds stay below a
second, as long as the last chunk starts in the second of the first.
-/

namespace HederaSdk

open Library

namespace Timestamp

/-- The nanoseconds are less than a second. -/
def IsNormal (t : Timestamp) : Prop := 0 ≤ t.nanos ∧ t.nanos < 1000000000

instance IsNormal.decidable (t : Timestamp) : Decidable t.IsNormal :=
  inferInstanceAs (Decidable (_ ∧ _))

/-- The order of the pairs of seconds and nanoseconds. -/
def Before (a b : Timestamp) : Prop := a.seconds < b.seconds ∨ a.seconds = b.seconds ∧ a.nanos < b.nanos

/-- A time that stays in its second. -/
def later (t : Timestamp) (nanos : Int) : Timestamp := ⟨t.seconds, t.nanos + nanos⟩

theorem later_zero (t : Timestamp) : t.later 0 = t := by
  rw [later, Int.add_zero]

theorem plusNanos_eq_later {t : Timestamp} {nanos : Int} (inside : (t.later nanos).IsNormal) :
    Transaction.plusNanos t nanos = t.later nanos := by
  obtain ⟨low, high⟩ := inside
  simp only [later] at low high
  simp only [Transaction.plusNanos, later, Int.tdiv_eq_zero_of_lt low high, Int.tmod_eq_of_lt low high,
    Int.add_zero]

end Timestamp

/-- Every nanosecond part is less than a second, and each start is before the next ones. -/
structure AreSpaced (ids : List TransactionId) : Prop where
  normal : ∀ id ∈ ids, id.validStart.IsNormal
  increasing : ids.Pairwise fun a b => a.validStart.Before b.validStart

namespace Transaction

variable {proto : Proto}

/-! ## Two ways to count -/

/-- The starts of the chunks when nothing is carried. -/
def startsFrom (interval : Int) (count : Nat) (start : Timestamp) : List Timestamp :=
  (List.range count).map fun chunk : Nat => start.later (interval * chunk)

theorem startsFrom_succ (interval : Int) (count : Nat) (start : Timestamp) :
    startsFrom interval (count + 1) start = start :: startsFrom interval count (start.later interval) := by
  rw [startsFrom, List.range_succ_eq_map, List.map_cons, List.map_map, startsFrom]
  congr 1
  · rw [Nat.cast_zero, Int.mul_zero, Timestamp.later_zero]
  · apply List.map_congr_left
    intro chunk _
    simp only [Function.comp_apply, Timestamp.later, Timestamp.mk.injEq, true_and]
    push_cast
    rw [Int.mul_add, Int.mul_one, Int.add_comm (interval * chunk), Int.add_assoc]

theorem validStart_chunkIds (interval : Int) (count : Nat) (id : TransactionId) :
    (chunkIds interval count id).map TransactionId.validStart =
      startsFrom interval count id.validStart := by
  induction count generalizing id with
  | zero => rfl
  | succ count inductionHypothesis =>
      rw [startsFrom_succ, chunkIds, List.map_cons, inductionHypothesis]
      rfl

/-- Frozen chunks are spaced exactly when the last one starts in the second of the first. -/
theorem areSpaced_chunkIds {interval : Int} {count : Nat} {id : TransactionId}
    (start : id.validStart.IsNormal) (positive : 1 ≤ interval) :
    AreSpaced (chunkIds interval (count + 1) id) ↔
      id.validStart.nanos + interval * count < 1000000000 := by
  have starts := validStart_chunkIds interval (count + 1) id
  constructor
  · intro spaced
    have last : id.validStart.later (interval * count) ∈
        (chunkIds interval (count + 1) id).map TransactionId.validStart := by
      rw [starts]
      exact List.mem_map.mpr ⟨count, List.mem_range.mpr (Nat.lt_succ_self count), rfl⟩
    obtain ⟨lastId, member, same⟩ := List.mem_map.mp last
    have normal := spaced.normal lastId member
    rw [same] at normal
    exact normal.2
  · intro inside
    refine ⟨fun chunkId member => ?_, ?_⟩
    · have listed := List.mem_map_of_mem (f := TransactionId.validStart) member
      rw [starts] at listed
      obtain ⟨chunk, within, same⟩ := List.mem_map.mp listed
      have below : (chunk : Int) ≤ count := by
        exact_mod_cast Nat.lt_succ_iff.mp (List.mem_range.mp within)
      have most := Int.mul_le_mul_of_nonneg_left below (show 0 ≤ interval by omega)
      have least : 0 ≤ interval * chunk := Int.mul_nonneg (by omega) (by omega)
      have low := start.1
      rw [← same]
      constructor
      · simp only [Timestamp.later]
        omega
      · simp only [Timestamp.later]
        omega
    · have ordered : (startsFrom interval (count + 1) id.validStart).Pairwise Timestamp.Before := by
        rw [startsFrom, List.pairwise_map]
        apply List.pairwise_lt_range.imp
        intro first second less
        have more := Int.mul_lt_mul_of_pos_left (show (first : Int) < second by omega)
          (show 0 < interval by omega)
        right
        refine ⟨rfl, ?_⟩
        simp only [Timestamp.later]
        omega
      rw [← starts, List.pairwise_map] at ordered
      exact ordered

/-- An id that is nothing but a payer and a start is counted on from like the others. -/
theorem chunkIds_withValidStart (interval : Int) (count : Nat) (payer : AccountId) (start : Timestamp) :
    chunkIds interval count (.withValidStart payer start) =
      (startsFrom interval count start).map (TransactionId.withValidStart payer) := by
  induction count generalizing start with
  | zero => rfl
  | succ count inductionHypothesis =>
      rw [startsFrom_succ, chunkIds, List.map_cons, ← inductionHypothesis]
      rfl

theorem map_fileIdAt {interval : Int} {count : Nat} {payer : AccountId} {start : Timestamp}
    (normal : ∀ t ∈ startsFrom interval count start, t.IsNormal) :
    (List.range count).map (fileIdAt (payer, start) interval) =
      (startsFrom interval count start).map (TransactionId.withValidStart payer) := by
  rw [startsFrom, List.map_map]
  apply List.map_congr_left
  intro chunk within
  have inside := normal _ (List.mem_map_of_mem within)
  rw [Function.comp_apply, fileIdAt, Timestamp.plusNanos_eq_later inside]

/-- When nothing is carried, the ids of an unfrozen file append are those of a frozen one exactly if
the first id is nothing but a payer and a start. -/
theorem fileIdAt_eq_chunkIds {interval : Int} {count : Nat} {id : TransactionId}
    (spaced : AreSpaced (chunkIds interval (count + 1) id)) :
    (List.range (count + 1)).map (fileIdAt (id.accountId, id.validStart) interval) =
        chunkIds interval (count + 1) id ↔
      id = .withValidStart id.accountId id.validStart := by
  have normal : ∀ t ∈ startsFrom interval (count + 1) id.validStart, t.IsNormal := by
    intro t listed
    rw [← validStart_chunkIds] at listed
    obtain ⟨chunkId, member, rfl⟩ := List.mem_map.mp listed
    exact spaced.normal chunkId member
  rw [map_fileIdAt normal, ← chunkIds_withValidStart]
  constructor
  · intro same
    rw [chunkIds, chunkIds, List.cons.injEq] at same
    exact same.1.symm
  · intro plain
    rw [← plain]

/-! ## Writing an unfrozen file append -/

/-- The ids that the loop over the chunks adds. -/
theorem ids_pushFileRows {tx tx' : Transaction} {ids : Nat → TransactionId} {chunks : List Nat}
    (pushed : (Method.forEach (pushFileRow proto ids) chunks).run tx = (.ok (), tx')) :
    tx'.transactionIds.list = tx.transactionIds.list ++ chunks.map ids := by
  induction chunks generalizing tx with
  | nil =>
      cases pushed
      simp
  | cons chunk rest inductionHypothesis =>
      obtain ⟨_, filled, filling, others⟩ := Method.run_bind_eq_ok.mp pushed
      obtain ⟨_, named, naming, filling⟩ := Method.run_bind_eq_ok.mp filling
      rw [Method.run_this_bind] at filling
      obtain rfl := pushTransactionId_eq_ok naming
      obtain rfl := pushIncompleteRow_eq_ok filling
      rw [inductionHypothesis others]
      simp [withTransactions]

theorem ids_buildIncompleteFileAppend {append : FileAppend} {tx tx' : Transaction} {now : Timestamp}
    (built : (buildIncompleteFileAppend proto append now).run tx = (.ok (), tx')) :
    tx'.transactionIds.list =
      (List.range append.chunks).map (fileIdAt (firstStart now tx) append.chunkInterval) := by
  rw [buildIncompleteFileAppend, Method.run_update_bind, Method.run_this_bind] at built
  obtain ⟨_, checked, checking, built⟩ := Method.run_bind_eq_ok.mp built
  cases allowed : (lockTransactionIds tx).checkChunks with
  | error e =>
      rw [allowed] at checking
      cases checking
  | ok _ =>
      rw [allowed] at checking
      cases checking
      rw [Method.run_update_bind] at built
      obtain ⟨_, filled, filling, finishing⟩ := Method.run_bind_eq_ok.mp built
      cases finishing
      have pushed : (Method.forEach (pushFileRow proto
          (fileIdAt (firstStart now (lockTransactionIds tx)) append.chunkInterval))
          (List.range append.chunks)).run (clearForChunks (lockTransactionIds tx)) = (.ok (), filled) :=
        filling
      have listed := ids_pushFileRows pushed
      rw [firstStart_lockTransactionIds] at listed
      exact listed

/-! ## Both ways from one id -/

/-- Contents that are frozen and, for a file append, written from the same first id without a freeze. -/
structure CountedTwice (proto : Proto) (contents : Bytes) (tx frozen written : Transaction) : Prop where
  set : tx.data.contents = some contents
  positive : 1 ≤ tx.data.chunkInterval
  froze : ∃ client picked generated, (freezeWith proto client picked generated).run tx = (.ok (), frozen)
  wrote : ∀ append, tx.data = .fileAppend append → ∃ now unfrozen,
    (buildIncompleteTransactions proto now).run unfrozen = (.ok (), written) ∧
      unfrozen.data = tx.data ∧
      ∀ id, frozen.transactionIds.list.head? = some id → unfrozen.transactionIds.current = some id
  normal : ∀ id, frozen.transactionIds.list.head? = some id → id.validStart.IsNormal

/-- What is expected of the ids of the chunks. -/
structure KeepsSpacing (tx frozen written : Transaction) : Prop where
  freezing : AreSpaced frozen.transactionIds.list
  writing : ∀ append, tx.data = .fileAppend append →
    AreSpaced written.transactionIds.list ∧ written.transactionIds.list = frozen.transactionIds.list

theorem CountedTwice.written_ids {contents : Bytes} {tx frozen written : Transaction}
    (counted : CountedTwice proto contents tx frozen written) {append : FileAppend}
    (data : tx.data = .fileAppend append) : ∃ first,
      written.transactionIds.list =
        (List.range (tx.data.chunks contents)).map (fileIdAt first tx.data.chunkInterval) ∧
      ∀ id, frozen.transactionIds.list.head? = some id → first = (id.accountId, id.validStart) := by
  obtain ⟨now, unfrozen, wrote, same, current⟩ := counted.wrote append data
  have set := counted.set
  rw [buildIncompleteTransactions, Method.run_this_bind, same, data] at wrote
  rw [data] at set
  have count : append.chunks = tx.data.chunks contents := by
    rw [FileAppend.chunks, show append.contents = some contents from set, data]
    rfl
  refine ⟨firstStart now unfrozen, ?_, fun id first => ?_⟩
  · rw [ids_buildIncompleteFileAppend wrote, count, data]
    rfl
  · rw [firstStart, current id first]
    rfl

/-- The ids of the chunks are as expected exactly when the last chunk starts in the second of the
first and, for a file append, the first id is nothing but a payer and a start. -/
theorem keepsSpacing_iff {contents : Bytes} {tx frozen written : Transaction}
    (counted : CountedTwice proto contents tx frozen written) :
    KeepsSpacing tx frozen written ↔ ∀ id, frozen.transactionIds.list.head? = some id →
      id.validStart.nanos + tx.data.chunkInterval * (frozen.transactionIds.list.length - 1) < 1000000000 ∧
        ∀ append, tx.data = .fileAppend append → id = .withValidStart id.accountId id.validStart := by
  obtain ⟨client, picked, generated, froze⟩ := counted.froze
  obtain ⟨based, basing, splits⟩ := freezeWith_eq_ok counted.set froze
  obtain ⟨_, first, locked, _, ids, _, _, _⟩ := splits.rows
  rw [(freezeBase_frame basing).2.1] at ids
  have list : frozen.transactionIds.list =
      chunkIds tx.data.chunkInterval (tx.data.chunks contents) first := by
    rw [ids]
    rfl
  have normal := counted.normal
  have writes (append : FileAppend) (data : tx.data = .fileAppend append) := counted.written_ids data
  cases count : tx.data.chunks contents with
  | zero =>
      rw [count] at list writes
      have noIds : frozen.transactionIds.list = [] := list
      constructor
      · intro _ id head
        rw [noIds] at head
        cases head
      · intro _
        have spaced : AreSpaced [] := ⟨fun _ member => absurd member List.not_mem_nil, List.Pairwise.nil⟩
        refine ⟨noIds ▸ spaced, fun append data => ?_⟩
        obtain ⟨_, noWritten, _⟩ := writes append data
        rw [List.range_zero, List.map_nil] at noWritten
        exact ⟨noWritten ▸ spaced, noWritten.trans noIds.symm⟩
  | succ count' =>
      rw [count] at list writes
      have head : frozen.transactionIds.list.head? = some first := by
        rw [list]
        rfl
      have last : ((frozen.transactionIds.list.length : Int) - 1) = count' := by
        rw [list, length_chunkIds]
        omega
      have spaced := @areSpaced_chunkIds _ count' _ (normal first head) counted.positive
      rw [← list] at spaced
      constructor
      · rintro ⟨freezing, writing⟩ id named
        obtain rfl := Option.some.inj (head.symm.trans named)
        rw [last]
        refine ⟨spaced.mp freezing, fun append data => ?_⟩
        obtain ⟨start, found, same⟩ := writes append data
        have agree := (writing append data).2
        rw [list] at freezing
        apply (fileIdAt_eq_chunkIds freezing).mp
        rw [← list, ← agree, found, same first head]
      · intro within
        obtain ⟨inside, plain⟩ := within first head
        rw [last] at inside
        have freezing := spaced.mpr inside
        refine ⟨freezing, fun append data => ?_⟩
        obtain ⟨start, found, same⟩ := writes append data
        have agree : written.transactionIds.list = frozen.transactionIds.list := by
          rw [found, same first head, list]
          rw [list] at freezing
          exact (fileIdAt_eq_chunkIds freezing).mpr (plain append data)
        exact ⟨agree ▸ freezing, agree⟩

/-! ## Samples -/

/-- A file of three bytes in three chunks, of a transaction that starts `nanos` after a second. -/
def sampleFile (nanos : Int) : Transaction where
  nodeAccountIds := { list := [.ofNum 3], locked := true }
  transactionIds := { list := [.withValidStart (.ofNum 2) ⟨5, nanos⟩], locked := true }
  data := .fileAppend { contents := some [1, 2, 3], chunkSize := ⟨1, by decide⟩ }

def frozenFile (nanos : Int) : Transaction :=
  ((freezeWith prefixProto none (.ok []) ⟨0, 0⟩).run (sampleFile nanos)).2

def writtenFile (nanos : Int) : Transaction :=
  ((buildIncompleteTransactions prefixProto ⟨0, 0⟩).run (sampleFile nanos)).2

theorem countedTwice_sampleFile {nanos : Int}
    (froze : ((freezeWith prefixProto none (.ok []) ⟨0, 0⟩).run (sampleFile nanos)).1 = .ok ())
    (wrote : ((buildIncompleteTransactions prefixProto ⟨0, 0⟩).run (sampleFile nanos)).1 = .ok ())
    (head : (frozenFile nanos).transactionIds.list.head? =
      some (.withValidStart (.ofNum 2) ⟨5, nanos⟩))
    (normal : Timestamp.IsNormal ⟨5, nanos⟩) :
    CountedTwice prefixProto [1, 2, 3] (sampleFile nanos) (frozenFile nanos) (writtenFile nanos) where
  set := rfl
  positive := by
    change (1 : Int) ≤ 10
    decide
  froze := ⟨none, .ok [], ⟨0, 0⟩, Method.run_of_ok froze⟩
  wrote _ _ :=
    ⟨⟨0, 0⟩, sampleFile nanos, Method.run_of_ok wrote, rfl, fun id first => first ▸ head.symm⟩
  normal id first := by
    obtain rfl := Option.some.inj (head.symm.trans first)
    exact normal

theorem early_file_keeps_spacing : KeepsSpacing (sampleFile 7) (frozenFile 7) (writtenFile 7) := by
  have head : (frozenFile 7).transactionIds.list.head? =
      some (.withValidStart (.ofNum 2) ⟨5, 7⟩) := by decide +kernel
  have length : (frozenFile 7).transactionIds.list.length = 3 := by decide +kernel
  apply (keepsSpacing_iff (countedTwice_sampleFile (by decide +kernel) (by decide +kernel) head
    (by decide))).mpr
  intro id first
  obtain rfl := Option.some.inj (head.symm.trans first)
  rw [length]
  exact ⟨by decide, fun _ _ => rfl⟩

/-- The third chunk starts in the next second. -/
theorem late_file_is_not_spaced :
    CountedTwice prefixProto [1, 2, 3] (sampleFile 999999985) (frozenFile 999999985)
        (writtenFile 999999985) ∧
      ¬ KeepsSpacing (sampleFile 999999985) (frozenFile 999999985) (writtenFile 999999985) := by
  refine ⟨countedTwice_sampleFile (by decide +kernel) (by decide +kernel) (by decide +kernel)
    (by decide), fun keeps => ?_⟩
  have third : TransactionId.withValidStart (.ofNum 2) ⟨5, 1000000005⟩ ∈
      (frozenFile 999999985).transactionIds.list := by decide +kernel
  exact absurd (keeps.freezing.normal _ third) (by decide)

end Transaction

end HederaSdk
