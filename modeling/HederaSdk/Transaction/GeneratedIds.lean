import HederaSdk.Library.Runs
import HederaSdk.Transaction.Splitting

/-!
# The transaction ids of one process

A valid start is drawn anew until its text was not drawn before. The ids of further chunks are not
drawn: they are counted on from the id of the first, and their texts are not recorded.
-/

namespace HederaSdk

open Library

/-- A reading of the clock in milliseconds, with the draws of `Math.random()` as they are scaled
and cut. -/
structure Draw where
  clock : Int
  jitter : Fin 5000
  fraction : Fin 1000000

namespace Timestamp

def drawn (timeDrift : Int) (hasJitter : Bool) (draw : Draw) : Timestamp :=
  let jitter : Int := if hasJitter then draw.jitter.val + 3000 else 0
  let now := draw.clock - jitter
  { seconds := now / 1000 + timeDrift
    nanos := now.tmod 1000 * 1000000 + draw.fraction.val }

/-- `Timestamp.generate`; it has not returned when the draws run out. -/
def generate (timeDrift : Int) (generatedIds : Finset String) :
    Bool → List Draw → Option (Timestamp × Finset String)
  | _, [] => none
  | hasJitter, draw :: rest =>
      let timestamp := drawn timeDrift hasJitter draw
      if timestamp.toString ∈ generatedIds then generate timeDrift generatedIds true rest
      else some (timestamp, insert timestamp.toString generatedIds)

/-- The first valid start of the draws that was not drawn before. -/
def firstFresh (timeDrift : Int) (generatedIds : Finset String) (draws : List Draw) : Option Timestamp :=
  (draws.map (drawn timeDrift true)).find? fun timestamp => timestamp.toString ∉ generatedIds

theorem generate_eq (timeDrift : Int) (generatedIds : Finset String) (draws : List Draw) :
    generate timeDrift generatedIds true draws =
      (firstFresh timeDrift generatedIds draws).map fun timestamp =>
        (timestamp, insert timestamp.toString generatedIds) := by
  induction draws with
  | nil => rfl
  | cons draw rest inductionHypothesis =>
      rw [firstFresh, List.map_cons, List.find?_cons, generate]
      by_cases drawnBefore : (drawn timeDrift true draw).toString ∈ generatedIds
      · simp only [drawnBefore, if_true, not_true_eq_false, decide_false]
        exact inductionHypothesis
      · simp only [drawnBefore, if_false, not_false_eq_true, decide_true, Option.map_some]

theorem firstFresh_notMem {timeDrift : Int} {generatedIds : Finset String} {draws : List Draw}
    {timestamp : Timestamp} (fresh : firstFresh timeDrift generatedIds draws = some timestamp) :
    timestamp.toString ∉ generatedIds := by
  simpa using List.find?_some fresh

end Timestamp

/-- The payer of the id that `_buildNewTransactionIdList` makes, if it makes one. -/
def Transaction.newIdPayer (tx : Transaction) : Option AccountId :=
  if tx.transactionIds.locked then none else tx.operatorAccountId

/-- The place of an id that was counted on: how many intervals it lies behind the id of the first
chunk. -/
structure ChunkPlace where
  first : TransactionId
  interval : Int
  chunk : Nat
  deriving DecidableEq

def ChunkPlace.id (place : ChunkPlace) : TransactionId :=
  .withValidStart place.first.accountId
    ⟨place.first.validStart.seconds, place.first.validStart.nanos + place.chunk * place.interval⟩

/-- The ids that a process has made, by what made them, with the texts that it has recorded. -/
structure IssuedIds where
  generatedIds : Finset String := ∅
  generated : List TransactionId := []
  chunks : List ChunkPlace := []

/-- What makes ids. Freezing makes one, unless the ids are fixed, and then splits the contents from
the current id; a transaction that expired makes one. -/
inductive IdEvent where
  | generate (payer : AccountId) (draws : List Draw)
  | buildNewTransactionIdList (tx : Transaction) (draws : List Draw)
  | split (interval : Int) (count : Nat) (first : TransactionId)

namespace IssuedIds

/-- `TransactionId.generate` -/
def generate (timeDrift : Int) (payer : AccountId) (draws : List Draw) (ids : IssuedIds) : IssuedIds :=
  match Timestamp.generate timeDrift ids.generatedIds true draws with
  | none => ids
  | some (validStart, generatedIds) =>
      { ids with generatedIds, generated := ids.generated ++ [.withValidStart payer validStart] }

/-- The places of the chunks behind the first that were not counted on before. -/
def newPlaces (interval : Int) (count : Nat) (first : TransactionId) (ids : IssuedIds) : List ChunkPlace :=
  ((List.range' 1 (count - 1)).map (ChunkPlace.mk first interval)).filter fun place => place ∉ ids.chunks

/-- Only ids that are counted on from a generated one belong to the process. -/
def split (interval : Int) (count : Nat) (first : TransactionId) (ids : IssuedIds) : IssuedIds :=
  if first ∈ ids.generated then { ids with chunks := ids.chunks ++ ids.newPlaces interval count first }
  else ids

def step (timeDrift : Int) (ids : IssuedIds) : IdEvent → IssuedIds
  | .generate payer draws => ids.generate timeDrift payer draws
  | .buildNewTransactionIdList tx draws =>
      match tx.newIdPayer with
      | some payer => ids.generate timeDrift payer draws
      | none => ids
  | .split interval count first => ids.split interval count first

def issued (ids : IssuedIds) : List TransactionId := ids.generated ++ ids.chunks.map ChunkPlace.id

/-- What tells two ids apart. -/
def mark (id : TransactionId) : AccountId × Timestamp := (id.accountId.onWire, id.validStart)

/-- No two ids have the same payer and the same valid start. -/
def AreDistinct (ids : IssuedIds) : Prop := (ids.issued.map mark).Nodup

instance AreDistinct.decidable (ids : IssuedIds) : Decidable ids.AreDistinct :=
  inferInstanceAs (Decidable (List.Nodup _))

/-- The valid start that the draws give is not the one of a further chunk of the payer. -/
def IsFree (timeDrift : Int) (payer : AccountId) (draws : List Draw) (ids : IssuedIds) : Prop :=
  ∀ validStart ∈ Timestamp.firstFresh timeDrift ids.generatedIds draws, ∀ place ∈ ids.chunks,
    place.first.accountId.onWire = payer.onWire → place.id.validStart ≠ validStart

/-- No id of the payer lies, in the same second, as many intervals behind the first as one of the
chunks that are counted on. -/
def IsClear (interval : Int) (count : Nat) (first : TransactionId) (ids : IssuedIds) : Prop :=
  ∀ place ∈ ids.newPlaces interval count first, ∀ id ∈ ids.issued,
    id.accountId.onWire = first.accountId.onWire → id.validStart.seconds = first.validStart.seconds →
      id.validStart.nanos - first.validStart.nanos ≠ place.chunk * interval

def IsApart (timeDrift : Int) (ids : IssuedIds) : IdEvent → Prop
  | .generate payer draws => ids.IsFree timeDrift payer draws
  | .buildNewTransactionIdList tx draws =>
      ∀ payer ∈ tx.newIdPayer, ids.IsFree timeDrift payer draws
  | .split interval count first => first ∈ ids.generated → ids.IsClear interval count first

/-- The texts of the generated valid starts are recorded, and every place is behind a generated id. -/
structure Recorded (ids : IssuedIds) : Prop where
  texts : ∀ id ∈ ids.generated, id.validStart.toString ∈ ids.generatedIds
  places : ∀ place ∈ ids.chunks, place.first ∈ ids.generated

variable {timeDrift : Int} {payer : AccountId} {draws : List Draw} {ids : IssuedIds}

theorem mem_newPlaces {interval : Int} {count : Nat} {first : TransactionId} {place : ChunkPlace} :
    place ∈ ids.newPlaces interval count first ↔
      (place.first = first ∧ place.interval = interval ∧ 0 < place.chunk ∧ place.chunk < count) ∧
        place ∉ ids.chunks := by
  obtain ⟨first', interval', chunk⟩ := place
  simp only [newPlaces, List.mem_filter, List.mem_map, List.mem_range'_1, ChunkPlace.mk.injEq,
    decide_eq_true_eq]
  refine and_congr_left fun _ => ⟨?_, ?_⟩
  · rintro ⟨_, within, rfl, rfl, rfl⟩
    exact ⟨rfl, rfl, by omega, by omega⟩
  · rintro ⟨rfl, rfl, positive, within⟩
    exact ⟨chunk, by omega, rfl, rfl, rfl⟩

/-! ## One step -/

theorem generate_eq (timeDrift : Int) (payer : AccountId) (draws : List Draw) (ids : IssuedIds) :
    ids.generate timeDrift payer draws =
      match Timestamp.firstFresh timeDrift ids.generatedIds draws with
      | none => ids
      | some validStart =>
          { ids with
            generatedIds := insert validStart.toString ids.generatedIds
            generated := ids.generated ++ [.withValidStart payer validStart] } := by
  rw [generate, Timestamp.generate_eq]
  cases Timestamp.firstFresh timeDrift ids.generatedIds draws <;> rfl

theorem Recorded.generate (recorded : ids.Recorded) (timeDrift : Int) (payer : AccountId)
    (draws : List Draw) : (ids.generate timeDrift payer draws).Recorded := by
  rw [generate_eq]
  cases Timestamp.firstFresh timeDrift ids.generatedIds draws with
  | none => exact recorded
  | some validStart =>
      constructor
      · intro id made
        rcases List.mem_append.mp made with before | last
        · exact Finset.mem_insert_of_mem (recorded.texts id before)
        · obtain rfl := List.mem_singleton.mp last
          exact Finset.mem_insert_self _ _
      · intro place counted
        exact List.mem_append_left _ (recorded.places place counted)

theorem Recorded.split (recorded : ids.Recorded) (interval : Int) (count : Nat) (first : TransactionId) :
    (ids.split interval count first).Recorded := by
  rw [IssuedIds.split]
  split
  · rename_i made
    refine ⟨recorded.texts, fun place counted => ?_⟩
    rcases List.mem_append.mp counted with before | new
    · exact recorded.places place before
    · obtain ⟨⟨rfl, -⟩, -⟩ := mem_newPlaces.mp new
      exact made
  · exact recorded

theorem Recorded.step (recorded : ids.Recorded) (timeDrift : Int) (event : IdEvent) :
    (ids.step timeDrift event).Recorded := by
  cases event with
  | generate payer draws => exact recorded.generate timeDrift payer draws
  | buildNewTransactionIdList tx draws =>
      rw [IssuedIds.step]
      split
      · exact recorded.generate timeDrift _ draws
      · exact recorded
  | split interval count first => exact recorded.split interval count first

/-- A generated id differs from the others exactly when its valid start is free. -/
theorem isFree_iff (recorded : ids.Recorded) (distinct : ids.AreDistinct) :
    ids.IsFree timeDrift payer draws ↔ (ids.generate timeDrift payer draws).AreDistinct := by
  rw [IsFree, generate_eq]
  cases fresh : Timestamp.firstFresh timeDrift ids.generatedIds draws with
  | none => exact iff_of_true (fun _ given => by cases given) distinct
  | some validStart =>
      have unrecorded := Timestamp.firstFresh_notMem fresh
      have middle : (issued { ids with
          generatedIds := insert validStart.toString ids.generatedIds
          generated := ids.generated ++ [.withValidStart payer validStart] }).map mark =
          ids.generated.map mark ++ mark (.withValidStart payer validStart) ::
            (ids.chunks.map ChunkPlace.id).map mark := by
        simp [issued]
      have before : ids.issued.map mark =
          ids.generated.map mark ++ (ids.chunks.map ChunkPlace.id).map mark := by
        rw [issued, List.map_append]
      rw [AreDistinct, middle, List.nodup_middle, List.nodup_cons, ← before]
      refine Iff.trans ?_ (and_iff_left distinct).symm
      rw [before, List.mem_append, not_or]
      constructor
      · intro free
        constructor
        · intro taken
          obtain ⟨id, made, same⟩ := List.mem_map.mp taken
          have start : id.validStart = validStart := congrArg Prod.snd same
          exact unrecorded (start ▸ recorded.texts id made)
        · intro taken
          obtain ⟨id, counted, same⟩ := List.mem_map.mp taken
          obtain ⟨place, known, rfl⟩ := List.mem_map.mp counted
          exact free validStart rfl place known (congrArg Prod.fst same) (congrArg Prod.snd same)
      · rintro ⟨-, apart⟩ _ ⟨⟩ place counted payer start
        apply apart
        refine List.mem_map.mpr ⟨place.id, List.mem_map_of_mem counted, ?_⟩
        exact Prod.ext payer start

theorem mark_eq_iff {interval : Int} {count : Nat} {first id : TransactionId} {place : ChunkPlace}
    (new : place ∈ ids.newPlaces interval count first) :
    mark id = mark place.id ↔ id.accountId.onWire = first.accountId.onWire ∧
      id.validStart.seconds = first.validStart.seconds ∧
        id.validStart.nanos - first.validStart.nanos = place.chunk * interval := by
  obtain ⟨⟨rfl, rfl, -⟩, -⟩ := mem_newPlaces.mp new
  obtain ⟨_, ⟨seconds, nanos⟩, _, _⟩ := id
  simp only [mark, ChunkPlace.id, TransactionId.withValidStart, Prod.mk.injEq, Timestamp.mk.injEq]
  refine and_congr_right fun _ => and_congr_right fun _ => ?_
  omega

/-- A clear interval is not zero, so it leads to another id from every place. -/
theorem nodup_newPlaces {interval : Int} {count : Nat} {first : TransactionId}
    (made : first ∈ ids.generated) (clear : ids.IsClear interval count first) :
    (((ids.newPlaces interval count first).map ChunkPlace.id).map mark).Nodup := by
  rw [List.map_map]
  apply List.Nodup.map_on
  · intro place new other otherNew same
    have interval_ne : interval ≠ 0 := by
      intro zero
      apply clear place new first (List.mem_append_left _ made) rfl rfl
      rw [zero, mul_zero, sub_self]
    have nanos := ((mark_eq_iff otherNew).mp same).2.2
    obtain ⟨⟨rfl, rfl, -⟩, -⟩ := mem_newPlaces.mp new
    obtain ⟨⟨firstIs, intervalIs, -⟩, -⟩ := mem_newPlaces.mp otherNew
    have chunkIs : (place.chunk : Int) = other.chunk := by
      apply Int.eq_of_mul_eq_mul_right interval_ne
      rw [← nanos]
      simp [ChunkPlace.id, TransactionId.withValidStart]
    obtain ⟨_, _, chunk⟩ := place
    obtain ⟨_, _, otherChunk⟩ := other
    simp only at firstIs intervalIs chunkIs
    rw [firstIs, intervalIs, Int.ofNat_inj.mp chunkIs]
  · apply List.Nodup.filter
    apply List.Nodup.map
    · intro chunk other same
      exact congrArg ChunkPlace.chunk same
    · exact List.nodup_range'

/-- The ids that are counted on differ from the others and from each other exactly when the places
are clear. -/
theorem isClear_iff (distinct : ids.AreDistinct) {interval : Int} {count : Nat} {first : TransactionId}
    (made : first ∈ ids.generated) :
    ids.IsClear interval count first ↔ (ids.split interval count first).AreDistinct := by
  have behind : (ids.split interval count first).issued.map mark =
      ids.issued.map mark ++ ((ids.newPlaces interval count first).map ChunkPlace.id).map mark := by
    simp [split, made, issued]
  rw [AreDistinct, behind, List.nodup_append]
  constructor
  · intro clear
    refine ⟨distinct, nodup_newPlaces made clear, ?_⟩
    rintro _ earlier _ later rfl
    obtain ⟨id, known, idIs⟩ := List.mem_map.mp earlier
    obtain ⟨_, counted, placeIs⟩ := List.mem_map.mp later
    obtain ⟨place, new, rfl⟩ := List.mem_map.mp counted
    obtain ⟨payer, seconds, nanos⟩ := (mark_eq_iff new).mp (idIs.trans placeIs.symm)
    exact clear place new id known payer seconds nanos
  · rintro ⟨-, -, apart⟩ place new id known payer seconds nanos
    apply apart (mark id) (List.mem_map_of_mem known) (mark place.id)
    · exact List.mem_map_of_mem (List.mem_map_of_mem new)
    · exact (mark_eq_iff new).mpr ⟨payer, seconds, nanos⟩

theorem isApart_iff (recorded : ids.Recorded) (event : IdEvent) (distinct : ids.AreDistinct) :
    ids.IsApart timeDrift event ↔ (ids.step timeDrift event).AreDistinct := by
  cases event with
  | generate payer draws => exact isFree_iff recorded distinct
  | buildNewTransactionIdList tx draws =>
      simp only [IsApart, step]
      cases tx.newIdPayer with
      | none => exact iff_of_true (fun _ given => by cases given) distinct
      | some payer =>
          rw [← isFree_iff recorded distinct]
          exact ⟨fun apart => apart payer rfl, fun free _ given => by cases given; exact free⟩
  | split interval count first =>
      simp only [IsApart, step]
      by_cases made : first ∈ ids.generated
      · rw [← isClear_iff distinct made]
        exact ⟨fun apart => apart made, fun clear _ => clear⟩
      · rw [split, if_neg made]
        exact iff_of_true (fun given => absurd given made) distinct

/-! ## Every run -/

theorem recorded_run (timeDrift : Int) (events : List IdEvent) :
    (runAll (step timeDrift) {} events).Recorded :=
  runAll_invariant_all (fun _ event recorded => recorded.step timeDrift event) events
    ⟨fun _ => by simp, fun _ => by simp⟩

theorem starts_generate (recorded : ids.Recorded) (distinct : (ids.generated.map (·.validStart)).Nodup)
    (timeDrift : Int) (payer : AccountId) (draws : List Draw) :
    ((ids.generate timeDrift payer draws).generated.map (·.validStart)).Nodup := by
  rw [generate_eq]
  cases fresh : Timestamp.firstFresh timeDrift ids.generatedIds draws with
  | none => exact distinct
  | some validStart =>
      rw [List.map_append, List.nodup_append]
      refine ⟨distinct, List.nodup_singleton _, ?_⟩
      rintro start taken _ last rfl
      obtain ⟨id, made, rfl⟩ := List.mem_map.mp taken
      have same : id.validStart = validStart := List.mem_singleton.mp last
      apply Timestamp.firstFresh_notMem fresh
      exact same ▸ recorded.texts id made

theorem starts_step (recorded : ids.Recorded) (distinct : (ids.generated.map (·.validStart)).Nodup)
    (timeDrift : Int) (event : IdEvent) :
    ((ids.step timeDrift event).generated.map (·.validStart)).Nodup := by
  cases event with
  | generate payer draws => exact starts_generate recorded distinct timeDrift payer draws
  | buildNewTransactionIdList tx draws =>
      rw [step]
      split
      · exact starts_generate recorded distinct timeDrift _ draws
      · exact distinct
  | split interval count first =>
      rw [step, IssuedIds.split]
      split <;> exact distinct

/-- Whatever is drawn and counted on, no valid start is generated twice, for any payer. -/
theorem starts_run (timeDrift : Int) (events : List IdEvent) :
    ((runAll (step timeDrift) {} events).generated.map (·.validStart)).Nodup := by
  have both : (runAll (step timeDrift) {} events).Recorded ∧
      ((runAll (step timeDrift) {} events).generated.map (·.validStart)).Nodup := by
    apply @runAll_invariant_all _ _ _ fun ids : IssuedIds =>
      ids.Recorded ∧ (ids.generated.map (·.validStart)).Nodup
    · rintro ids event ⟨recorded, distinct⟩
      exact ⟨recorded.step timeDrift event, starts_step recorded distinct timeDrift event⟩
    · exact ⟨recorded_run timeDrift [], List.nodup_nil⟩
  exact both.2

/-- The ids of a process are distinct at every moment of a run exactly when each step keeps the
chunks, which are not recorded, apart from the ids of their payer. -/
theorem areDistinct_iff (timeDrift : Int) (events : List IdEvent) :
    (∀ first, first <+: events → (runAll (step timeDrift) {} first).AreDistinct) ↔
      Guarded (step timeDrift) (IsApart timeDrift) {} events := by
  symm
  apply @guarded_iff_holds _ _ _ (fun _ _ => True) _ Recorded
  · intro ids event recorded
    exact recorded.step timeDrift event
  · intro ids event recorded _ distinct
    exact isApart_iff recorded event distinct
  · exact recorded_run timeDrift []
  · exact List.nodup_nil
  · exact guarded_of_forall (fun _ _ => trivial) _ _

/-- The id of the second chunk is drawn for the next transaction; with no interval between them the
chunks have one id. -/
theorem chunk_and_generated_coincide :
    ¬ AreDistinct (runAll (step 0) {}
      [.buildNewTransactionIdList
          { operatorAccountId := some (.ofNum 2)
            data := .fileAppend { contents := some [1, 2, 3], chunkSize := Nat.succPNat 1 } }
          [⟨1700000003000, 0, 5⟩],
        .split 10 2 (.withValidStart (.ofNum 2) ⟨1700000000, 5⟩),
        .generate (.ofNum 2) [⟨1700000003000, 0, 15⟩]]) ∧
      ¬ AreDistinct (runAll (step 0) {}
        [.generate (.ofNum 2) [⟨1700000003000, 0, 5⟩],
          .split 0 2 (.withValidStart (.ofNum 2) ⟨1700000000, 5⟩)]) := by
  decide +kernel

/-! ## The ids of frozen transactions -/

theorem chunkIds_place (first : TransactionId) (interval : Int) (chunk count : Nat) :
    Transaction.chunkIds interval count (ChunkPlace.id ⟨first, interval, chunk⟩) =
      (List.range' chunk count).map fun chunk => ChunkPlace.id ⟨first, interval, chunk⟩ := by
  induction count generalizing chunk with
  | zero => rfl
  | succ count inductionHypothesis =>
      have next : Transaction.nextChunkId interval (ChunkPlace.id ⟨first, interval, chunk⟩) =
          ChunkPlace.id ⟨first, interval, chunk + 1⟩ := by
        simp only [Transaction.nextChunkId, ChunkPlace.id, TransactionId.withValidStart]
        push_cast
        rw [add_mul, one_mul, add_assoc]
      rw [Transaction.chunkIds, next, inductionHypothesis, List.range'_succ, List.map_cons]

theorem mem_chunkIds {first id : TransactionId} {interval : Int} {count : Nat}
    (listed : id ∈ Transaction.chunkIds interval count first) :
    id = first ∨ ∃ chunk, 0 < chunk ∧ chunk < count ∧ id = ChunkPlace.id ⟨first, interval, chunk⟩ := by
  cases count with
  | zero => cases listed
  | succ count =>
      have next : Transaction.nextChunkId interval first = ChunkPlace.id ⟨first, interval, 1⟩ := by
        simp [Transaction.nextChunkId, ChunkPlace.id]
      rw [Transaction.chunkIds, next, chunkIds_place, List.mem_cons, List.mem_map] at listed
      rcases listed with rfl | ⟨chunk, within, rfl⟩
      · exact .inl rfl
      · obtain ⟨positive, inside⟩ := List.mem_range'_1.mp within
        exact .inr ⟨chunk, positive, by omega, rfl⟩

/-- The id that a transaction is given is generated for the payer. -/
theorem current_buildNewTransactionIdList {tx : Transaction} (asks : tx.newIdPayer = some payer)
    (inside : tx.transactionIds.index ≤ tx.transactionIds.list.length) (validStart : Timestamp) :
    (Transaction.buildNewTransactionIdList validStart tx).transactionIds.current =
      some (.withValidStart payer validStart) := by
  rw [Transaction.newIdPayer] at asks
  split at asks
  · cases asks
  · rename_i unlocked
    simp only [Transaction.buildNewTransactionIdList, Bool.eq_false_of_not_eq_true unlocked, asks]
    exact SdkList.current_set inside _

theorem step_buildNewTransactionIdList {tx : Transaction} (asks : tx.newIdPayer = some payer)
    {validStart : Timestamp} (drawn : Timestamp.firstFresh timeDrift ids.generatedIds draws = some validStart) :
    ids.step timeDrift (.buildNewTransactionIdList tx draws) =
      { ids with
        generatedIds := insert validStart.toString ids.generatedIds
        generated := ids.generated ++ [.withValidStart payer validStart] } := by
  simp only [step, asks, generate_eq, drawn]

section Freezing

variable {proto : Proto} {client : Option Client} {picked : Except JsError (List AccountId)}
  {tx frozen : Transaction} {contents : Bytes} {validStart : Timestamp}

/-- The ids of a transaction that is split when it is frozen are issued by the two steps of the
freezing. -/
theorem issued_of_freezeWith (set : tx.data.contents = some contents)
    (asks : (Transaction.takeSettings client tx).newIdPayer = some payer)
    (inside : tx.transactionIds.index ≤ tx.transactionIds.list.length)
    (drawn : Timestamp.firstFresh timeDrift ids.generatedIds draws = some validStart)
    (ran : (Transaction.freezeWith proto client picked validStart).run tx = (.ok (), frozen))
    {id : TransactionId} (listed : id ∈ frozen.transactionIds.list) :
    id ∈ (runAll (step timeDrift) ids
      [.buildNewTransactionIdList (Transaction.takeSettings client tx) draws,
        .split tx.data.chunkInterval (tx.data.chunks contents) (.withValidStart payer validStart)]).issued := by
  obtain ⟨based, basing, splits⟩ := Transaction.freezeWith_eq_ok set ran
  obtain ⟨_, first, _, current, split, -⟩ := splits.rows
  obtain ⟨nodes, -, -, -, built⟩ := Transaction.freezeBase_eq_ok basing
  have ids_based : based.transactionIds =
      (Transaction.settled client validStart nodes tx).transactionIds := by
    rw [built]
    split <;> rfl
  have given := @current_buildNewTransactionIdList payer
    { Transaction.takeSettings client tx with nodeAccountIds := nodes } asks inside validStart
  obtain rfl : first = .withValidStart payer validStart := by
    apply Option.some.inj
    rw [← current, ids_based, ← given]
    rfl
  rw [split, (Transaction.freezeBase_frame basing).2.1] at listed
  rw [runAll_cons, runAll_cons, runAll_nil, step_buildNewTransactionIdList asks drawn]
  set made : IssuedIds := { ids with
    generatedIds := insert validStart.toString ids.generatedIds
    generated := ids.generated ++ [.withValidStart payer validStart] }
  have firstMade : TransactionId.withValidStart payer validStart ∈ made.generated :=
    List.mem_append_right _ (List.mem_singleton_self _)
  rw [step, IssuedIds.split, if_pos firstMade]
  rcases mem_chunkIds listed with rfl | ⟨chunk, positive, within, rfl⟩
  · exact List.mem_append_left _ firstMade
  · apply List.mem_append_right
    apply List.mem_map_of_mem
    rw [List.mem_append, mem_newPlaces]
    exact (em _).imp_right fun new => ⟨⟨rfl, rfl, positive, within⟩, new⟩

end Freezing

end IssuedIds

end HederaSdk
