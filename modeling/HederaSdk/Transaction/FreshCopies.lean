import HederaSdk.Transaction.ChunkIds
import HederaSdk.Transaction.ChunkLimit
import HederaSdk.Transaction.WholeCopies

/-!
# Copies of transactions that were just frozen

Without a client a transaction is frozen for the nodes that it has. It then holds one body
for each of its ids and nodes and no signatures, and a copy of its bytes has its nodes.
-/

namespace HederaSdk.Transaction

open Library
open Js (Value Properties)

variable {proto : Proto} {types : TypeReaders} {generated : Timestamp} {tx frozen : Transaction}

/-! ## Freezing without a client -/

theorem freezeBase_returns (picked : Except JsError (List AccountId)) (nodes : tx.nodeAccountIds.list ≠ [])
    (named : tx.transactionIds.list ≠ []) (unlocked : tx.signedTransactions.locked = false) :
    ((freezeBase proto none picked generated).run tx).1 = .ok () := by
  have noded : (setNodeAccountIdsFrom none picked).run (takeSettings none tx) =
      (.ok (), takeSettings none tx) := by
    rw [setNodeAccountIdsFrom, Method.run_this_bind, if_pos (by simpa [takeSettings, SdkList.isEmpty] using nodes)]
    rfl
  have checked : checkTransactionId.run (takeSettings none tx) = (.ok (), takeSettings none tx) := by
    rw [checkTransactionId, Method.run_this_bind, if_neg (by simp [takeSettings, SdkList.isEmpty, named])]
    rfl
  rw [freezeBase, Method.run_update_bind, Method.run_bind_ok noded, Method.run_bind_ok checked,
    Method.run_this_bind]
  change ((Method.ofExcept (.ok ()) >>= fun _ => _ : TransactionMethod Unit).run _).1 = _
  rw [Method.run_bind_ok (Method.run_ofExcept_ok _ _), Method.run_update_bind, Method.run_this_bind]
  split
  · rfl
  · have open_ : (buildNewTransactionIdList generated (takeSettings none tx)).signedTransactions.locked =
        false := by
      unfold buildNewTransactionIdList
      split <;> exact unlocked
    rw [buildSignedTransactions, Method.run_this_bind, if_neg (by simp [open_]),
      SdkList.setList_of_unlocked open_]
    rfl

/-- With nodes and an id, freezing throws only about the maximum of chunks. -/
theorem freeze_returns_iff (unbuilt : Unbuilt tx) (nodes : tx.nodeAccountIds.list ≠ [])
    (named : tx.transactionIds.list ≠ []) :
    ((freeze proto generated).run tx).1 = .ok () ↔ tx.data.excess = none := by
  have basing := Method.run_of_ok
    (@freezeBase_returns proto generated tx (.ok []) nodes named unbuilt.signed)
  obtain ⟨current, _, _, unlocked, _⟩ := unbuilt.current_of_freezeBase basing
  have same := (freezeBase_frame basing).2.1
  constructor
  · intro returned
    by_contra tooLong
    obtain ⟨e, tooLong⟩ := Option.ne_none_iff_exists'.mp tooLong
    rw [freeze, run_freezeWith_of_excess tooLong, basing] at returned
    cases returned
  · intro within
    rw [freeze, freezeWith, Method.run_bind_ok basing, Method.run_this_bind, same]
    cases data : tx.data with
    | plain dataCase value => rfl
    | fileAppend append => exact freezeFileAppend_returns current unlocked
    | topicMessageSubmit submit =>
        rw [data, TransactionData.excess] at within
        cases set : submit.message with
        | none =>
            simp only [freezeTopicMessage, set]
            rfl
        | some message =>
            rw [set] at within
            refine freezeTopicMessage_returns set ?_ current unlocked
            by_contra few
            simp [not_le.mp few] at within

/-! ## What was frozen -/

/-- The class of the transaction reads its own messages, which are plain. -/
structure Readable (proto : Proto) (types : TypeReaders) (tx : Transaction) : Prop where
  subject : ∀ value, tx.subject = some value → value.Plain
  own : ∀ dataCase data, tx.data = .plain dataCase data →
    data.Plain ∧ (dataCase ≠ .fileAppend ∧ dataCase ≠ .consensusSubmitMessage) ∧
      ∀ body : TransactionBody, body.dataCase = dataCase → body.data = data →
        ∃ copy, types.readData dataCase (body.toObject proto.keys) = .ok copy

/-- The transaction holds the bodies of a grid, each in a signed transaction without signatures. -/
structure Holds (proto : Proto) (bodies : BodyGrid) (tx : Transaction) : Prop where
  ids : bodies.ids = tx.transactionIds.list
  nodes : bodies.nodes = tx.nodeAccountIds.list
  sound : bodies.Sound
  type : ∀ row id node, (bodies.body row id node).dataCase = tx.dataCase
  plain : ∀ dataCase data, tx.data = .plain dataCase data →
    ∀ row id node, (bodies.body row id node).data = data
  file : ∀ append, tx.data = .fileAppend append →
    ∀ row id node, (bodies.body row id node).data.isNullish = false
  made : tx.signedTransactions.list.map SignedTransaction.bodyBytes = bodies.cells.map proto.encodeBody
  unsigned : ∀ signed ∈ tx.signedTransactions.list, signed.sigPair = []

theorem Readable.plain_makeTransactionData (readable : Readable proto types tx)
    (none : tx.data.contents = none) : (tx.makeTransactionData proto).Plain := by
  rw [makeTransactionData]
  have subject := readable.subject
  rw [Transaction.subject] at subject
  cases data : tx.data with
  | plain dataCase value => exact (readable.own dataCase value data).1
  | fileAppend append =>
      rw [data] at none subject
      have unset : append.contents = Option.none := none
      simp only [unset, Option.map_none]
      exact Properties.plain_consSome subject trivial
  | topicMessageSubmit submit =>
      rw [data] at none subject
      have unset : submit.message = Option.none := none
      simp only [unset]
      cases submit.chunkInfo <;> exact Properties.plain_consSome subject trivial

theorem Readable.congr {after : Transaction} (readable : Readable proto types tx)
    (same : after.data = tx.data) : Readable proto types after where
  subject value is := by
    refine readable.subject value ?_
    rw [Transaction.subject, ← same]
    exact is
  own dataCase data is := readable.own dataCase data (same.symm.trans is)

/-- Freezing leaves the transaction readable. -/
theorem Readable.of_freeze (readable : Readable proto types tx)
    (ran : (freeze proto generated).run tx = (.ok (), frozen)) : Readable proto types frozen := by
  cases contents : tx.data.contents with
  | none =>
      rw [freeze, freezeWith_of_none contents] at ran
      exact readable.congr (freezeBase_frame ran).2.1
  | some bytes =>
      obtain ⟨based, basing, splits⟩ := freezeWith_eq_ok contents ran
      have data := splits.data
      rw [(freezeBase_frame basing).2.1] at data
      have subject := readable.subject
      rw [Transaction.subject] at subject
      cases own : tx.data with
      | plain dataCase value =>
          rw [own] at contents
          cases contents
      | fileAppend append => exact readable.congr (data.trans (by rw [own]; rfl))
      | topicMessageSubmit submit =>
          rw [own] at data subject
          refine ⟨fun value is => subject value ?_, fun dataCase value is => ?_⟩
          · rw [Transaction.subject, data] at is
            exact is
          · rw [data] at is
            cases is

theorem ChunkPlan.unsigned_rows (plan : ChunkPlan proto) {first : Nat} {ids : List TransactionId}
    {signed : SignedTransaction} (member : signed ∈ plan.rows tx first ids) : signed.sigPair = [] := by
  induction ids generalizing first with
  | nil => cases member
  | cons id rest inductionHypothesis =>
      rw [ChunkPlan.rows, List.mem_append] at member
      rcases member with inRow | inRest
      · obtain ⟨nodeId, _, rfl⟩ := List.mem_map.mp inRow
        rfl
      · exact inductionHypothesis inRest

/-- The base of freezing holds a body for each node. -/
theorem holds_of_freezeBase (readable : Readable proto types tx) (unbuilt : Unbuilt tx)
    (whole : tx.data.contents = none)
    (ran : (freezeBase proto none (.ok []) generated).run tx = (.ok (), frozen))
    (ready : frozen.isFrozen = true)
    (different : (frozen.nodeAccountIds.list.map AccountId.toString).Nodup) :
    Holds proto (incompleteBodies proto frozen) frozen := by
  obtain ⟨_, first, single, _, _⟩ := unbuilt.current_of_freezeBase ran
  obtain ⟨_, data, mode⟩ := freezeBase_frame ran
  obtain ⟨id, ids⟩ := List.length_eq_one_iff.mp (single (unbuilt.ids whole))
  have current : frozen.transactionIds.current = some id := by
    rw [SdkList.current, SdkList.get, first, ids]
    rfl
  have signed := signed_of_freezeBase unbuilt.signed ran mode
  have own := readable.congr data
  exact {
    ids := by rw [incompleteBodies, current, ids]; rfl
    nodes := rfl
    sound := sound_incompleteBodies (own.plain_makeTransactionData (data ▸ whole)) different
    type := fun _ _ _ => rfl
    plain := fun dataCase value is _ _ _ => by
      change frozen.makeTransactionData proto = value
      rw [makeTransactionData, is]
    file := fun append is _ _ _ => by
      change (frozen.makeTransactionData proto).isNullish = false
      rw [makeTransactionData, is]
      rfl
    made := by
      rw [cells_incompleteBodies, incompleteNodes_of_isFrozen signed ready, signed]
      simp only [List.map_map]
      rfl
    unsigned := fun one member => by
      rw [signed] at member
      obtain ⟨nodeId, _, rfl⟩ := List.mem_map.mp member
      rfl }

/-- What a body shows of a chunk is plain. -/
theorem Readable.plain_shown (readable : Readable proto types tx) (initial : TransactionId)
    (total row : Nat) (chunk : Bytes) : (tx.data.finished.shown proto.keys initial total row chunk).Plain := by
  have subject := readable.subject
  rw [Transaction.subject] at subject
  cases data : tx.data with
  | plain dataCase value => exact (readable.own dataCase value data).1
  | fileAppend append =>
      rw [data] at subject
      exact Properties.plain_consSome subject ⟨Js.plain_bytes _, trivial⟩
  | topicMessageSubmit submit =>
      rw [data] at subject
      exact Properties.plain_consSome subject ⟨Js.plain_bytes _,
        ⟨initial.plain_toProtobuf proto.keys, trivial, trivial, trivial⟩, trivial⟩

/-- Splitting holds the bodies of a plan. -/
theorem holds_of_split {contents : Bytes} {based : Transaction} (readable : Readable proto types based)
    (set : based.data.contents = some contents) (splits : SplitFrom proto contents based frozen)
    (ready : frozen.isFrozen = true)
    (different : (frozen.nodeAccountIds.list.map AccountId.toString).Nodup) :
    ∃ bodies, Holds proto bodies frozen := by
  obtain ⟨plan, id, locked, _, ids, signed, type, shows⟩ := splits.rows
  have size : frozen.signedTransactions.list.length =
      based.data.chunks contents * based.nodeAccountIds.list.length := by
    rw [signed, ChunkPlan.length_rows, length_chunkIds]
  have filled := ready
  rw [isFrozen, SdkList.length, size, decide_eq_true_eq] at filled
  have rows : chunkIds based.data.chunkInterval (based.data.chunks contents) id ≠ [] := by
    rw [← List.length_pos_iff, length_chunkIds]
    exact Nat.pos_of_mul_pos_right filled
  have columns : based.nodeAccountIds.list ≠ [] :=
    List.ne_nil_of_length_pos (Nat.pos_of_mul_pos_left filled)
  rw [splits.nodes] at different
  have own : ∀ row, (plan.chunkAt row).Plain := by
    intro row
    rw [shows, splits.data]
    exact readable.plain_shown _ _ _ _
  exact ⟨plan.bodies based (chunkIds based.data.chunkInterval (based.data.chunks contents) id), {
    ids := by rw [ids]; rfl
    nodes := by rw [splits.nodes]; rfl
    sound := plan.sound_bodies _ own different
    type := fun _ _ _ => type
    plain := fun dataCase value is => by
      rw [splits.data] at is
      cases data : based.data <;> simp [data, TransactionData.finished, TransactionData.contents] at is set
    file := fun append is row _ _ => by
      change (plan.chunkAt row).isNullish = false
      rw [shows, is]
      rfl
    made := by rw [signed, plan.cells_bodies rows columns]
    unsigned := fun one member => plan.unsigned_rows (signed ▸ member) }⟩

/-- Freezing at once makes a grid of bodies. -/
theorem exists_holds (readable : Readable proto types tx) (unbuilt : Unbuilt tx)
    (ran : (freeze proto generated).run tx = (.ok (), frozen)) (ready : frozen.isFrozen = true)
    (different : (frozen.nodeAccountIds.list.map AccountId.toString).Nodup) :
    ∃ bodies, Holds proto bodies frozen := by
  rw [freeze] at ran
  cases contents : tx.data.contents with
  | none =>
      rw [freezeWith_of_none contents] at ran
      exact ⟨_, holds_of_freezeBase readable unbuilt contents ran ready different⟩
  | some data =>
      obtain ⟨based, basing, splits⟩ := freezeWith_eq_ok contents ran
      have same := (freezeBase_frame basing).2.1
      exact holds_of_split (readable.congr same) (same ▸ contents) splits ready different

/-! ## Ids and nodes -/

/-- Exactly one of the signed transactions names the id and the node. -/
def NamedOnce (proto : Proto) (tx : Transaction) (id : TransactionId) (nodeId : AccountId) : Prop :=
  ∃! p : Nat, ∃ signed : SignedTransaction, tx.signedTransactions.list[p]? = some signed ∧
    Names proto id nodeId signed.bodyBytes

theorem Names.inj {id other : TransactionId} {nodeId otherNode : AccountId} {bodyBytes : Bytes}
    (names : Names proto id nodeId bodyBytes) (also : Names proto other otherNode bodyBytes) :
    id.toProtobuf proto.keys = other.toProtobuf proto.keys ∧
      nodeId.toProtobuf proto.keys = otherNode.toProtobuf proto.keys := by
  obtain ⟨value, decoded, transactionID, nodeAccountID⟩ := names
  obtain ⟨value', decoded', transactionID', nodeAccountID'⟩ := also
  obtain rfl := Except.ok.inj (decoded.symm.trans decoded')
  exact ⟨transactionID.symm.trans transactionID', nodeAccountID.symm.trans nodeAccountID'⟩

/-- Nodes with one message have one text. -/
theorem toString_of_toProtobuf (faithful : proto.Faithful) {nodeId other : AccountId}
    (same : nodeId.toProtobuf proto.keys = other.toProtobuf proto.keys) : nodeId.toString = other.toString := by
  have read := congrArg (AccountId.fromProtobuf proto.keys) same
  rw [AccountId.fromProtobuf_toProtobuf faithful.keys, AccountId.fromProtobuf_toProtobuf faithful.keys] at read
  rw [← AccountId.toString_onWire nodeId, Except.ok.inj read, AccountId.toString_onWire]

section NamedOnce

variable {ids : List TransactionId} {nodes : List AccountId}

/-- In a grid for different nodes every pair is named once exactly when the ids are different on
the wire. -/
theorem namedOnce_iff (faithful : proto.Faithful)
    (grid : BodiesOf proto ids nodes (tx.signedTransactions.list.map SignedTransaction.bodyBytes))
    (some : nodes ≠ []) (different : (nodes.map AccountId.toString).Nodup) :
    (∀ id ∈ ids, ∀ nodeId ∈ nodes, NamedOnce proto tx id nodeId) ↔
      (ids.map (TransactionId.toProtobuf proto.keys)).Nodup := by
  have columns := List.length_pos_iff.mpr some
  have cell (row column : Nat) (inRow : row < ids.length) (inColumn : column < nodes.length) :
      ∃ signed, tx.signedTransactions.list[row * nodes.length + column]? = Option.some signed ∧
        Names proto ids[row] nodes[column] signed.bodyBytes := by
    obtain ⟨bodyBytes, found, names⟩ := grid.cells row column _ _ (List.getElem?_eq_getElem inRow)
      (List.getElem?_eq_getElem inColumn)
    rw [List.getElem?_map] at found
    obtain ⟨signed, here, rfl⟩ := Option.map_eq_some_iff.mp found
    exact ⟨signed, here, names⟩
  constructor
  · intro once
    rw [List.nodup_iff_injective_getElem]
    intro ⟨i, inI⟩ ⟨j, inJ⟩ same
    rw [List.length_map] at inI inJ
    simp only [List.getElem_map] at same
    obtain ⟨_, _, unique⟩ := once ids[i] (List.getElem_mem inI) nodes[0] (List.getElem_mem columns)
    obtain ⟨signed, here, names⟩ := cell i 0 inI columns
    obtain ⟨other, there, value, decoded, transactionID, nodeAccountID⟩ := cell j 0 inJ columns
    have first := unique _ ⟨signed, here, names⟩
    have second := unique _ ⟨other, there, value, decoded, transactionID.trans same.symm, nodeAccountID⟩
    have equal := Nat.eq_of_mul_eq_mul_right columns (Nat.add_right_cancel (first.trans second.symm))
    exact Fin.ext equal
  · intro distinct id inIds nodeId inNodes
    obtain ⟨row, inRow, rfl⟩ := List.getElem_of_mem inIds
    obtain ⟨column, inColumn, rfl⟩ := List.getElem_of_mem inNodes
    obtain ⟨signed, here, names⟩ := cell row column inRow inColumn
    refine ⟨_, ⟨signed, here, names⟩, ?_⟩
    rintro q ⟨other, there, also⟩
    have inside := (List.getElem?_eq_some_iff.mp there).1
    have size := grid.size
    rw [List.length_map] at size
    rw [size] at inside
    have inOther := Nat.mod_lt q columns
    have rowOther : q / nodes.length < ids.length := by
      rwa [Nat.div_lt_iff_lt_mul columns]
    obtain ⟨third, found, named⟩ := cell (q / nodes.length) (q % nodes.length) rowOther inOther
    have place : q / nodes.length * nodes.length + q % nodes.length = q := Nat.div_add_mod' q nodes.length
    rw [place, there] at found
    cases found
    obtain ⟨sameId, sameNode⟩ := named.inj also
    have rows := @List.Nodup.getElem_inj_iff _ _ distinct (q / nodes.length) (by simpa using rowOther) row
      (by simpa using inRow)
    have nodesSame := @List.Nodup.getElem_inj_iff _ _ different (q % nodes.length) (by simpa using inOther) column
      (by simpa using inColumn)
    simp only [List.getElem_map] at rows nodesSame
    rw [← place, rows.mp sameId, nodesSame.mp (toString_of_toProtobuf faithful sameNode)]

end NamedOnce

/-- No two of so many starts in a row, each an interval after the one before, are the same on the
wire, which has 32 bits for nanoseconds. -/
def Spread (interval : Int) (count : Nat) : Prop :=
  ∀ gap : Nat, 0 < gap → gap < count → ¬ (4294967296 : Int) ∣ interval * gap

theorem toInt_eq_iff {m n : Int} : Timestamp.toInt m = Timestamp.toInt n ↔ (4294967296 : Int) ∣ m - n := by
  rw [Timestamp.toInt, Timestamp.toInt, Int.bmod_eq_bmod_iff_bmod_sub_eq_zero, ← Int.dvd_iff_bmod_eq_zero]
  exact Iff.rfl

/-- The ids with the starts are different on the wire. -/
theorem nodup_startsFrom_iff (keys : KeyCodec) (interval : Int) (count : Nat) (payer : AccountId)
    (start : Timestamp) :
    (((startsFrom interval count start).map (TransactionId.withValidStart payer)).map
      (TransactionId.toProtobuf keys)).Nodup ↔ Spread interval count := by
  have same (i j : Nat) :
      (TransactionId.withValidStart payer (start.later (interval * i))).toProtobuf keys =
        (TransactionId.withValidStart payer (start.later (interval * j))).toProtobuf keys ↔
      (4294967296 : Int) ∣ interval * i - interval * j := by
    simp only [TransactionId.toProtobuf, TransactionId.withValidStart, Timestamp.toProtobuf, Timestamp.later]
    simp only [Value.object.injEq, Properties.cons.injEq, true_and, and_true, Value.number.injEq]
    rw [toInt_eq_iff, Int.add_sub_add_left]
  rw [startsFrom, List.map_map, List.map_map, List.nodup_map_iff_inj_on List.nodup_range]
  simp only [List.mem_range, Function.comp_apply, same]
  constructor
  · intro apart gap positive below divides
    have equal := apart gap below 0 (by omega) (by simpa using divides)
    omega
  · intro spread i inI j inJ divides
    rcases Nat.lt_trichotomy i j with before | equal | behind
    · refine absurd ?_ (spread (j - i) (by omega) (by omega))
      rw [Int.ofNat_sub before.le, Int.mul_sub]
      exact (Int.dvd_neg.mpr divides).trans (by rw [Int.neg_sub])
    · exact equal
    · refine absurd ?_ (spread (i - j) (by omega) (by omega))
      rwa [Int.ofNat_sub behind.le, Int.mul_sub]

/-- The ids of chunks are different on the wire. The first may have what the others have not. -/
theorem nodup_chunkIds_iff (keys : KeyCodec) (interval : Int) (count : Nat) (id : TransactionId) :
    ((chunkIds interval count id).map (TransactionId.toProtobuf keys)).Nodup ↔
      Spread interval (if id = .withValidStart id.accountId id.validStart then count else count - 1) := by
  split
  · rename_i bare
    rw [bare, chunkIds_withValidStart]
    exact nodup_startsFrom_iff ..
  · rename_i more
    cases count with
    | zero =>
        refine iff_of_true List.nodup_nil ?_
        rintro gap positive below
        omega
    | succ count =>
        have first : id.toProtobuf keys ∉ (chunkIds interval count (nextChunkId interval id)).map
            (TransactionId.toProtobuf keys) := by
          rw [nextChunkId, chunkIds_withValidStart, List.map_map]
          intro member
          obtain ⟨start, _, same⟩ := List.mem_map.mp member
          apply more
          obtain ⟨accountId, validStart, scheduled, nonce⟩ := id
          cases nonce <;> cases scheduled <;>
            simp [TransactionId.toProtobuf, TransactionId.withValidStart] at same ⊢
        rw [chunkIds, List.map_cons, List.nodup_cons, and_iff_right first, nextChunkId,
          chunkIds_withValidStart, Nat.add_sub_cancel]
        exact nodup_startsFrom_iff ..

/-! ## Writing it -/

/-- The transactions can be built from the signed ones. -/
structure Buildable (list : List SignedTransaction) (tx : Transaction) : Prop where
  unlocked : tx.transactions.locked = false
  signed : tx.signedTransactions.list = list

theorem buildTransaction_returns {list : List SignedTransaction} {index : Nat} (inside : index < list.length) :
    Method.Triple (Buildable list) (buildTransaction proto index) (fun _ => Buildable list)
      fun _ _ => False := by
  intro tx buildable
  have found : tx.signedTransactions.get index = some list[index] := by
    rw [SdkList.get, buildable.signed, List.getElem?_eq_getElem inside]
  rw [run_buildTransaction buildable.unlocked found]
  refine ⟨?_, buildable.signed⟩
  rw [withTransactions, builtAt, SdkList.set]
  split <;> exact buildable.unlocked

theorem buildAllTransactions_returns (unlocked : tx.transactions.locked = false)
    (allowed : tx.checkChunks = .ok ()) : ((buildAllTransactions proto).run tx).1 = .ok () := by
  rw [buildAllTransactions, Method.run_this_bind, allowed, Method.run_bind_ok (Method.run_ofExcept_ok _ _)]
  have built := Method.Triple.forEach (E := fun _ _ => False)
    (fun rest after => Buildable tx.signedTransactions.list after ∧
      ∀ i ∈ rest, i < tx.signedTransactions.list.length)
    (fun index rest after holds => by
      obtain ⟨buildable, inside⟩ := holds
      rw [List.forall_mem_cons] at inside
      have step := @buildTransaction_returns proto _ index inside.1 after buildable
      rcases ran : (buildTransaction proto index).run after with ⟨e | _, next⟩ <;> rw [ran] at step
      · exact step
      · exact ⟨step, inside.2⟩)
    (List.range tx.signedTransactions.length) tx ⟨⟨unlocked, rfl⟩, fun i => List.mem_range.mp⟩
  rcases ran : (Method.forEach (buildTransaction proto) (List.range tx.signedTransactions.length)).run tx with
    ⟨e | _, after⟩
  · rw [ran] at built
    exact built.elim
  · rfl

section Writing

variable {ids : List TransactionId} {nodes : List AccountId} {bodies : List Bytes}

/-- A frozen transaction is written exactly when a file does not take too many chunks. -/
theorem AtOnce.toBytes_returns_iff (atOnce : AtOnce ids nodes bodies tx)
    (unlocked : tx.transactions.locked = false) (now : Timestamp) :
    ((toBytes proto now).run tx).1 = .ok (proto.encodeList (tx.signedTransactions.list.map proto.wrap)) ↔
      tx.checkChunks = .ok () := by
  have allowed : requireNotSignOnDemand.run tx = (.ok (), tx) := by
    rw [requireNotSignOnDemand, Method.run_this_bind, if_neg (by simp [atOnce.immediate])]
    rfl
  have building : (buildForBytes proto now).run tx = (buildAllTransactions proto).run (lockIds tx) := by
    rw [buildForBytes, Method.run_this_bind, if_pos atOnce.frozen, Method.run_update_bind]
  have locked := AtOnce.keeps_lockIds tx atOnce
  rw [toBytes, Method.run_bind_ok allowed]
  constructor
  · intro written
    obtain ⟨_, _, built, _⟩ := Method.run_bind_eq_ok.mp (Method.run_of_ok written)
    rw [building, buildAllTransactions, Method.run_this_bind] at built
    obtain ⟨_, _, checked, _⟩ := Method.run_bind_eq_ok.mp built
    change (Method.ofExcept tx.checkChunks).run _ = _ at checked
    cases check : tx.checkChunks with
    | ok _ => rfl
    | error e =>
        rw [check] at checked
        cases checked
  · intro check
    have built := Method.run_of_ok (@buildAllTransactions_returns proto (lockIds tx) unlocked check)
    have list := locked.buildAllTransactions_eq_ok built
    have entries : ((buildAllTransactions proto).run (lockIds tx)).2.transactions.list =
        (tx.signedTransactions.list.map proto.wrap).map some := by
      rw [list, List.map_map]
      rfl
    rw [Method.run_bind_ok (building.trans built), Method.run_this_bind, entries, encodeTransactions_some]
    rfl

end Writing

/-! ## Reading the copy -/

section Reading

variable {bodies : BodyGrid} {signed : List SignedTransaction}

/-- Contents are joined when every body has a file append. -/
theorem joinContents_returns {values : List Value}
    (append : ∀ body ∈ values, (body.get "fileAppend").isNullish = false) (step fuel p : Nat) :
    ∃ contents, joinContents values step fuel p = .ok contents := by
  induction fuel generalizing p with
  | zero => exact ⟨_, rfl⟩
  | succ fuel inductionHypothesis =>
      cases found : values[p]? with
      | none =>
          rw [joinContents, found]
          exact ⟨_, rfl⟩
      | some body =>
          obtain ⟨rest, joined⟩ := inductionHypothesis (p + step)
          simp only [joinContents, found, append body (List.mem_of_getElem? found), joined]
          exact ⟨_, rfl⟩

/-- A list of signed transactions without signatures is read by a class. -/
theorem fromProtobufTransactions_unsigned (sound : bodies.Sound)
    (made : signed.map SignedTransaction.bodyBytes = bodies.cells.map proto.encodeBody)
    (unsigned : ∀ one ∈ signed, one.sigPair = []) (empty : Transaction) :
    fromProtobufTransactions proto empty (signed.map proto.wrap) (bodies.parsed proto.keys signed) =
      .ok (bodies.loaded proto.keys (signed.map proto.wrap) signed empty) := by
  have reads : ∀ i < bodies.readNodes.length, pairsAt (signed.map proto.wrap) signed i = .ok [] := by
    intro i inside
    have columns : bodies.readNodes.length ≤ (orNone bodies.nodes).length := by
      refine (List.length_filter_le _ _).trans ?_
      rw [List.length_map]
      cases nodes : bodies.nodes <;> simp [orNone]
    have wide := Nat.le_mul_of_pos_left (orNone bodies.nodes).length
      (List.length_pos_iff.mpr (orNone_ne_nil bodies.ids))
    have count := congrArg List.length made
    rw [List.length_map, List.length_map, bodies.length_cells] at count
    have within : i < signed.length := by omega
    rw [pairsAt, List.getElem?_eq_getElem within]
    exact congrArg Except.ok (unsigned _ (List.getElem_mem within))
  have none : ((List.range bodies.readNodes.length).map fun _ => ([] : List SignaturePair)).flatten =
      [] := by simp
  rw [BodyGrid.fromProtobufTransactions_cells sound reads, none]
  rfl

/-- The class of the transaction reads the bodies that it holds. -/
theorem Holds.readTransaction (readable : Readable proto types tx) (holds : Holds proto bodies tx)
    (list : List ProtoTransaction) (signed : List SignedTransaction) :
    ∃ empty, Transaction.readTransaction proto types tx.dataCase list (bodies.parsed proto.keys signed) =
      fromProtobufTransactions proto empty list (bodies.parsed proto.keys signed) := by
  have type := holds.type
  rw [Transaction.dataCase] at type ⊢
  cases data : tx.data with
  | plain dataCase value =>
      rw [data] at type
      obtain ⟨_, whole, reads⟩ := readable.own dataCase value data
      obtain ⟨first, rest, cells⟩ := List.exists_cons_of_ne_nil bodies.cells_ne_nil
      have member : first ∈ bodies.cells := cells ▸ List.mem_cons_self
      obtain ⟨row, _, node, _, same⟩ := Grid.mem_grid.mp member
      have firstData : first.data = value := same ▸ holds.plain _ _ data _ _ _
      have firstCase : first.dataCase = dataCase := same ▸ type _ _ _
      obtain ⟨copy, read⟩ := reads first firstCase firstData
      have here : bodyAt (bodies.parsed proto.keys signed).bodies 0 = first.toObject proto.keys := by
        simp [BodyGrid.parsed, bodyAt, cells]
      refine ⟨{ data := .plain dataCase copy
                defaultMaxTransactionFee := types.defaultMaxTransactionFee dataCase }, ?_⟩
      simp only
      rw [readTransaction_whole whole, here, read]
      rfl
  | fileAppend append =>
      rw [data] at type
      have all : ∀ body ∈ (bodies.parsed proto.keys signed).bodies,
          (body.get "fileAppend").isNullish = false := by
        intro value member
        obtain ⟨body, inCells, rfl⟩ := List.mem_map.mp member
        obtain ⟨row, _, node, _, rfl⟩ := Grid.mem_grid.mp inCells
        have shown := TransactionBody.get_data proto.keys (bodies.body row.2 row.1 node)
        rw [type] at shown
        change ((bodies.body row.2 row.1 node).toObject proto.keys).get "fileAppend" = _ at shown
        rw [shown]
        exact holds.file append data _ _ _
      have returns : ∃ copied, readFileAppend (bodies.parsed proto.keys signed) = .ok copied := by
        obtain ⟨contents, joined⟩ := joinContents_returns all
          (if 0 < (bodies.parsed proto.keys signed).nodeIds.length then
            (bodies.parsed proto.keys signed).nodeIds.length else 1)
          (bodies.parsed proto.keys signed).bodies.length 0
        unfold readFileAppend
        simp only [joined, bind, Except.bind, Except.ok.injEq, exists_eq']
      obtain ⟨copied, read⟩ := returns
      refine ⟨{ data := .fileAppend copied, defaultMaxTransactionFee := 500000000 }, ?_⟩
      simp only [Transaction.readTransaction]
      rw [read]
      rfl
  | topicMessageSubmit submit => exact ⟨_, rfl⟩

/-- The copy of a transaction that was just frozen has the nodes other than 0.0.0. -/
theorem Holds.fromBytes (faithful : proto.Faithful) (readable : Readable proto types tx)
    (holds : Holds proto bodies tx) :
    ∃ copy, Transaction.fromBytes proto types
        (proto.encodeList (tx.signedTransactions.list.map proto.wrap)) = .ok copy ∧
      copy.nodeAccountIds.list = bodies.readNodes := by
  obtain ⟨empty, read⟩ := holds.readTransaction readable
    (tx.signedTransactions.list.map proto.wrap) tx.signedTransactions.list
  refine ⟨bodies.loaded proto.keys (tx.signedTransactions.list.map proto.wrap) tx.signedTransactions.list
    empty, ?_, rfl⟩
  rw [BodyGrid.fromBytes_cells faithful holds.sound (carriesAll_signed holds.made) holds.type, read]
  exact fromProtobufTransactions_unsigned holds.sound holds.made holds.unsigned empty

end Reading

/-! ## With nodes and an id -/

/-- An unbuilt transaction with nodes and an id that is not to be replaced. At most one unsigned entry
is left of an earlier writing. -/
structure NodesSet (id : TransactionId) (tx : Transaction) : Prop where
  unbuilt : Unbuilt tx
  nodes : tx.nodeAccountIds.list ≠ []
  locked : tx.transactionIds.locked = true
  id : tx.transactionIds.current = some id
  few : tx.data.contents = none → tx.transactions.list.length ≤ 1

section NodesSet

variable {id : TransactionId}

theorem NodesSet.named (set : NodesSet id tx) : tx.transactionIds.list ≠ [] := by
  intro none
  have current := set.id
  rw [SdkList.current, SdkList.get, none] at current
  cases current

/-- Freezing keeps the nodes and signs at once. -/
theorem NodesSet.frame (set : NodesSet id tx) (ran : (freeze proto generated).run tx = (.ok (), frozen)) :
    frozen.nodeAccountIds = tx.nodeAccountIds ∧ frozen.signOnDemand = false ∧
      frozen.checkChunks = tx.checkChunks := by
  cases contents : tx.data.contents with
  | none =>
      rw [freeze, freezeWith_of_none contents] at ran
      obtain ⟨nodes, data, mode⟩ := freezeBase_frame ran
      refine ⟨?_, mode, by rw [checkChunks, checkChunks, data]⟩
      exact nodes.elim (fun same => same.2) fun picked => absurd picked.1 set.nodes
  | some bytes =>
      obtain ⟨based, basing, splits⟩ := freezeWith_eq_ok contents ran
      refine ⟨freezeWith_of_nodes set.nodes contents ran, splits.mode.trans (freezeBase_frame basing).2.2, ?_⟩
      have data := splits.data
      rw [(freezeBase_frame basing).2.1] at data
      rw [checkChunks, checkChunks, data]
      cases tx.data <;> rfl

/-- The ids are those of the chunks, from the id on. -/
theorem NodesSet.ids (set : NodesSet id tx) (ran : (freeze proto generated).run tx = (.ok (), frozen))
    {contents : Bytes} (split : tx.data.contents = some contents) :
    frozen.transactionIds.list = chunkIds tx.data.chunkInterval (tx.data.chunks contents) id := by
  obtain ⟨based, basing, splits⟩ := freezeWith_eq_ok split ran
  obtain ⟨_, first, _, current, ids, _⟩ := splits.rows
  rw [(freezeBase_frame basing).2.1] at ids
  obtain ⟨nodes, _, _, _, built⟩ := freezeBase_eq_ok basing
  have kept : (settled none generated nodes tx).transactionIds = tx.transactionIds := by
    rw [settled, buildNewTransactionIdList]
    simp only [takeSettings, set.locked]
  have same : based.transactionIds = tx.transactionIds := by
    rw [built]
    split <;> exact kept
  rw [same, set.id] at current
  cases current
  rw [ids]
  rfl

/-- What is frozen is signed at once, with as many entries as signed transactions at most. -/
theorem NodesSet.atOnce (set : NodesSet id tx) (ran : (freeze proto generated).run tx = (.ok (), frozen))
    (ready : frozen.isFrozen = true) :
    AtOnce frozen.transactionIds.list frozen.nodeAccountIds.list
      (frozen.signedTransactions.list.map SignedTransaction.bodyBytes) frozen := by
  rw [isFrozen, SdkList.length, decide_eq_true_eq] at ready
  refine ⟨(set.frame ran).2.1, rfl, rfl, rfl, ?_, ?_⟩
  · rw [List.length_map]
    cases contents : tx.data.contents with
    | none =>
        have few := set.few contents
        rw [freeze, freezeWith_of_none contents] at ran
        rw [(set.unbuilt.current_of_freezeBase ran).2.2.2.2]
        omega
    | some bytes =>
        rw [transactions_freezeWith contents ran]
        exact Nat.zero_le _
  · intro none
    rw [List.map_eq_nil_iff] at none
    simp [none] at ready

/-- Something is frozen unless there are contents without a byte. -/
theorem NodesSet.isFrozen_iff (faithful : proto.Faithful) (set : NodesSet id tx)
    (ran : (freeze proto generated).run tx = (.ok (), frozen)) :
    frozen.isFrozen = true ↔ tx.data.contents ≠ some [] := by
  have grid := bodiesOf_freezeWith faithful set.unbuilt ran (set.frame ran).2.1
  have size := grid.size
  rw [List.length_map, (set.frame ran).1] at size
  have columns := List.length_pos_iff.mpr set.nodes
  rw [isFrozen, SdkList.length, size, decide_eq_true_eq, Nat.mul_pos_iff_of_pos_right columns]
  cases contents : tx.data.contents with
  | none =>
      rw [freeze, freezeWith_of_none contents] at ran
      have one := (set.unbuilt.current_of_freezeBase ran).2.2.1 (set.unbuilt.ids contents)
      simp [one]
  | some bytes =>
      rw [set.ids ran contents, length_chunkIds, TransactionData.chunks]
      constructor
      · rintro positive same
        cases same
        simp at positive
      · intro some
        exact requiredChunks_pos (List.length_pos_iff.mpr fun none => some (congrArg _ none)) _

/-- The ids are different on the wire exactly when those of chunks are. -/
theorem NodesSet.nodup_ids_iff (set : NodesSet id tx)
    (ran : (freeze proto generated).run tx = (.ok (), frozen)) :
    (frozen.transactionIds.list.map (TransactionId.toProtobuf proto.keys)).Nodup ↔
      ∀ contents, tx.data.contents = some contents → Spread tx.data.chunkInterval
        (if id = .withValidStart id.accountId id.validStart then tx.data.chunks contents
          else tx.data.chunks contents - 1) := by
  cases contents : tx.data.contents with
  | none =>
      rw [freeze, freezeWith_of_none contents] at ran
      have one := (set.unbuilt.current_of_freezeBase ran).2.2.1 (set.unbuilt.ids contents)
      obtain ⟨only, ids⟩ := List.length_eq_one_iff.mp one
      simp [ids]
  | some bytes =>
      rw [set.ids ran contents, nodup_chunkIds_iff]
      simp

end NodesSet

end HederaSdk.Transaction
