import HederaSdk.Library.Grid
import HederaSdk.Transaction.Validation

/-!
# Reading what the SDK writes

The lists that the SDK writes are grids of bodies: a row for each transaction id,
a column for each node. They are read back as they were: the ids of the rows and
the nodes of the columns, without what the wire drops, and the bodies. A row or a
column may be without an id, when none is set yet.
-/

namespace HederaSdk

open Library
open Js (Value Properties)

/-! ## Bodies -/

theorem Js.Properties.plain_consSome {key : String} {value : Option Value} {rest : Properties}
    (plain : ∀ v, value = some v → v.Plain) (plainRest : rest.Plain) :
    (Properties.consSome key value rest).Plain := by
  cases value with
  | none => exact plainRest
  | some v => exact ⟨plain v rfl, plainRest⟩

theorem Js.Properties.get_consSome (key : String) (value : Option Value) (rest : Properties)
    (k : String) : (Properties.consSome key value rest).get k =
      if key = k then value.getD (rest.get k) else rest.get k := by
  cases value with
  | none => simp [consSome]
  | some v => simp [consSome]

theorem Js.plain_bytes (data : Bytes) : (Value.bytes data).Plain := by
  have general : ∀ start, (Value.bytesFrom start data).Plain := by
    induction data with
    | nil => exact fun _ => trivial
    | cons b rest inductionHypothesis => exact fun start => ⟨trivial, inductionHypothesis _⟩
  exact general 0

theorem AccountId.plain_toProtobuf (keys : KeyCodec) (id : AccountId) : (id.toProtobuf keys).Plain := by
  obtain ⟨shard, realm, num, aliasKey, evmAddress, checksum⟩ := id
  cases aliasKey <;> cases evmAddress <;>
    simp [toProtobuf, Value.Plain, Properties.Plain, Value.long, Js.plain_bytes]

theorem TransactionId.plain_toProtobuf (keys : KeyCodec) (id : TransactionId) :
    (id.toProtobuf keys).Plain := by
  have account := AccountId.plain_toProtobuf keys id.accountId
  obtain ⟨accountId, validStart, scheduled, nonce⟩ := id
  cases nonce <;>
    simp [toProtobuf, Timestamp.toProtobuf, Value.Plain, Properties.Plain, Value.long, account]

theorem DataCase.name_ne (c : DataCase) : ∀ key ∈ ["transactionID", "nodeAccountID",
    "transactionFee", "transactionValidDuration", "memo"], key ≠ c.name := by
  cases c <;> decide

/-- The fields that every type of transaction has. -/
def TransactionBody.common (keys : KeyCodec) (body : TransactionBody) : List (String × Value) :=
  [("transactionID", (body.transactionID.map (TransactionId.toProtobuf keys)).getD .undefined),
    ("nodeAccountID", (body.nodeAccountID.map (AccountId.toProtobuf keys)).getD .undefined),
    ("transactionFee", (body.transactionFee.map (Value.long · true)).getD .undefined),
    ("transactionValidDuration",
      .object (.cons "seconds" (.long body.transactionValidDuration false) .nil)),
    ("memo", .string body.memo)]

theorem TransactionBody.get_common (keys : KeyCodec) (body : TransactionBody) :
    ∀ field ∈ body.common keys, (body.toObject keys).get field.1 = field.2 := by
  have own := body.dataCase.name_ne
  simp only [List.forall_mem_cons] at own
  obtain ⟨id, node, fee, duration, memo, _⟩ := own
  have first (key k : String) (value : Option Value) (rest : Properties) (other : key ≠ k) :
      (Properties.consSome key value rest).get k = rest.get k := by
    rw [Properties.get_consSome, if_neg other]
  have next (key k : String) (value : Value) (rest : Properties) (other : key ≠ k) :
      (Properties.cons key value rest).get k = rest.get k := by
    rw [Properties.get_cons, if_neg other]
  have ends (k : String) (other : k ≠ body.dataCase.name) :
      (Properties.cons body.dataCase.name body.data .nil).get k = .undefined := by
    rw [next _ _ _ _ other.symm]
    rfl
  rw [common, toObject]
  simp only [List.forall_mem_cons, List.not_mem_nil, false_implies, implies_true, and_true]
  refine ⟨?_, ?_, ?_, ?_, ?_⟩ <;> rw [Value.get_object]
  · rw [Properties.get_consSome, if_pos rfl, first _ _ _ _ (by decide), first _ _ _ _ (by decide),
      next _ _ _ _ (by decide), next _ _ _ _ (by decide), ends _ id]
  · rw [first _ _ _ _ (by decide), Properties.get_consSome, if_pos rfl, first _ _ _ _ (by decide),
      next _ _ _ _ (by decide), next _ _ _ _ (by decide), ends _ node]
  · rw [first _ _ _ _ (by decide), first _ _ _ _ (by decide), Properties.get_consSome, if_pos rfl,
      next _ _ _ _ (by decide), next _ _ _ _ (by decide), ends _ fee]
  · rw [first _ _ _ _ (by decide), first _ _ _ _ (by decide), first _ _ _ _ (by decide),
      Properties.get_cons, if_pos rfl]
  · rw [first _ _ _ _ (by decide), first _ _ _ _ (by decide), first _ _ _ _ (by decide),
      next _ _ _ _ (by decide), Properties.get_cons, if_pos rfl]

theorem TransactionBody.get_data (keys : KeyCodec) (body : TransactionBody) :
    (body.toObject keys).get body.dataCase.name = body.data := by
  have own := body.dataCase.name_ne
  simp only [List.forall_mem_cons] at own
  obtain ⟨id, node, fee, duration, memo, _⟩ := own
  obtain ⟨transactionID, nodeAccountID, transactionFee, _, _, _, _⟩ := body
  cases transactionID <;> cases nodeAccountID <;> cases transactionFee <;>
    simp [TransactionBody.toObject, Js.Properties.consSome, id, node, fee, duration, memo]

/-- A body is plain when its data is. -/
theorem TransactionBody.plain_toObject (keys : KeyCodec) {body : TransactionBody}
    (plain : body.data.Plain) : (body.toObject keys).Plain := by
  refine Properties.plain_consSome ?_ (Properties.plain_consSome ?_ (Properties.plain_consSome ?_ ?_))
  · intro v set
    obtain ⟨id, _, rfl⟩ := Option.map_eq_some_iff.mp set
    exact id.plain_toProtobuf keys
  · intro v set
    obtain ⟨id, _, rfl⟩ := Option.map_eq_some_iff.mp set
    exact id.plain_toProtobuf keys
  · intro v set
    obtain ⟨fee, _, rfl⟩ := Option.map_eq_some_iff.mp set
    exact ⟨trivial, trivial, trivial, trivial⟩
  · exact ⟨⟨⟨trivial, trivial, trivial, trivial⟩, trivial⟩, trivial, plain, trivial⟩

namespace Transaction

variable {proto : Proto}

/-- Bodies for two nodes that are one otherwise agree. -/
theorem agree_of_withNode (keys : KeyCodec) {body other : TransactionBody} {nodeId otherId : AccountId}
    (node : body.nodeAccountID = some nodeId) (otherNode : other.nodeAccountID = some otherId)
    (same : other = { body with nodeAccountID := some otherId }) :
    Agree (body.toObject keys) (other.toObject keys) := by
  subst same
  obtain ⟨transactionID, _, transactionFee, _, _, _, _⟩ := body
  cases node
  cases transactionID <;> cases transactionFee <;>
    simp [Agree, TransactionBody.toObject, Properties.consSome, Value.without, Properties.without]

theorem compareNeighbours_ok {bodies : List Value} {p : Nat} (plain : ∀ body ∈ bodies, body.Plain)
    (inside : p + 1 < bodies.length) (agree : Agree (bodyAt bodies p) (bodyAt bodies (p + 1))) :
    compareNeighbours bodies p = .ok () := by
  have plainAt : ∀ q, q < bodies.length → (bodyAt bodies q).Plain := by
    intro q there
    rw [bodyAt, List.getElem?_eq_getElem there]
    exact plain _ (List.getElem_mem there)
  rw [compareNeighbours, Js.compare_of_without_eq _ _ _ (plainAt p (by omega)) (plainAt (p + 1) inside)
    agree]

/-! ## Entries of a list -/

/-- An entry of a list: an unsigned transaction as it stands, or a signed one. -/
inductive Carries (proto : Proto) : ProtoTransaction → TransactionBody → List SignedTransaction → Prop
  | bare (body : TransactionBody) (sigMap : Option (List SignaturePair)) :
      Carries proto (incomplete ⟨proto.encodeBody body, sigMap⟩) body []
  | signed (body : TransactionBody) (sigMap : Option (List SignaturePair)) :
      Carries proto (proto.wrap ⟨proto.encodeBody body, sigMap⟩) body
        [⟨proto.encodeBody body, sigMap⟩]

/-- What is read of bodies. -/
def Parsed.readMore (keys : KeyCodec) (bodies : List TransactionBody) (signed : List SignedTransaction)
    (parsed : Parsed) : Parsed where
  signedTransactions := parsed.signedTransactions ++ signed
  transactionIds := ((bodies.filterMap TransactionBody.transactionID).map TransactionId.onWire).foldl
    (noteId TransactionId.toString) parsed.transactionIds
  nodeIds := ((bodies.filterMap TransactionBody.nodeAccountID).map AccountId.onWire).foldl
    (noteId AccountId.toString) parsed.nodeIds
  bodies := parsed.bodies ++ bodies.map (TransactionBody.toObject keys)

theorem Parsed.readMore_nil (keys : KeyCodec) (parsed : Parsed) : parsed.readMore keys [] [] = parsed := by
  simp [readMore]

theorem Parsed.readMore_cons (keys : KeyCodec) (body : TransactionBody) (rest : List TransactionBody)
    (signed more : List SignedTransaction) (parsed : Parsed) :
    (parsed.readMore keys [body] signed).readMore keys rest more =
      parsed.readMore keys (body :: rest) (signed ++ more) := by
  obtain ⟨transactionID, nodeAccountID, _, _, _, _, _⟩ := body
  cases transactionID <;> cases nodeAccountID <;> simp [readMore]

theorem noteTransactionId_toObject (faithful : proto.Faithful) (body : TransactionBody)
    (ids : List TransactionId) :
    noteTransactionId proto (body.toObject proto.keys) ids =
      .ok ((body.transactionID.toList.map TransactionId.onWire).foldl
        (noteId TransactionId.toString) ids) := by
  have field := body.get_common proto.keys ("transactionID", _) List.mem_cons_self
  rw [noteTransactionId, field]
  cases body.transactionID with
  | none => rfl
  | some id =>
      have set : (id.toProtobuf proto.keys).isNullish = false := rfl
      simp [set, TransactionId.fromProtobuf_toProtobuf faithful.keys]

theorem noteNodeId_toObject (faithful : proto.Faithful) (body : TransactionBody)
    (ids : List AccountId) :
    noteNodeId proto (body.toObject proto.keys) ids =
      .ok ((body.nodeAccountID.toList.map AccountId.onWire).foldl
        (noteId AccountId.toString) ids) := by
  have field := body.get_common proto.keys ("nodeAccountID", _)
    (List.mem_cons_of_mem _ List.mem_cons_self)
  rw [noteNodeId, field]
  cases body.nodeAccountID with
  | none => rfl
  | some id =>
      have set : (id.toProtobuf proto.keys).isNullish = false := rfl
      simp [set, AccountId.fromProtobuf_toProtobuf faithful.keys]

theorem noteBody_encodeBody (faithful : proto.Faithful) (body : TransactionBody) (parsed : Parsed) :
    noteBody proto (proto.encodeBody body) parsed = .ok (parsed.readMore proto.keys [body] []) := by
  rw [noteBody, faithful.body]
  simp only [bind, Except.bind, noteTransactionId_toObject faithful, noteNodeId_toObject faithful,
    faithful.dataCase, Option.isNone_some, Bool.false_eq_true, if_false]
  cases id : body.transactionID <;> cases node : body.nodeAccountID <;>
    simp [Parsed.readMore, id, node]

theorem noteTransaction_carries (faithful : proto.Faithful) {transaction : ProtoTransaction}
    {body : TransactionBody} {signed : List SignedTransaction}
    (carries : Carries proto transaction body signed) (parsed : Parsed) :
    noteTransaction proto transaction parsed = .ok (parsed.readMore proto.keys [body] signed) := by
  have filled := faithful.encodeBody_ne body
  cases carries with
  | bare body sigMap =>
      simp only [noteTransaction, noteBareBody, incomplete, if_neg filled,
        noteBody_encodeBody faithful, bind, Except.bind, noteSignedTransaction, if_true]
  | signed body sigMap =>
      have encoded : (proto.wrap ⟨proto.encodeBody body, sigMap⟩).signedTransactionBytes ≠ [] :=
        faithful.encodeSigned_ne _ filled
      have unfilled : (proto.wrap ⟨proto.encodeBody body, sigMap⟩).bodyBytes = [] := rfl
      rw [noteTransaction, noteBareBody, if_pos unfilled]
      simp only [bind, Except.bind, noteSignedTransaction, if_neg encoded]
      simp only [Proto.wrap, faithful.signed, noteBody_encodeBody faithful]
      simp [Parsed.readMore]

/-- The entries of a list, with their bodies and the signed transactions among them. -/
inductive CarriesAll (proto : Proto) :
    List ProtoTransaction → List TransactionBody → List SignedTransaction → Prop
  | nil : CarriesAll proto [] [] []
  | cons {transaction : ProtoTransaction} {body : TransactionBody} {signed : List SignedTransaction}
      {list : List ProtoTransaction} {bodies : List TransactionBody} {rest : List SignedTransaction} :
      Carries proto transaction body signed → CarriesAll proto list bodies rest →
      CarriesAll proto (transaction :: list) (body :: bodies) (signed ++ rest)

/-- A body as it stands in the list of an incomplete transaction. -/
def bare (proto : Proto) (body : TransactionBody) : ProtoTransaction :=
  incomplete ⟨proto.encodeBody body, some []⟩

theorem carriesAll_bare (proto : Proto) (bodies : List TransactionBody) :
    CarriesAll proto (bodies.map (bare proto)) bodies [] := by
  induction bodies with
  | nil => exact .nil
  | cons body rest inductionHypothesis => exact .cons (.bare body (some [])) inductionHypothesis

theorem carriesAll_signed {signed : List SignedTransaction} {bodies : List TransactionBody}
    (made : signed.map SignedTransaction.bodyBytes = bodies.map proto.encodeBody) :
    CarriesAll proto (signed.map proto.wrap) bodies signed := by
  induction signed generalizing bodies with
  | nil =>
      obtain rfl : bodies = [] := by simpa using made.symm
      exact .nil
  | cons one rest inductionHypothesis =>
      cases bodies with
      | nil => simp at made
      | cons body bodies =>
          obtain ⟨bytes, sigMap⟩ := one
          simp only [List.map_cons, List.cons.injEq] at made
          obtain ⟨rfl, others⟩ := made
          exact @CarriesAll.cons _ _ _ [_] _ _ _ (.signed body sigMap) (inductionHypothesis others)

theorem noteAll_carries (faithful : proto.Faithful) {list : List ProtoTransaction}
    {bodies : List TransactionBody} {signed : List SignedTransaction}
    (carries : CarriesAll proto list bodies signed) (parsed : Parsed) :
    noteAll proto list parsed = .ok (parsed.readMore proto.keys bodies signed) := by
  induction carries generalizing parsed with
  | nil => rw [Parsed.readMore_nil, noteAll]
  | cons first _ inductionHypothesis =>
      rw [noteAll, noteTransaction_carries faithful first]
      change noteAll proto _ _ = _
      rw [inductionHypothesis, Parsed.readMore_cons]

/-! ## Grids of bodies -/

/-- The elements, or a place without one when there is none. -/
def orNone {α : Type} (l : List α) : List (Option α) := if l.isEmpty then [none] else l.map some

theorem orNone_ne_nil {α : Type} (l : List α) : orNone l ≠ [] := by
  cases l <;> simp [orNone]

theorem filterMap_orNone {α : Type} (l : List α) : (orNone l).filterMap id = l := by
  cases l with
  | nil => rfl
  | cons a rest => simp [orNone]

/-- The bodies of a transaction: a row for each id, a column for each node. -/
structure BodyGrid where
  ids : List TransactionId
  nodes : List AccountId
  body : Nat → Option TransactionId → Option AccountId → TransactionBody

namespace BodyGrid

variable (bodies : BodyGrid)

def cells : List TransactionBody :=
  grid (fun row node => bodies.body row.2 row.1 node) (orNone bodies.ids).zipIdx (orNone bodies.nodes)

/-- The bodies are for the ids and nodes of their places, and those of a row are the same
but for the node. -/
structure Sound : Prop where
  id : ∀ row id node, (bodies.body row id node).transactionID = id
  node : ∀ row id node, (bodies.body row id node).nodeAccountID = node
  same : ∀ row id nodeId otherId, bodies.body row id (some otherId) =
    { bodies.body row id (some nodeId) with nodeAccountID := some otherId }
  plain : ∀ row id node, (bodies.body row id node).data.Plain
  nodes : (bodies.nodes.map AccountId.toString).Nodup

variable {bodies}

/-- The ids that are read: equal ones count as one. -/
def readIds (bodies : BodyGrid) : List TransactionId :=
  distinct TransactionId.toString (bodies.ids.map TransactionId.onWire)

theorem readIds_of_nodup (different : (bodies.ids.map fun id => id.onWire.toString).Nodup) :
    bodies.readIds = bodies.ids.map TransactionId.onWire :=
  distinct_of_nodup (by rwa [List.map_map])

theorem length_readIds_le (bodies : BodyGrid) : bodies.readIds.length ≤ bodies.ids.length := by
  have bound : (distinct TransactionId.toString (bodies.ids.map TransactionId.onWire)).length ≤ _ :=
    length_distinct_le _
  rwa [List.length_map] at bound

theorem transactionIds (sound : bodies.Sound) : ((bodies.cells.filterMap TransactionBody.transactionID).map
    TransactionId.onWire).foldl (noteId TransactionId.toString) [] = bodies.readIds := by
  have rows : (orNone bodies.ids).zipIdx.filterMap Prod.fst = bodies.ids := by
    have firsts : (orNone bodies.ids).zipIdx.filterMap Prod.fst =
        ((orNone bodies.ids).zipIdx.map Prod.fst).filterMap id := by rw [List.filterMap_map]; rfl
    rw [firsts, List.zipIdx_map_fst, filterMap_orNone]
  have read := @Grid.filterMap_grid_rows _ _ _ _ TransactionBody.transactionID _ Prod.fst
    (fun row node => sound.id row.2 row.1 node) (orNone bodies.ids).zipIdx (orNone bodies.nodes)
  rw [cells, read, rows, Grid.map_grid, ← Grid.grid_map_rows TransactionId.onWire (fun d _ => d)]
  exact distinct_rows _ (orNone_ne_nil _)

theorem nodeIds (sound : bodies.Sound) : ((bodies.cells.filterMap TransactionBody.nodeAccountID).map
    AccountId.onWire).foldl (noteId AccountId.toString) [] = bodies.nodes.map AccountId.onWire := by
  have read := @Grid.filterMap_grid_columns _ _ _ _ TransactionBody.nodeAccountID _ id
    (fun row node => sound.node row.2 row.1 node) (orNone bodies.ids).zipIdx (orNone bodies.nodes)
  have rows : (orNone bodies.ids).zipIdx ≠ [] := by simpa using orNone_ne_nil bodies.ids
  rw [cells, read, filterMap_orNone, Grid.map_grid,
    ← Grid.grid_map_columns AccountId.onWire (fun _ d => d)]
  refine distinct_columns ?_ rows
  rw [List.map_map, show AccountId.toString ∘ AccountId.onWire = AccountId.toString from
    funext AccountId.toString_onWire]
  exact sound.nodes

/-- The cell in a row and a column that have an id and a node. -/
theorem cell_at {i j : Nat} {id : TransactionId} {nodeId : AccountId} (inRow : bodies.ids[i]? = some id)
    (inColumn : bodies.nodes[j]? = some nodeId) :
    bodies.cells[i * bodies.nodes.length + j]? = some (bodies.body i (some id) (some nodeId)) := by
  have ids : bodies.ids.isEmpty = false := by
    cases set : bodies.ids with
    | nil => simp [set] at inRow
    | cons a rest => rfl
  have nodes : bodies.nodes.isEmpty = false := by
    cases set : bodies.nodes with
    | nil => simp [set] at inColumn
    | cons a rest => rfl
  have row : (orNone bodies.ids).zipIdx[i]? = some (some id, i) := by
    simp [orNone, ids, inRow]
  have column : (orNone bodies.nodes)[j]? = some (some nodeId) := by
    simp [orNone, nodes, inColumn]
  have width : (orNone bodies.nodes).length = bodies.nodes.length := by simp [orNone, nodes]
  have cell := Grid.grid_at (fun row node => bodies.body row.2 row.1 node) row column
  rw [width] at cell
  exact cell

theorem length_cells (bodies : BodyGrid) :
    bodies.cells.length = (orNone bodies.ids).length * (orNone bodies.nodes).length := by
  rw [cells, Grid.length_grid, List.length_zipIdx]

theorem cells_ne_nil (bodies : BodyGrid) : bodies.cells ≠ [] := by
  intro none
  have count := bodies.length_cells
  have rows := List.length_pos_iff.mpr (orNone_ne_nil bodies.ids)
  have columns := List.length_pos_iff.mpr (orNone_ne_nil bodies.nodes)
  have cells := Nat.mul_pos rows columns
  rw [none, List.length_nil] at count
  omega

theorem plain_cells (sound : bodies.Sound) (keys : KeyCodec) :
    ∀ body ∈ bodies.cells.map (TransactionBody.toObject keys), body.Plain := by
  intro value member
  obtain ⟨body, inCells, rfl⟩ := List.mem_map.mp member
  obtain ⟨row, _, node, _, rfl⟩ := Grid.mem_grid.mp inCells
  exact TransactionBody.plain_toObject keys (sound.plain _ _ _)

/-- What is read passes its own check. -/
theorem validate_cells (sound : bodies.Sound) (keys : KeyCodec) :
    validateBodies (bodies.cells.map (TransactionBody.toObject keys)) bodies.readIds.length
      bodies.nodes.length = .ok () := by
  refine except_forM_eq_ok.mpr fun p compared => ?_
  obtain ⟨i, inRow, j, inColumn, rfl⟩ := mem_comparedPositions.mp compared
  replace inRow := inRow.trans_le bodies.length_readIds_le
  have id := List.getElem?_eq_getElem inRow
  have node := List.getElem?_eq_getElem (show j < bodies.nodes.length by omega)
  have next := List.getElem?_eq_getElem (show j + 1 < bodies.nodes.length by omega)
  have cell := cell_at id node
  have neighbour := cell_at id next
  have inside := (List.getElem?_eq_some_iff.mp neighbour).1
  refine compareNeighbours_ok (plain_cells sound keys) (by rw [List.length_map]; omega) ?_
  rw [bodyAt, bodyAt, List.getElem?_map, List.getElem?_map, cell, Nat.add_assoc, neighbour]
  exact agree_of_withNode keys (sound.node _ _ _) (sound.node _ _ _) (sound.same _ _ _ _)

/-- What is read from a list of the bodies. -/
def parsed (keys : KeyCodec) (signed : List SignedTransaction) (bodies : BodyGrid) : Parsed where
  signedTransactions := signed
  transactionIds := bodies.readIds
  nodeIds := bodies.nodes.map AccountId.onWire
  bodies := bodies.cells.map (TransactionBody.toObject keys)

theorem noteAll_cells (faithful : proto.Faithful) (sound : bodies.Sound)
    {list : List ProtoTransaction} {signed : List SignedTransaction}
    (carries : CarriesAll proto list bodies.cells signed) :
    noteAll proto list {} = .ok (bodies.parsed proto.keys signed) := by
  rw [noteAll_carries faithful carries, Parsed.readMore, transactionIds sound, nodeIds sound]
  rfl

/-- A list of the bodies is read by the class of their type. -/
theorem fromBytes_cells (faithful : proto.Faithful) (sound : bodies.Sound) {types : TypeReaders}
    {list : List ProtoTransaction} {signed : List SignedTransaction}
    (carries : CarriesAll proto list bodies.cells signed) {dataCase : DataCase}
    (type : ∀ row id node, (bodies.body row id node).dataCase = dataCase) :
    fromBytes proto types (proto.encodeList list) =
      readTransaction proto types dataCase list (bodies.parsed proto.keys signed) := by
  have nonempty : list ≠ [] := by
    rintro rfl
    generalize none : bodies.cells = cells at carries
    cases carries
    exact bodies.cells_ne_nil none
  have read : readList proto (proto.encodeList list) = .ok list := by
    rw [readList, faithful.list]
    simp only [bind, Except.bind, ne_eq, nonempty, not_false_eq_true, if_true]
  obtain ⟨body, rest, cells⟩ := List.exists_cons_of_ne_nil bodies.cells_ne_nil
  have first : bodyAt (bodies.parsed proto.keys signed).bodies 0 = body.toObject proto.keys := by
    simp [parsed, bodyAt, cells]
  have case : body.dataCase = dataCase := by
    have member : body ∈ bodies.cells := cells ▸ List.mem_cons_self
    obtain ⟨row, _, node, _, rfl⟩ := Grid.mem_grid.mp member
    exact type _ _ _
  rw [fromBytes, read]
  simp only [bind, Except.bind, noteAll_cells faithful sound carries, first, faithful.dataCase, case,
    DataCase.ofName?_name]

/-- The nodes of the bodies that a loaded transaction is for. -/
def readNodes (bodies : BodyGrid) : List AccountId :=
  (bodies.nodes.map AccountId.onWire).filter fun id => !id.equals (.ofNum 0)

/-- A transaction that was loaded from a list of the bodies, but for its signers. -/
def loaded (keys : KeyCodec) (list : List ProtoTransaction) (signed : List SignedTransaction)
    (bodies : BodyGrid) (tx : Transaction) : Transaction :=
  { tx with
    transactions := { list := list.map some }
    signedTransactions := { list := signed }
    transactionIds := { list := bodies.readIds }
    nodeAccountIds := { list := bodies.readNodes }
    transactionValidDuration := readValidDuration (bodyAt (bodies.parsed keys signed).bodies 0)
    maxTransactionFee := readTransactionFee (bodyAt (bodies.parsed keys signed).bodies 0)
    transactionMemo := ((bodyAt (bodies.parsed keys signed).bodies 0).get "memo").toString?.getD "" }

theorem fromProtobufTransactions_cells (sound : bodies.Sound) {list : List ProtoTransaction}
    {signed : List SignedTransaction} {pairs : Nat → List SignaturePair}
    (reads : ∀ i < bodies.readNodes.length, pairsAt list signed i = .ok (pairs i)) (tx : Transaction) :
    fromProtobufTransactions proto tx list (bodies.parsed proto.keys signed) =
      noteSigners proto ((List.range bodies.readNodes.length).map pairs).flatten
        (bodies.loaded proto.keys list signed tx) := by
  have valid : validateBodies (bodies.parsed proto.keys signed).bodies
      (bodies.parsed proto.keys signed).transactionIds.length
      (bodies.parsed proto.keys signed).nodeIds.length = .ok () := by
    simpa [parsed] using validate_cells sound proto.keys
  have rows : (List.range bodies.readNodes.length).mapM (pairsAt list signed) =
      .ok ((List.range bodies.readNodes.length).map pairs) :=
    except_mapM_ok fun i inside => reads i (List.mem_range.mp inside)
  have nodes : (bodies.parsed proto.keys signed).nodeIds.filter (fun id => !id.equals (.ofNum 0)) =
      bodies.readNodes := rfl
  have signedIs : (bodies.parsed proto.keys signed).signedTransactions = signed := rfl
  simp only [fromProtobufTransactions, valid, bind, Except.bind, nodes, signedIs, rows]
  rfl

/-- A bare list has no signers. -/
theorem fromProtobufTransactions_bare (sound : bodies.Sound) (tx : Transaction) :
    fromProtobufTransactions proto tx (bodies.cells.map (bare proto)) (bodies.parsed proto.keys []) =
      .ok (bodies.loaded proto.keys (bodies.cells.map (bare proto)) [] tx) := by
  have unsigned : ∀ i < bodies.readNodes.length,
      pairsAt (bodies.cells.map (bare proto)) [] i = .ok [] := by
    intro i inside
    have columns : bodies.readNodes.length ≤ (orNone bodies.nodes).length := by
      refine (List.length_filter_le _ _).trans ?_
      rw [List.length_map]
      cases nodes : bodies.nodes <;> simp [orNone]
    have rows := List.length_pos_iff.mpr (orNone_ne_nil bodies.ids)
    have count := bodies.length_cells
    have wide := Nat.le_mul_of_pos_left (orNone bodies.nodes).length rows
    have within : i < bodies.cells.length := by omega
    simp [pairsAt, bare, incomplete, List.getElem?_eq_getElem within]
  rw [fromProtobufTransactions_cells sound unsigned]
  have none : ((List.range bodies.readNodes.length).map fun _ => ([] : List SignaturePair)).flatten =
      [] := by simp
  rw [none]
  rfl

end BodyGrid

end Transaction

end HederaSdk
