import HederaSdk.Transaction.FrozenCopies

/-!
# Signing copies of one transaction

The parties that sign a transaction each hold a copy of its bytes. A private key makes a map of its
signatures out of any copy, and the map is added to the others. Signatures are filed under the texts
of node id and transaction id, so a later body with the same texts takes the place of an earlier one.
-/

namespace HederaSdk

open Library

/-! ## Filling signature maps -/

abbrev NodeAccountIdSignatureMap := ObjectMap (ObjectMap Bytes)

/-- `NodeAccountIdSignatureMap.addSignature` -/
def NodeAccountIdSignatureMap.addSignature (signatures : NodeAccountIdSignatureMap) (txId : TransactionId)
    (publicKey : PublicKey) (signature : Bytes) : NodeAccountIdSignatureMap :=
  match signatures.get? txId.toString with
  | some pairs => signatures.set txId.toString (pairs.set publicKey.toString signature)
  | none => signatures.set txId.toString (OrderedMap.empty.set publicKey.toString signature)

abbrev BuiltSignatureMap := ObjectMap NodeAccountIdSignatureMap

/-- `SignatureMap.addSignature` -/
def BuiltSignatureMap.addSignature (signatures : BuiltSignatureMap) (nodeId : AccountId) (txId : TransactionId)
    (publicKey : PublicKey) (signature : Bytes) : BuiltSignatureMap :=
  signatures.set nodeId.toString
    (NodeAccountIdSignatureMap.addSignature ((signatures.get? nodeId.toString).getD .empty) txId publicKey
      signature)

namespace Transaction

theorem get?_addSignature (signatures : NodeAccountIdSignatureMap) (txId : TransactionId) (key : PublicKey)
    (signature : Bytes) (id : String) :
    ((NodeAccountIdSignatureMap.addSignature signatures txId key signature).get? id).bind
        (·.get? key.toString) =
      if txId.toString = id then some signature else (signatures.get? id).bind (·.get? key.toString) := by
  rw [NodeAccountIdSignatureMap.addSignature]
  split <;> by_cases same : txId.toString = id <;> simp [same]

theorem lookup_addSignature (signatures : BuiltSignatureMap) (nodeId : AccountId) (txId : TransactionId)
    (key : PublicKey) (signature : Bytes) (node id : String) :
    lookup (signatures.addSignature nodeId txId key signature) node id key.toString =
      if nodeId.toString = node ∧ txId.toString = id then some signature
      else lookup signatures node id key.toString := by
  rw [lookup, lookup, BuiltSignatureMap.addSignature, OrderedMap.get?_set]
  by_cases same : nodeId.toString = node
  · subst same
    rw [if_pos rfl, Option.bind_some, get?_addSignature]
    cases signatures.get? nodeId.toString <;> simp
  · simp [same]

section Signing

variable (proto : Proto)

/-- The ids of a body, the node id first. -/
def readNodeAndId (bodyBytes : Bytes) : Except JsError (AccountId × TransactionId) := do
  let body ← proto.decodeBody bodyBytes
  if (body.get "transactionID").isNullish || (body.get "nodeAccountID").isNullish then
    .error (.error "Transaction ID or Node Account ID not found in the signed transaction")
  else do
    let nodeId ← (AccountId.fromProtobuf proto.keys (body.get "nodeAccountID")).mapError
      JsError.error
    let transactionId ← (TransactionId.fromProtobuf proto.keys (body.get "transactionID")).mapError
      JsError.error
    .ok (nodeId, transactionId)

/-- The loop of `PrivateKey.signTransaction`. -/
def signBodies (key : PublicKey) (sign : Bytes → Bytes) :
    List SignedTransaction → BuiltSignatureMap → Except JsError BuiltSignatureMap
  | [], sigMap => .ok sigMap
  | signed :: rest, sigMap => do
      let (nodeId, transactionId) ← readNodeAndId proto signed.bodyBytes
      signBodies key sign rest
        (sigMap.addSignature nodeId transactionId key (sign signed.bodyBytes))

/-- `PrivateKey.signTransaction` of the private key that signs with `sign`. -/
def PrivateKey.signTransaction (key : PublicKey) (sign : Bytes → Bytes) (generated : Timestamp) :
    TransactionMethod BuiltSignatureMap := do
  let tx ← Method.this
  let sigMap ← Method.ofExcept (signBodies proto key sign tx.signedTransactions.list .empty)
  addSignature proto key (lookup sigMap) generated
  pure sigMap

end Signing

/-! ## What a key files -/

variable {proto : Proto} {key : PublicKey} {sign : Bytes → Bytes}

/-- The texts that the signatures of a body are filed under. -/
def idTexts (proto : Proto) (bodyBytes : Bytes) : Option (String × String) :=
  (readIds proto bodyBytes).toOption.map fun ids => (ids.2.toString, ids.1.toString)

/-- The map holds a signature for the texts of every body, each the signature of a body with them. -/
structure FilesAll (proto : Proto) (key : PublicKey) (sign : Bytes → Bytes) (bodies : List Bytes)
    (sigMap : BuiltSignatureMap) : Prop where
  own : ∀ node id signature, lookup sigMap node id key.toString = some signature →
    ∃ bodyBytes ∈ bodies, idTexts proto bodyBytes = some (node, id) ∧ signature = sign bodyBytes
  all : ∀ bodyBytes ∈ bodies, ∀ node id, idTexts proto bodyBytes = some (node, id) →
    ∃ signature, lookup sigMap node id key.toString = some signature

theorem files_empty : FilesAll proto key sign [] .empty where
  own node id signature found := by
    rw [lookup, OrderedMap.get?_empty] at found
    cases found
  all bodyBytes member := by cases member

theorem readNodeAndId_of_readIds {bodyBytes : Bytes} {id : TransactionId} {nodeId : AccountId}
    (read : readIds proto bodyBytes = .ok (id, nodeId)) : readNodeAndId proto bodyBytes = .ok (nodeId, id) := by
  obtain ⟨body, decoded, read⟩ := except_bind_eq_ok.mp read
  rw [readNodeAndId, decoded]
  change (if _ then _ else _) = _
  split at read
  · cases read
  · rename_i present
    obtain ⟨id', idRead, read⟩ := except_bind_eq_ok.mp read
    obtain ⟨node', nodeRead, read⟩ := except_bind_eq_ok.mp read
    cases read
    rw [if_neg present, nodeRead, idRead]
    rfl

/-- One more body is filed, over an earlier one with its texts. -/
theorem FilesAll.addSignature {bodies : List Bytes} {sigMap : BuiltSignatureMap}
    (files : FilesAll proto key sign bodies sigMap) {bodyBytes : Bytes} {id : TransactionId} {nodeId : AccountId}
    (read : readIds proto bodyBytes = .ok (id, nodeId)) :
    FilesAll proto key sign (bodies ++ [bodyBytes]) (sigMap.addSignature nodeId id key (sign bodyBytes)) where
  own node text signature found := by
    rw [lookup_addSignature] at found
    split at found
    · rename_i same
      cases found
      refine ⟨bodyBytes, by simp, ?_, rfl⟩
      rw [idTexts, read, ← same.1, ← same.2]
      rfl
    · obtain ⟨earlier, member, texts, signs⟩ := files.own node text signature found
      exact ⟨earlier, List.mem_append_left _ member, texts, signs⟩
  all other member node text texts := by
    rw [lookup_addSignature]
    split
    · exact ⟨_, rfl⟩
    · rename_i differs
      rcases List.mem_append.mp member with earlier | last
      · exact files.all other earlier node text texts
      · rw [List.mem_singleton.mp last, idTexts, read] at texts
        cases texts
        exact absurd ⟨rfl, rfl⟩ differs

theorem signBodies_returns {list : List SignedTransaction}
    (readable : ∀ signed ∈ list, ∃ ids, readIds proto signed.bodyBytes = .ok ids) {bodies : List Bytes}
    {sigMap : BuiltSignatureMap} (files : FilesAll proto key sign bodies sigMap) :
    ∃ made, signBodies proto key sign list sigMap = .ok made ∧
      FilesAll proto key sign (bodies ++ list.map SignedTransaction.bodyBytes) made := by
  induction list generalizing bodies sigMap with
  | nil => exact ⟨sigMap, rfl, by simpa using files⟩
  | cons signed rest inductionHypothesis =>
      obtain ⟨⟨id, nodeId⟩, read⟩ := readable signed List.mem_cons_self
      obtain ⟨made, ran, filed⟩ := inductionHypothesis
        (fun one member => readable one (List.mem_cons_of_mem _ member)) (files.addSignature read)
      refine ⟨made, ?_, by simpa using filed⟩
      rw [signBodies, readNodeAndId_of_readIds read]
      exact ran

/-- What was filed is found for every body. -/
theorem FilesAll.findSignature {bodies : List Bytes} {sigMap : BuiltSignatureMap}
    (files : FilesAll proto key sign bodies sigMap) {bodyBytes : Bytes} (member : bodyBytes ∈ bodies)
    (readable : ∃ ids, readIds proto bodyBytes = .ok ids) :
    ∃ other ∈ bodies, idTexts proto other = idTexts proto bodyBytes ∧
      Transaction.findSignature proto key (lookup sigMap) bodyBytes = .ok (sign other) := by
  obtain ⟨⟨id, nodeId⟩, read⟩ := readable
  have texts : idTexts proto bodyBytes = some (nodeId.toString, id.toString) := by
    rw [idTexts, read]
    rfl
  obtain ⟨signature, found⟩ := files.all bodyBytes member _ _ texts
  obtain ⟨other, inBodies, same, rfl⟩ := files.own _ _ _ found
  refine ⟨other, inBodies, same.trans texts.symm, ?_⟩
  rw [Transaction.findSignature, read]
  simp only [bind, Except.bind, found]

/-! ## Adding what was filed -/

/-- Bodies with the same texts get the same signature. -/
def Unambiguous (proto : Proto) (sign : Bytes → Bytes) (bodies : List Bytes) : Prop :=
  ∀ bodyBytes ∈ bodies, ∀ other ∈ bodies, idTexts proto other = idTexts proto bodyBytes →
    sign other = sign bodyBytes

/-- The signed transactions with one more pair, over the signature that a body is given. -/
def pairEach (key : PublicKey) (signature : Bytes → Bytes) (list : List SignedTransaction) :
    List SignedTransaction :=
  list.map fun signed => signed.addPair (key.toProtobufSignature (signature signed.bodyBytes))

theorem pairEach_eq_iff {signature : Bytes → Bytes} {list : List SignedTransaction} :
    pairEach key signature list = pairEach key sign list ↔
      ∀ signed ∈ list, signature signed.bodyBytes = sign signed.bodyBytes := by
  rw [pairEach, pairEach, List.map_inj_left]
  refine forall₂_congr fun signed _ => ⟨fun same => ?_, fun same => by rw [same]⟩
  have pairs := congrArg SignedTransaction.sigPair same
  simpa [PublicKey.toProtobufSignature] using pairs

theorem signEach_total (moment : Nat) (list : List SignedTransaction) :
    signEach key (fun _ message => .ok (sign message)) moment list = (.ok (), pairEach key sign list) := by
  induction list generalizing moment with
  | nil => rfl
  | cons signed rest inductionHypothesis =>
      rw [signEach]
      simp only [inductionHypothesis]
      rfl

theorem addEach_total {signatures : SignatureMap} {signature : Bytes → Bytes} {list : List SignedTransaction}
    (found : ∀ signed ∈ list, findSignature proto key signatures signed.bodyBytes =
      .ok (signature signed.bodyBytes)) :
    addEach proto key signatures list = (.ok (), pairEach key signature list) := by
  induction list with
  | nil => rfl
  | cons signed rest inductionHypothesis =>
      rw [List.forall_mem_cons] at found
      rw [addEach, found.1]
      simp only [inductionHypothesis found.2]
      rfl

/-- The pairs that a map adds to copies of the bodies are those of the key exactly when the bodies
are not ambiguous. -/
theorem FilesAll.addEach {bodies : List Bytes} {sigMap : BuiltSignatureMap}
    (files : FilesAll proto key sign bodies sigMap)
    (readable : ∀ bodyBytes ∈ bodies, ∃ ids, readIds proto bodyBytes = .ok ids)
    {list : List SignedTransaction} (same : list.map SignedTransaction.bodyBytes = bodies) :
    ∃ added, Transaction.addEach proto key (lookup sigMap) list = (.ok (), added) ∧
      (added = pairEach key sign list ↔ Unambiguous proto sign bodies) := by
  have finds := fun bodyBytes member =>
    @FilesAll.findSignature _ _ _ _ _ files bodyBytes member (readable bodyBytes member)
  let signature : Bytes → Bytes := fun bodyBytes =>
    (Transaction.findSignature proto key (lookup sigMap) bodyBytes).toOption.getD []
  have found : ∀ bodyBytes ∈ bodies,
      Transaction.findSignature proto key (lookup sigMap) bodyBytes = .ok (signature bodyBytes) := by
    intro bodyBytes member
    obtain ⟨other, _, _, finding⟩ := finds bodyBytes member
    simp [signature, finding, Except.toOption]
  have ofList : ∀ signed ∈ list, signed.bodyBytes ∈ bodies := fun signed member =>
    same ▸ List.mem_map_of_mem member
  refine ⟨_, addEach_total fun signed member => found _ (ofList signed member), ?_⟩
  rw [pairEach_eq_iff]
  constructor
  · intro own bodyBytes member other inBodies texts
    have ownAll : ∀ body ∈ bodies, signature body = sign body := by
      rw [← same]
      exact List.forall_mem_map.mpr own
    obtain ⟨⟨id, nodeId⟩, read⟩ := readable bodyBytes member
    obtain ⟨⟨id', nodeId'⟩, read'⟩ := readable other inBodies
    have alike : signature other = signature bodyBytes := by
      simp only [idTexts, read, read', Except.toOption, Option.map_some, Option.some.injEq,
        Prod.mk.injEq] at texts
      simp only [signature, Transaction.findSignature, read, read', bind, Except.bind, texts.1, texts.2]
    rw [← ownAll other inBodies, ← ownAll bodyBytes member, alike]
  · intro unambiguous signed member
    have inBodies := ofList signed member
    obtain ⟨other, there, texts, finding⟩ := finds _ inBodies
    rw [found _ inBodies, Except.ok.injEq] at finding
    exact finding.trans (unambiguous _ inBodies other there texts)

/-! ## Frozen bodies -/

/-- The bytes of a body with both ids. -/
def Encoded (proto : Proto) (bodyBytes : Bytes) : Prop :=
  ∃ (body : TransactionBody) (id : TransactionId) (nodeId : AccountId), body.transactionID = some id ∧
    body.nodeAccountID = some nodeId ∧ bodyBytes = proto.encodeBody body

theorem Encoded.readable (faithful : proto.Faithful) {bodyBytes : Bytes} (encoded : Encoded proto bodyBytes) :
    ∃ ids, readIds proto bodyBytes = .ok ids := by
  obtain ⟨body, id, nodeId, known, node, rfl⟩ := encoded
  exact ⟨_, readIds_encodeBody faithful known node⟩

theorem Encoded.ne_nil (faithful : proto.Faithful) {bodyBytes : Bytes} (encoded : Encoded proto bodyBytes) :
    bodyBytes ≠ [] := by
  obtain ⟨body, _, _, _, _, rfl⟩ := encoded
  exact faithful.encodeBody_ne body

/-- A signed transaction for a body with both ids, without signatures. -/
def JustMade (proto : Proto) (signed : SignedTransaction) : Prop :=
  Encoded proto signed.bodyBytes ∧ signed.sigPair = []

theorem ChunkPlan.justMade_rows (plan : ChunkPlan proto) {tx : Transaction} {first : Nat}
    {ids : List TransactionId} {signed : SignedTransaction} (member : signed ∈ plan.rows tx first ids) :
    JustMade proto signed := by
  induction ids generalizing first with
  | nil => cases member
  | cons id rest inductionHypothesis =>
      rw [ChunkPlan.rows, List.mem_append] at member
      rcases member with inRow | inRest
      · obtain ⟨nodeId, _, rfl⟩ := List.mem_map.mp inRow
        exact ⟨⟨_, id, nodeId, rfl, rfl, rfl⟩, rfl⟩
      · exact inductionHypothesis inRest

section Freezing

variable {client : Option Client} {picked : Except JsError (List AccountId)} {generated : Timestamp}
  {tx frozen : Transaction}

theorem justMade_of_freezeWith (unbuilt : Unbuilt tx)
    (ran : (freezeWith proto client picked generated).run tx = (.ok (), frozen))
    (immediate : frozen.signOnDemand = false) :
    ∀ signed ∈ frozen.signedTransactions.list, JustMade proto signed := by
  cases contents : tx.data.contents with
  | none =>
      rw [freezeWith_of_none contents] at ran
      obtain ⟨_, first, single, _, _⟩ := unbuilt.current_of_freezeBase ran
      obtain ⟨id, ids⟩ := List.length_eq_one_iff.mp (single (unbuilt.ids contents))
      have current : frozen.transactionIds.current = some id := by
        rw [SdkList.current, SdkList.get, first, ids]
        rfl
      rw [signed_of_freezeBase unbuilt.signed ran immediate]
      exact List.forall_mem_map.mpr fun nodeId _ => ⟨⟨_, id, nodeId, current, rfl, rfl⟩, rfl⟩
  | some data =>
      obtain ⟨based, basing, splits⟩ := freezeWith_eq_ok contents ran
      obtain ⟨plan, id, locked, _, ids, signed, _, _⟩ := splits.rows
      rw [signed]
      exact fun one member => plan.justMade_rows member

end Freezing

/-! ## Copies -/

/-- A copy of the bodies, which may be signed and shown. -/
def Copies (bodies : List Bytes) (tx : Transaction) : Prop :=
  ∃ ids nodes, Standing ids nodes bodies tx

theorem signed_of_noteAll (faithful : proto.Faithful) {list : List SignedTransaction}
    (filled : ∀ signed ∈ list, signed.bodyBytes ≠ []) {parsed parsed' : Parsed}
    (noted : noteAll proto (list.map proto.wrap) parsed = .ok parsed') :
    parsed'.signedTransactions = parsed.signedTransactions ++ list := by
  induction list generalizing parsed with
  | nil =>
      cases noted
      simp
  | cons signed rest inductionHypothesis =>
      rw [List.forall_mem_cons] at filled
      obtain ⟨next, noting, noted⟩ := except_bind_eq_ok.mp noted
      have encoded := faithful.encodeSigned_ne signed filled.1
      have bare : (proto.wrap signed).bodyBytes = [] := rfl
      rw [noteTransaction, noteBareBody, if_pos bare] at noting
      simp only [bind, Except.bind, noteSignedTransaction, Proto.wrap, if_neg encoded, faithful.signed] at noting
      obtain ⟨_, _, _, same⟩ := noteBody_eq_ok noting
      rw [inductionHypothesis filled.2 noted, same, List.append_assoc, List.singleton_append]

/-- What is read of the bytes of a copy is a copy. -/
theorem Standing.copy (faithful : proto.Faithful) {types : TypeReaders} {ids : List TransactionId}
    {nodes : List AccountId} {bodies : List Bytes} {tx copy : Transaction}
    (standing : Standing ids nodes bodies tx) (filled : ∀ bodyBytes ∈ bodies, bodyBytes ≠ [])
    (read : fromBytes proto types (proto.encodeList (tx.signedTransactions.list.map proto.wrap)) = .ok copy) :
    Copies bodies copy := by
  obtain ⟨list, parsed, listed, noted, loaded⟩ := fromBytes_eq_ok read
  have same := standing.atOnce.sameBodies
  have nonempty : tx.signedTransactions.list.map proto.wrap ≠ [] := by
    intro none
    rw [List.map_eq_nil_iff] at none
    rw [none] at same
    exact standing.atOnce.nonempty same.symm
  rw [readList, faithful.list] at listed
  simp only [bind, Except.bind, ne_eq, nonempty, not_false_eq_true, if_true, Except.ok.injEq] at listed
  subst listed
  have signed := signed_of_noteAll faithful
    (fun one member => filled _ (same ▸ List.mem_map_of_mem member)) noted
  have list : copy.signedTransactions.list = tx.signedTransactions.list := by
    rw [loaded.signedTransactions, signed]
    rfl
  refine ⟨_, _, ⟨loaded.signOnDemand, rfl, rfl, by rw [list, same], ?_, standing.atOnce.nonempty⟩, ?_⟩
  · rw [loaded.transactions, ← same]
    simp
  · rw [list]
    exact standing.keyed

section Copies

variable {bodies : List Bytes} {tx : Transaction}

theorem Copies.step {sha384 : Bytes → Bytes} (copies : Copies bodies tx) (call : FrozenCall) :
    Copies bodies (frozenStep proto sha384 tx call) := by
  obtain ⟨ids, nodes, standing⟩ := copies
  exact ⟨ids, nodes, standing.step call⟩

theorem Copies.toBytes (copies : Copies bodies tx) (now : Timestamp) :
    Copies bodies ((Transaction.toBytes proto now).run tx).2 := by
  have after : frozenStep proto id tx (.get (.toBytes now)) = ((Transaction.toBytes proto now).run tx).2 := by
    rw [frozenStep, FrozenCall.method, GetterCall.method]
    exact Method.run_bind_snd _ tx fun _ _ => rfl
  exact after ▸ copies.step _

theorem Copies.fromBytes (faithful : proto.Faithful) (filled : ∀ bodyBytes ∈ bodies, bodyBytes ≠ [])
    {types : TypeReaders} {now : Timestamp} {bytes : Bytes} {copy : Transaction} (copies : Copies bodies tx)
    (written : ((Transaction.toBytes proto now).run tx).1 = .ok bytes)
    (read : Transaction.fromBytes proto types bytes = .ok copy) : Copies bodies copy := by
  obtain ⟨ids, nodes, standing⟩ := copies
  rw [standing.atOnce.toBytes_eq_ok (Method.run_of_ok written)] at read
  exact standing.copy faithful filled read

theorem Copies.signTransaction (copies : Copies bodies tx) (key : PublicKey) (sign : Bytes → Bytes)
    (generated : Timestamp) :
    Copies bodies ((PrivateKey.signTransaction proto key sign generated).run tx).2 := by
  obtain ⟨ids, nodes, standing⟩ := copies
  have keeps : Method.Keeps (Standing ids nodes bodies)
      (PrivateKey.signTransaction proto key sign generated) :=
    .bind .this fun _ => .bind (.ofExcept _) fun sigMap =>
      .bind (Standing.keeps_addSignature key (lookup sigMap) generated) fun _ => .pure _
  exact ⟨ids, nodes, keeps tx standing⟩

/-- A map that a key makes of a copy files its signatures. -/
theorem Copies.files (copies : Copies bodies tx)
    (readable : ∀ bodyBytes ∈ bodies, ∃ ids, readIds proto bodyBytes = .ok ids) {generated : Timestamp}
    {sigMap : BuiltSignatureMap}
    (made : ((PrivateKey.signTransaction proto key sign generated).run tx).1 = .ok sigMap) :
    FilesAll proto key sign bodies sigMap := by
  obtain ⟨ids, nodes, standing⟩ := copies
  have same := standing.atOnce.sameBodies
  have readEach : ∀ signed ∈ tx.signedTransactions.list, ∃ ids, readIds proto signed.bodyBytes = .ok ids :=
    fun signed member => readable _ (same ▸ List.mem_map_of_mem member)
  obtain ⟨filed, signing, files⟩ := signBodies_returns readEach (@files_empty proto key sign)
  rw [List.nil_append, same] at files
  rw [PrivateKey.signTransaction, Method.run_this_bind, signing,
    Method.run_bind_ok (Method.run_ofExcept_ok _ _)] at made
  obtain ⟨_, _, _, last⟩ := Method.run_bind_eq_ok.mp (Method.run_of_ok made)
  cases last
  exact files

/-- The pairs that a map adds to a copy are those that the key makes there exactly when the bodies are
not ambiguous. -/
theorem FilesAll.addSignature_iff {sigMap : BuiltSignatureMap} (files : FilesAll proto key sign bodies sigMap)
    (readable : ∀ bodyBytes ∈ bodies, ∃ ids, readIds proto bodyBytes = .ok ids)
    (copies : Copies bodies tx) (unknown : key.hex ∉ tx.signerPublicKeys) (generated : Timestamp)
    (moment : Nat) :
    ∃ added, (Transaction.addSignature proto key (lookup sigMap) generated).run tx = (.ok (), added) ∧
      (added.signedTransactions.list = ((signWith key (fun _ message => .ok (sign message)) moment).run
        tx).2.signedTransactions.list ↔ Unambiguous proto sign bodies) := by
  obtain ⟨ids, nodes, standing⟩ := copies
  obtain ⟨list, ran, alike⟩ := files.addEach readable standing.atOnce.sameBodies
  have freezes := @run_freezeIfNeeded proto tx standing.atOnce.isFrozen generated
  refine ⟨noteAdded key (withSigned list (lockForSignature tx)), ?_, ?_⟩
  · rw [run_addSignature_unknown freezes unknown, ran]
  · rw [run_signWith_immediate standing.atOnce.frozen standing.atOnce.immediate unknown, signEach_total]
    exact alike

end Copies

/-! ## Circles of parties -/

/-- A map of signatures and the key that made it. -/
structure MadeMap where
  key : PublicKey
  sign : Bytes → Bytes
  sigMap : BuiltSignatureMap

/-- The copies that the parties hold, and the maps that they have made. -/
structure Circle where
  copies : List Transaction
  maps : List MadeMap

namespace Circle

/-- A party signs or shows its copy, hands the bytes of it to a new party, or makes a map of it. -/
inductive Call where
  | on (place : Nat) (call : FrozenCall)
  | hand (place : Nat) (now : Timestamp)
  | sign (place : Nat) (key : PublicKey) (sign : Bytes → Bytes) (generated : Timestamp)

/-- Calls that throw leave what they have done to the copy. -/
def step (proto : Proto) (types : TypeReaders) (sha384 : Bytes → Bytes) (circle : Circle) (call : Call) :
    Circle :=
  match call with
  | .on place call => match circle.copies[place]? with
      | none => circle
      | some tx => { circle with copies := circle.copies.set place (frozenStep proto sha384 tx call) }
  | .hand place now => match circle.copies[place]? with
      | none => circle
      | some tx =>
          let (written, after) := (toBytes proto now).run tx
          let read := written.bind (fromBytes proto types)
          { circle with copies := circle.copies.set place after ++ read.toOption.toList }
  | .sign place key sign generated => match circle.copies[place]? with
      | none => circle
      | some tx =>
          let (made, after) := (PrivateKey.signTransaction proto key sign generated).run tx
          { copies := circle.copies.set place after
            maps := circle.maps ++ made.toOption.toList.map fun sigMap => ⟨key, sign, sigMap⟩ }

/-- Every party holds a copy of the bodies, and every map files their signatures. -/
structure Shares (proto : Proto) (bodies : List Bytes) (circle : Circle) : Prop where
  copies : ∀ tx ∈ circle.copies, Copies bodies tx
  maps : ∀ made ∈ circle.maps, FilesAll proto made.key made.sign bodies made.sigMap

theorem Shares.set {bodies : List Bytes} {circle : Circle} (shares : Shares proto bodies circle)
    {after : Transaction} (copies : Copies bodies after) (place : Nat) :
    ∀ tx ∈ circle.copies.set place after, Copies bodies tx := by
  intro tx member
  rcases List.mem_or_eq_of_mem_set member with before | rfl
  · exact shares.copies tx before
  · exact copies

variable {types : TypeReaders} {sha384 : Bytes → Bytes}

theorem toOption_eq_some {α : Type} {result : Except JsError α} {a : α} :
    result.toOption = some a ↔ result = .ok a := by
  cases result <;> simp [Except.toOption]

theorem Shares.step (faithful : proto.Faithful) {bodies : List Bytes}
    (encoded : ∀ bodyBytes ∈ bodies, Encoded proto bodyBytes) {circle : Circle}
    (shares : Shares proto bodies circle) (call : Call) :
    Shares proto bodies (Circle.step proto types sha384 circle call) := by
  cases call with
  | on place call =>
      rw [Circle.step]
      split
      · exact shares
      · rename_i tx found
        exact ⟨shares.set ((shares.copies tx (List.mem_of_getElem? found)).step call) place, shares.maps⟩
  | hand place now =>
      rw [Circle.step]
      split
      · exact shares
      · rename_i tx found
        have copies := shares.copies tx (List.mem_of_getElem? found)
        refine ⟨fun one member => ?_, shares.maps⟩
        rcases List.mem_append.mp member with before | handed
        · exact shares.set (copies.toBytes now) place one before
        · rw [Option.mem_toList, toOption_eq_some] at handed
          obtain ⟨bytes, written, read⟩ := except_bind_eq_ok.mp handed
          exact copies.fromBytes faithful (fun bodyBytes inBodies =>
            (encoded bodyBytes inBodies).ne_nil faithful) written read
  | sign place key sign generated =>
      rw [Circle.step]
      split
      · exact shares
      · rename_i tx found
        have copies := shares.copies tx (List.mem_of_getElem? found)
        refine ⟨shares.set (copies.signTransaction key sign generated) place, fun made member => ?_⟩
        rcases List.mem_append.mp member with before | signed
        · exact shares.maps made before
        · obtain ⟨sigMap, returned, rfl⟩ := List.mem_map.mp signed
          rw [Option.mem_toList, toOption_eq_some] at returned
          exact copies.files (fun bodyBytes inBodies => (encoded bodyBytes inBodies).readable faithful)
            returned

end Circle

section Circles

variable {client : Option Client} {picked : Except JsError (List AccountId)} {frozenAt : Timestamp}
  {tx frozen : Transaction} {types : TypeReaders} {sha384 : Bytes → Bytes}

/-- The circle of the party that froze a transaction shares its bodies. -/
theorem shares_of_freezeWith (unbuilt : Unbuilt tx)
    (ran : (freezeWith proto client picked frozenAt).run tx = (.ok (), frozen))
    (ready : frozen.isFrozen = true) (immediate : frozen.signOnDemand = false)
    (fits : frozen.transactions.list.length ≤ frozen.signedTransactions.list.length) :
    Circle.Shares proto (frozen.signedTransactions.list.map SignedTransaction.bodyBytes) ⟨[frozen], []⟩ := by
  have made := justMade_of_freezeWith unbuilt ran immediate
  refine ⟨List.forall_mem_singleton.mpr ⟨_, _, ⟨immediate, rfl, rfl, rfl, ?_, ?_⟩, ?_⟩, by simp⟩
  · rwa [List.length_map]
  · rw [isFrozen, SdkList.length, decide_eq_true_eq] at ready
    intro none
    rw [List.map_eq_nil_iff] at none
    simp [none] at ready
  · intro signed member pair inPairs
    rw [(made signed member).2] at inPairs
    cases inPairs

/-- However copies of a frozen transaction are handed on, signed and shown, a map that a key made of
any of them is added to every one that lacks the key, and the pairs are those that the key would
make there exactly when no two bodies with the same texts get different signatures. -/
theorem madeMaps_sign_iff (faithful : proto.Faithful) (unbuilt : Unbuilt tx)
    (ran : (freezeWith proto client picked frozenAt).run tx = (.ok (), frozen))
    (ready : frozen.isFrozen = true) (immediate : frozen.signOnDemand = false)
    (fits : frozen.transactions.list.length ≤ frozen.signedTransactions.list.length)
    (calls : List Circle.Call) {made : MadeMap} {copy : Transaction}
    (inMaps : made ∈ (runAll (Circle.step proto types sha384) ⟨[frozen], []⟩ calls).maps)
    (inCopies : copy ∈ (runAll (Circle.step proto types sha384) ⟨[frozen], []⟩ calls).copies)
    (unknown : made.key.hex ∉ copy.signerPublicKeys) (generated : Timestamp) (moment : Nat) :
    ∃ added, (addSignature proto made.key (lookup made.sigMap) generated).run copy = (.ok (), added) ∧
      (added.signedTransactions.list =
          ((signWith made.key (fun _ message => .ok (made.sign message)) moment).run
            copy).2.signedTransactions.list ↔
        Unambiguous proto made.sign (frozen.signedTransactions.list.map SignedTransaction.bodyBytes)) := by
  have encoded : ∀ bodyBytes ∈ frozen.signedTransactions.list.map SignedTransaction.bodyBytes,
      Encoded proto bodyBytes :=
    List.forall_mem_map.mpr fun signed member =>
      (justMade_of_freezeWith unbuilt ran immediate signed member).1
  have shares := @runAll_invariant_all _ _ (Circle.step proto types sha384) _
    (fun _ call shares => shares.step faithful encoded call) _ calls
    (shares_of_freezeWith unbuilt ran ready immediate fits)
  exact (shares.maps made inMaps).addSignature_iff
    (fun bodyBytes member => (encoded bodyBytes member).readable faithful) (shares.copies copy inCopies)
    unknown generated moment

/-- The second party gets the bytes of a frozen transfer, and a key makes a map there. -/
def sampleCircle : Circle :=
  runAll (Circle.step prefixProto wholeMessage id) ⟨[frozenTransfer [3, 4]], []⟩
    [.hand 0 ⟨0, 0⟩, .sign 1 sampleKey (List.take 2) ⟨0, 0⟩]

/-- The copy of the party that froze the transfer. -/
def firstCopy : Transaction := (sampleCircle.copies[0]?).getD (sampleTransfer [])

theorem map_of_copy_signs : ∃ made ∈ sampleCircle.maps, ∃ added,
    (addSignature prefixProto made.key (lookup made.sigMap) ⟨0, 0⟩).run firstCopy = (.ok (), added) ∧
      (added.signedTransactions.list = ((signWith made.key (fun _ message => .ok (made.sign message)) 0).run
          firstCopy).2.signedTransactions.list ↔
        Unambiguous prefixProto made.sign
          ((frozenTransfer [3, 4]).signedTransactions.list.map SignedTransaction.bodyBytes)) := by
  have froze : ((freezeWith prefixProto none (.ok []) ⟨0, 0⟩).run (sampleTransfer [3, 4])).1 = .ok () := by
    decide +kernel
  have keys : sampleCircle.maps.map MadeMap.key = [sampleKey] := by decide +kernel
  obtain ⟨made, maps, isSample⟩ := List.map_eq_singleton_iff.mp keys
  have inMaps : made ∈ sampleCircle.maps := by simp [maps]
  have inCopies : firstCopy ∈ sampleCircle.copies := by
    have two : sampleCircle.copies.length = 2 := by decide +kernel
    rw [firstCopy, List.getElem?_eq_getElem (by omega)]
    exact List.getElem_mem _
  have unknown : made.key.hex ∉ firstCopy.signerPublicKeys := by
    rw [isSample]
    decide +kernel
  exact ⟨made, inMaps, madeMaps_sign_iff prefixProto_faithful (unbuilt_sampleTransfer [3, 4])
    (Method.run_of_ok froze) (by decide +kernel) (by decide +kernel) (by decide +kernel) _ inMaps inCopies
    unknown ⟨0, 0⟩ 0⟩

end Circles

end Transaction

end HederaSdk
