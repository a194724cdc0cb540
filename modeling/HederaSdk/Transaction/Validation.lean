import HederaSdk.Transaction.FromBytes
import HederaSdk.Transaction.PrefixProto
import Mathlib.Data.Finset.Lattice.Lemmas

/-!
# What the validation of a loaded transaction ensures

The grid of bodies has as many rows as there are different transaction ids and
as many columns as there are different node ids. Comparing neighbours makes each
row agree with its head. Nothing relates the heads of two rows, and a body
behind the grid is compared with none.
-/

namespace HederaSdk.Transaction

open Library
open Js (Value)

/-- The bodies differ in nothing but the node they are for. -/
def Agree (body other : Value) : Prop :=
  body.without ["nodeAccountID"] = other.without ["nodeAccountID"]

instance (body other : Value) : Decidable (Agree body other) :=
  inferInstanceAs (Decidable (_ = _))

/-! ## The grid -/

theorem mem_comparedPositions {rows columns p : Nat} :
    p ∈ comparedPositions rows columns ↔
      ∃ i < rows, ∃ j < columns - 1, i * columns + j = p := by
  simp [comparedPositions]

theorem agree_of_compareNeighbours {bodies : List Value} {p : Nat}
    (accepted : compareNeighbours bodies p = .ok ()) :
    Agree (bodyAt bodies p) (bodyAt bodies (p + 1)) := by
  unfold compareNeighbours at accepted
  split at accepted <;> try cases accepted
  exact Js.without_eq_of_compare _ _ _ ‹_›

/-- The first position of the row of a position; a position behind the grid is its own. -/
def rowHead (rows columns p : Nat) : Nat := if p < rows * columns then p - p % columns else p

theorem agree_rowHead {bodies : List Value} {rows columns : Nat}
    (valid : validateBodies bodies rows columns = .ok ()) (p : Nat) :
    Agree (bodyAt bodies p) (bodyAt bodies (rowHead rows columns p)) := by
  have neighbours := except_forM_eq_ok.mp valid
  unfold rowHead
  split
  · rename_i inGrid
    have columnsPos : 0 < columns := by
      by_contra none
      simp [Nat.eq_zero_of_not_pos none] at inGrid
    have row : p / columns < rows := Nat.div_lt_of_lt_mul (by rwa [Nat.mul_comm])
    have along : ∀ j, j < columns → Agree (bodyAt bodies (p / columns * columns + j))
        (bodyAt bodies (p / columns * columns)) := by
      intro j inRow
      induction j with
      | zero => rfl
      | succ j inductionHypothesis =>
          have compared : p / columns * columns + j ∈ comparedPositions rows columns :=
            mem_comparedPositions.mpr ⟨p / columns, row, j, by omega, rfl⟩
          exact (agree_of_compareNeighbours (neighbours _ compared)).symm.trans
            (inductionHypothesis (by omega))
    have split : p / columns * columns + p % columns = p := Nat.div_add_mod' p columns
    have head := along (p % columns) (Nat.mod_lt _ columnsPos)
    rw [split] at head
    rwa [show p - p % columns = p / columns * columns by omega]
  · rfl

/-! ## The bodies of the signed transactions -/

/-- The positions of the bodies that come from signed transactions. -/
def signedPositions : List ProtoTransaction → Nat → List Nat
  | [], _ => []
  | transaction :: rest, p =>
      let p := if transaction.bodyBytes = [] then p else p + 1
      if transaction.signedTransactionBytes = [] then signedPositions rest p
      else p :: signedPositions rest (p + 1)

variable {proto : Proto}

/-- The body at the position is the one of the signed transaction. -/
def BodyOf (proto : Proto) (bodies : List Value) (signed : SignedTransaction) (p : Nat) : Prop :=
  proto.decodeBody signed.bodyBytes = .ok (bodyAt bodies p)

theorem bodyAt_append_left {bodies more : List Value} {p : Nat} (inside : p < bodies.length) :
    bodyAt (bodies ++ more) p = bodyAt bodies p := by
  rw [bodyAt, List.getElem?_append_left inside, bodyAt]

theorem bodyAt_concat (bodies more : List Value) (body : Value) :
    bodyAt (bodies ++ [body] ++ more) bodies.length = body := by
  simp [bodyAt]

theorem noteBody_eq_ok {bodyBytes : Bytes} {parsed parsed' : Parsed}
    (noted : noteBody proto bodyBytes parsed = .ok parsed') :
    ∃ body, proto.decodeBody bodyBytes = .ok body ∧ parsed'.bodies = parsed.bodies ++ [body] ∧
      parsed'.signedTransactions = parsed.signedTransactions := by
  obtain ⟨body, decoded, noted⟩ := except_bind_eq_ok.mp noted
  obtain ⟨transactionIds, _, noted⟩ := except_bind_eq_ok.mp noted
  obtain ⟨nodeIds, _, noted⟩ := except_bind_eq_ok.mp noted
  split at noted <;> cases noted
  exact ⟨body, decoded, rfl, rfl⟩

/-- A transaction in the list adds its bodies, the one of its signed transaction last. -/
theorem noteTransaction_eq_ok {transaction : ProtoTransaction} {parsed parsed' : Parsed}
    (noted : noteTransaction proto transaction parsed = .ok parsed') :
    let p := if transaction.bodyBytes = [] then parsed.bodies.length else parsed.bodies.length + 1
    ∃ bodies, parsed'.bodies = parsed.bodies ++ bodies ∧
      if transaction.signedTransactionBytes = [] then
        parsed'.bodies.length = p ∧ parsed'.signedTransactions = parsed.signedTransactions
      else
        parsed'.bodies.length = p + 1 ∧ ∃ signed,
          parsed'.signedTransactions = parsed.signedTransactions ++ [signed] ∧
          BodyOf proto parsed'.bodies signed p := by
  obtain ⟨first, bare, noted⟩ := except_bind_eq_ok.mp noted
  have firstBodies : ∃ bodies, first.bodies = parsed.bodies ++ bodies ∧
      first.bodies.length = (if transaction.bodyBytes = [] then parsed.bodies.length
        else parsed.bodies.length + 1) ∧
      first.signedTransactions = parsed.signedTransactions := by
    unfold noteBareBody at bare
    split at bare
    · rename_i absent
      cases bare
      exact ⟨[], by simp, by simp [absent], rfl⟩
    · rename_i present
      obtain ⟨body, _, bodies, same⟩ := noteBody_eq_ok bare
      exact ⟨[body], bodies, by simp [bodies, present], same⟩
  obtain ⟨bodies, firstIs, length, sameSigned⟩ := firstBodies
  simp only [← length]
  unfold noteSignedTransaction at noted
  split at noted
  · rename_i unsigned
    cases noted
    exact ⟨bodies, firstIs, by simp [unsigned, sameSigned]⟩
  · rename_i present
    obtain ⟨signed, _, noted⟩ := except_bind_eq_ok.mp noted
    obtain ⟨body, decoded, bodiesIs, signedIs⟩ := noteBody_eq_ok noted
    refine ⟨bodies ++ [body], by rw [bodiesIs, firstIs, List.append_assoc], ?_⟩
    rw [if_neg present]
    refine ⟨by simp [bodiesIs], signed, by rw [signedIs, sameSigned], ?_⟩
    have last := bodyAt_concat first.bodies [] body
    rw [List.append_nil] at last
    rw [BodyOf, decoded, bodiesIs, last]

theorem noteAll_eq_ok {list : List ProtoTransaction} {parsed parsed' : Parsed}
    (noted : noteAll proto list parsed = .ok parsed') :
    (∃ bodies, parsed'.bodies = parsed.bodies ++ bodies) ∧ ∃ signed,
      parsed'.signedTransactions = parsed.signedTransactions ++ signed ∧
      List.Forall₂ (BodyOf proto parsed'.bodies) signed
        (signedPositions list parsed.bodies.length) := by
  induction list generalizing parsed with
  | nil =>
      cases noted
      exact ⟨⟨[], by simp⟩, [], by simp, .nil⟩
  | cons transaction rest inductionHypothesis =>
      obtain ⟨middle, first, others⟩ := except_bind_eq_ok.mp noted
      obtain ⟨bodies, middleIs, step⟩ := noteTransaction_eq_ok first
      obtain ⟨⟨more, finalIs⟩, signed, signedIs, positions⟩ := inductionHypothesis others
      refine ⟨⟨bodies ++ more, by rw [finalIs, middleIs, List.append_assoc]⟩, ?_⟩
      simp only [signedPositions]
      split at step
      · rename_i unsigned
        rw [if_pos unsigned]
        exact ⟨signed, by rw [signedIs, step.2], step.1 ▸ positions⟩
      · rename_i present
        obtain ⟨length, one, oneIs, bodyOf⟩ := step
        rw [if_neg present, ← length]
        refine ⟨one :: signed, by rw [signedIs, oneIs]; simp, .cons ?_ positions⟩
        rw [BodyOf, bodyOf, finalIs, bodyAt_append_left (by omega)]

/-! ## What is loaded -/

def KeyOfPair (proto : Proto) (pair : SignaturePair) (key : PublicKey) : Prop :=
  PublicKey.fromBytes proto.decoders pair.pubKeyPrefix = .ok key

def prefixTexts (pairs : List SignaturePair) : Finset String :=
  (pairs.map fun pair => hexEncode pair.pubKeyPrefix).toFinset

/-- The signer loop records the key of every pair, without a signer. -/
theorem noteSigners_eq_ok {pairs : List SignaturePair} {tx tx' : Transaction}
    (noted : noteSigners proto pairs tx = .ok tx') :
    ∃ keys, List.Forall₂ (KeyOfPair proto) pairs keys ∧
      tx' = { tx with
        signerPublicKeys := tx.signerPublicKeys ∪ prefixTexts pairs
        publicKeys := tx.publicKeys ++ keys
        transactionSigners := tx.transactionSigners ++ List.replicate keys.length none } := by
  induction pairs generalizing tx with
  | nil =>
      cases noted
      exact ⟨[], .nil, by simp [prefixTexts]⟩
  | cons pair rest inductionHypothesis =>
      unfold noteSigners at noted
      split at noted
      · cases noted
      · rename_i key found
        obtain ⟨keys, read, rfl⟩ := inductionHypothesis noted
        refine ⟨key :: keys, .cons found read, ?_⟩
        simp [recordSigner, prefixTexts, List.replicate_succ, Finset.insert_union,
          Finset.union_insert]

/-- What is known of a transaction that was loaded from a list. -/
structure Loaded (proto : Proto) (list : List ProtoTransaction) (parsed : Parsed)
    (tx : Transaction) : Prop where
  valid : validateBodies parsed.bodies parsed.transactionIds.length parsed.nodeIds.length = .ok ()
  transactions : tx.transactions = { list := list.map some }
  signedTransactions : tx.signedTransactions = { list := parsed.signedTransactions }
  transactionIds : tx.transactionIds = { list := parsed.transactionIds }
  nodeAccountIds : tx.nodeAccountIds =
    { list := parsed.nodeIds.filter fun id => !id.equals (.ofNum 0) }
  signOnDemand : tx.signOnDemand = false
  /-- Every key is recorded without a signer. -/
  signers : tx.transactionSigners = List.replicate tx.publicKeys.length none
  keys : ∃ rows, (List.range tx.nodeAccountIds.length).mapM
      (pairsAt list parsed.signedTransactions) = .ok rows ∧
    List.Forall₂ (KeyOfPair proto) rows.flatten tx.publicKeys ∧
    tx.signerPublicKeys = prefixTexts rows.flatten

/-- A transaction as a constructor makes it. -/
structure Unsigned (tx : Transaction) : Prop where
  signOnDemand : tx.signOnDemand = false
  publicKeys : tx.publicKeys = []
  transactionSigners : tx.transactionSigners = []
  signerPublicKeys : tx.signerPublicKeys = ∅

theorem fromProtobufTransactions_eq_ok {list : List ProtoTransaction} {parsed : Parsed}
    {tx tx' : Transaction} (unsigned : Unsigned tx)
    (loaded : fromProtobufTransactions proto tx list parsed = .ok tx') :
    Loaded proto list parsed tx' ∧ tx'.data = tx.data := by
  obtain ⟨_, valid, loaded⟩ := except_bind_eq_ok.mp loaded
  obtain ⟨rows, read, loaded⟩ := except_bind_eq_ok.mp loaded
  obtain ⟨keys, ofPairs, rfl⟩ := noteSigners_eq_ok loaded
  refine ⟨⟨valid, rfl, rfl, rfl, rfl, unsigned.signOnDemand, ?_, rows, read, ?_, ?_⟩, rfl⟩
  · simp [unsigned.publicKeys, unsigned.transactionSigners]
  · simpa [unsigned.publicKeys] using ofPairs
  · simp [unsigned.signerPublicKeys]

theorem readTransaction_eq_ok {types : TypeReaders} {dataCase : DataCase}
    {list : List ProtoTransaction} {parsed : Parsed} {tx : Transaction}
    (read : readTransaction proto types dataCase list parsed = .ok tx) :
    Loaded proto list parsed tx := by
  unfold readTransaction at read
  split at read
  · obtain ⟨append, _, read⟩ := except_bind_eq_ok.mp read
    exact (fromProtobufTransactions_eq_ok ⟨rfl, rfl, rfl, rfl⟩ read).1
  · exact (fromProtobufTransactions_eq_ok ⟨rfl, rfl, rfl, rfl⟩ read).1
  · obtain ⟨data, _, read⟩ := except_bind_eq_ok.mp read
    exact (fromProtobufTransactions_eq_ok ⟨rfl, rfl, rfl, rfl⟩ read).1

theorem fromBytes_eq_ok {types : TypeReaders} {bytes : Bytes} {tx : Transaction}
    (read : fromBytes proto types bytes = .ok tx) :
    ∃ list parsed, readList proto bytes = .ok list ∧ noteAll proto list {} = .ok parsed ∧
      Loaded proto list parsed tx := by
  obtain ⟨list, listIs, read⟩ := except_bind_eq_ok.mp read
  obtain ⟨parsed, parsedIs, read⟩ := except_bind_eq_ok.mp read
  refine ⟨list, parsed, listIs, parsedIs, ?_⟩
  split at read
  · cases read
  · split at read
    · cases read
    · exact readTransaction_eq_ok read

/-! ## What a loaded transaction signs -/

theorem exists_left_of_forall₂ {α β : Type} {R : α → β → Prop} {first : List α} {second : List β}
    (related : List.Forall₂ R first second) {b : β} (member : b ∈ second) : ∃ a ∈ first, R a b := by
  induction related with
  | nil => simp at member
  | cons h _ inductionHypothesis =>
      rcases List.mem_cons.mp member with rfl | inRest
      · exact ⟨_, List.mem_cons_self, h⟩
      · obtain ⟨a, inFirst, h⟩ := inductionHypothesis inRest
        exact ⟨a, List.mem_cons_of_mem _ inFirst, h⟩

theorem exists_right_of_forall₂ {α β : Type} {R : α → β → Prop} {first : List α} {second : List β}
    (related : List.Forall₂ R first second) {a : α} (member : a ∈ first) : ∃ b ∈ second, R a b :=
  exists_left_of_forall₂ related.flip member

/-- Every signed transaction has a body that agrees with the one shown. -/
def ShowsAll (proto : Proto) (tx : Transaction) (shown : Value) : Prop :=
  ∀ signed ∈ tx.signedTransactions.list, ∃ body,
    proto.decodeBody signed.bodyBytes = .ok body ∧ Agree body shown

def refusal : JsError := .rejected "this is not the body shown"

/-- A signer that signs nothing but bodies that agree with the one shown. -/
def cautious (proto : Proto) (shown : Value) (sign : Bytes → Bytes) : Signer := fun _ message =>
  match proto.decodeBody message with
  | .ok body => if Agree body shown then .ok (sign message) else .error refusal
  | .error _ => .error refusal

theorem signEach_cautious {shown : Value} (sign : Bytes → Bytes) (key : PublicKey) (moment : Nat)
    {list : List SignedTransaction} (shows : ∀ signed ∈ list, ∃ body,
      proto.decodeBody signed.bodyBytes = .ok body ∧ Agree body shown) :
    (signEach key (cautious proto shown sign) moment list).1 = .ok () := by
  induction list generalizing moment with
  | nil => rfl
  | cons signed rest inductionHypothesis =>
      obtain ⟨body, decoded, agree⟩ := shows signed List.mem_cons_self
      have others := inductionHypothesis (moment + 1) fun signed member =>
        shows signed (List.mem_cons_of_mem _ member)
      simpa [signEach, cautious, decoded, agree] using others

/-- A cautious signer never meets a body that it refuses. -/
theorem signWith_cautious {tx : Transaction} {shown : Value} (shows : ShowsAll proto tx shown)
    (sign : Bytes → Bytes) (key : PublicKey) (moment : Nat) :
    ((signWith key (cautious proto shown sign) moment).run tx).1 ≠ .error refusal := by
  by_cases frozen : tx.isFrozenOrOnDemand = true
  · by_cases known : key.hex ∈ tx.signerPublicKeys
    · rw [run_signWith_known frozen known]
      simp
    · by_cases onDemand : tx.signOnDemand = true
      · rw [run_signWith_onDemand onDemand known]
        simp
      · have signed := signEach_cautious sign key moment shows
        rw [run_signWith_immediate frozen (by simpa using onDemand) known, replaceSigned,
          Method.run_update_bind, signed]
        simp
  · simp [signWith, requireFrozen, frozen, refusal, Method.run_bind]

/-- The heads of the rows that hold signed bodies, and the signed bodies behind the
grid, agree with the first body. -/
def HeadsAgree (list : List ProtoTransaction) (parsed : Parsed) : Prop :=
  ∀ p ∈ signedPositions list 0,
    Agree (bodyAt parsed.bodies
      (rowHead parsed.transactionIds.length parsed.nodeIds.length p)) (bodyAt parsed.bodies 0)

instance (list : List ProtoTransaction) (parsed : Parsed) : Decidable (HeadsAgree list parsed) :=
  inferInstanceAs (Decidable (∀ p ∈ signedPositions list 0, _))

theorem Loaded.showsAll_iff {list : List ProtoTransaction} {parsed : Parsed} {tx : Transaction}
    (loaded : Loaded proto list parsed tx) (noted : noteAll proto list {} = .ok parsed) :
    ShowsAll proto tx (bodyAt parsed.bodies 0) ↔ HeadsAgree list parsed := by
  obtain ⟨_, signed, signedIs, positions⟩ := noteAll_eq_ok noted
  have listed : tx.signedTransactions.list = signed := by
    rw [loaded.signedTransactions]
    simpa using signedIs
  have heads := agree_rowHead loaded.valid
  rw [ShowsAll, listed]
  constructor
  · intro shows p member
    obtain ⟨one, inSigned, bodyOf⟩ := exists_left_of_forall₂ positions member
    obtain ⟨body, decoded, agree⟩ := shows one inSigned
    rw [BodyOf, decoded] at bodyOf
    obtain rfl := Except.ok.inj bodyOf
    exact (heads p).symm.trans agree
  · intro agree one inSigned
    obtain ⟨p, member, bodyOf⟩ := exists_right_of_forall₂ positions inSigned
    exact ⟨_, bodyOf, (heads p).trans (agree p member)⟩

/-- A loaded transaction signs what it shows if and only if the heads of its rows agree. -/
theorem signs_what_it_shows_iff {types : TypeReaders} {bytes : Bytes}
    {list : List ProtoTransaction} {parsed : Parsed} {tx : Transaction}
    (listIs : readList proto bytes = .ok list) (parsedIs : noteAll proto list {} = .ok parsed)
    (loaded : fromBytes proto types bytes = .ok tx) :
    (ShowsAll proto tx (bodyAt parsed.bodies 0) ∧
      ∀ key sign moment, ((signWith key (cautious proto (bodyAt parsed.bodies 0) sign) moment).run
        tx).1 ≠ .error refusal) ↔
    HeadsAgree list parsed := by
  obtain ⟨list', parsed', listIs', parsedIs', loaded⟩ := fromBytes_eq_ok loaded
  obtain rfl := Except.ok.inj (listIs.symm.trans listIs')
  obtain rfl := Except.ok.inj (parsedIs.symm.trans parsedIs')
  have shown := loaded.showsAll_iff parsedIs
  constructor
  · exact fun h => shown.mp h.1
  · exact fun heads => ⟨shown.mpr heads, fun key sign moment =>
      signWith_cautious (shown.mpr heads) sign key moment⟩

section Samples

/-- Readers that hand on the message as it is. -/
def wholeMessage : TypeReaders where
  readData dataCase body := .ok (body.get dataCase.name)
  defaultMaxTransactionFee _ := 200000000

def sampleBody (node : Int) (memo : String) : TransactionBody where
  transactionID := some (.withValidStart (.ofNum 2) ⟨5, 0⟩)
  nodeAccountID := some (.ofNum node)
  transactionFee := some 100
  transactionValidDuration := 120
  memo
  dataCase := .cryptoTransfer
  data := .object .nil

/-- A list of signed transactions without signatures. -/
def sampleList (bodies : List TransactionBody) : List ProtoTransaction :=
  bodies.map fun body =>
    prefixProto.wrap { bodyBytes := prefixProto.encodeBody body, sigMap := some [] }

def sampleBytes (bodies : List TransactionBody) : Bytes :=
  prefixProto.encodeList (sampleList bodies)

theorem readList_sampleBytes {bodies : List TransactionBody} (nonempty : bodies ≠ []) :
    readList prefixProto (sampleBytes bodies) = .ok (sampleList bodies) := by
  have some : sampleList bodies ≠ [] := by simpa [sampleList] using nonempty
  exact except_bind_eq_ok.mpr ⟨_, prefixProto_faithful.list _, by rw [if_pos some]⟩

theorem exists_ok {ε α : Type} (r : Except ε α) (test : α → Bool)
    (passed : r.toOption.any test = true) : ∃ a, r = .ok a ∧ test a = true := by
  cases r with
  | error e => simp [Except.toOption] at passed
  | ok a => exact ⟨a, rfl, passed⟩

/-- A transaction for two nodes signs what it shows. -/
theorem two_nodes_agree :
    ∃ tx parsed, fromBytes prefixProto wholeMessage
        (sampleBytes [sampleBody 3 "pay", sampleBody 4 "pay"]) = .ok tx ∧
      ShowsAll prefixProto tx (bodyAt (Parsed.bodies parsed) 0) := by
  obtain ⟨tx, loaded, _⟩ := exists_ok (fromBytes prefixProto wholeMessage
    (sampleBytes [sampleBody 3 "pay", sampleBody 4 "pay"])) (fun _ => true)
    (by decide +kernel)
  obtain ⟨parsed, noted, heads⟩ := exists_ok (noteAll prefixProto
    (sampleList [sampleBody 3 "pay", sampleBody 4 "pay"]) {})
    (fun parsed => decide (HeadsAgree
      (sampleList [sampleBody 3 "pay", sampleBody 4 "pay"]) parsed)) (by decide +kernel)
  exact ⟨tx, parsed, loaded, ((signs_what_it_shows_iff (readList_sampleBytes (by simp)) noted
    loaded).mpr (of_decide_eq_true heads)).1⟩

/-- A second body for the same node and transaction id is behind the grid: it is
accepted with any memo, and then signed. -/
theorem repeated_body_is_not_validated :
    ∃ tx parsed, fromBytes prefixProto wholeMessage
        (sampleBytes [sampleBody 3 "pay", sampleBody 3 "pay more"]) = .ok tx ∧
      noteAll prefixProto (sampleList [sampleBody 3 "pay", sampleBody 3 "pay more"]) {} = .ok parsed ∧
      ¬ ShowsAll prefixProto tx (bodyAt parsed.bodies 0) := by
  obtain ⟨tx, loaded, _⟩ := exists_ok (fromBytes prefixProto wholeMessage
    (sampleBytes [sampleBody 3 "pay", sampleBody 3 "pay more"])) (fun _ => true)
    (by decide +kernel)
  obtain ⟨parsed, noted, apart⟩ := exists_ok (noteAll prefixProto
    (sampleList [sampleBody 3 "pay", sampleBody 3 "pay more"]) {})
    (fun parsed => decide (¬ HeadsAgree
      (sampleList [sampleBody 3 "pay", sampleBody 3 "pay more"]) parsed)) (by decide +kernel)
  obtain ⟨list', parsed', listIs, notedIs, known⟩ := fromBytes_eq_ok loaded
  obtain rfl := Except.ok.inj ((readList_sampleBytes (by simp)).symm.trans listIs)
  obtain rfl := Except.ok.inj (noted.symm.trans notedIs)
  exact ⟨tx, parsed, loaded, noted, fun shows =>
    of_decide_eq_true apart ((known.showsAll_iff noted).mp shows)⟩

end Samples

end HederaSdk.Transaction
