import HederaSdk.Transaction.Building
import HederaSdk.Transaction.SignaturePairs

/-!
# The keys of a request

The signers of a transaction are recorded four times, and each call writes its own choice of the
records. A history lists the keys that signed or whose signatures were added, and that were not taken
away. A request is to carry one pair for each of them. Calls keep it so unless a freezing builds the
signed transactions anew, or changes when they are signed, behind the back of the signers, or a
signature is added where requests are signed on demand.
-/

namespace HederaSdk.Transaction

open Library

variable {proto : Proto}

/-! ## Histories -/

/-- A transaction with the keys that signed it and were not taken away. -/
structure KeyHistory where
  tx : Transaction
  live : List PublicKey := []

/-- A call that throws signs nothing and takes nothing away. -/
def liveAfter (proto : Proto) (history : KeyHistory) (op : TransactionOp) : List PublicKey :=
  match ((op.method proto).run history.tx).1 with
  | .error _ => history.live
  | .ok _ =>
      match op with
      | .freezeWith _ _ _ => history.live
      | .signWith key _ _ | .addSignature key _ _ =>
          if key ∈ history.live then history.live else history.live ++ [key]
      | .removeSignature key _ => history.live.filter (· ≠ key)
      | .removeAllSignatures _ => []

/-- The signer resolves, whatever it is given. -/
def Resolves (signer : Signer) : Prop := ∀ moment bodyBytes, ∃ signature, signer moment bodyBytes = .ok signature

/-- The request goes to a place of the grid of ids and nodes. -/
def atCursors (row column : Nat) (tx : Transaction) : Transaction :=
  { tx with
    transactionIds := { tx.transactionIds with index := row }
    nodeAccountIds := { tx.nodeAccountIds with index := column } }

/-- One pair for each of the keys, and no other pair. -/
def CarriesEach (live : List PublicKey) (signed : SignedTransaction) : Prop :=
  (signed.sigPair.map SignaturePair.pubKeyPrefix).Perm (live.map PublicKey.toBytesRaw)

namespace KeyHistory

def step (proto : Proto) (history : KeyHistory) (op : TransactionOp) : KeyHistory where
  tx := Transaction.step proto history.tx op
  live := liveAfter proto history op

/-- Every request that is made carries one pair for each of the keys and no other, and one is made
wherever there is something to send. -/
structure CarriesLive (proto : Proto) (history : KeyHistory) : Prop where
  distinct : history.live.Nodup
  carried : ∀ row column moment request left,
    (makeRequestAsync proto moment).run (history.tx.atCursors row column) = (.ok request, left) →
      ∃ signed, request = proto.wrap signed ∧ CarriesEach history.live signed
  made : ∀ row column moment, history.tx.signOnDemand = true ∨
      row * history.tx.nodeAccountIds.length + column < history.tx.signedTransactions.length →
    ∃ request, ((makeRequestAsync proto moment).run (history.tx.atCursors row column)).1 = .ok request

/-- Signers resolve, and what is added is there. -/
def Admits (proto : Proto) (history : KeyHistory) : TransactionOp → Prop
  | .signWith _ signer _ => Resolves signer
  | .addSignature key signatures generated =>
      ((addSignature proto key signatures generated).run history.tx).1 = .ok ()
  | _ => True

/-- The call leaves the signatures of the other keys where requests take them from. -/
def LeavesSignatures (proto : Proto) (history : KeyHistory) : TransactionOp → Prop
  | .freezeWith client picked generated =>
      history.live = [] ∨
        history.tx.signOnDemand = (client.map Client.signOnDemand).getD false ∧
          (history.tx.signOnDemand = true ∨
            ((freezeBase proto client picked generated).run history.tx).1 ≠ .ok () ∨
            history.tx.signedTransactions.locked = true ∧ history.tx.data.contents = none)
  | .signWith _ _ _ => True
  | .addSignature key _ _ =>
      history.live = [] ∧ history.tx.isFrozen = false ∨
        history.tx.isFrozen = true ∧ (history.tx.signOnDemand = true → key ∈ history.live)
  | .removeSignature key generated =>
      history.live = [] ∨ history.tx.isFrozen = true ∨
        history.live = [key] ∧ ((freezeIfNeeded proto generated).run history.tx).1 = .ok ()
  | .removeAllSignatures generated =>
      history.live = [] ∨ ((freezeIfNeeded proto generated).run history.tx).1 = .ok ()

end KeyHistory

/-- No key has signed yet. -/
structure NeverSigned (tx : Transaction) : Prop where
  unlocked : tx.transactions.locked = false
  signerPublicKeys : tx.signerPublicKeys = ∅
  publicKeys : tx.publicKeys = []
  transactionSigners : tx.transactionSigners = []
  pairs : ∀ signed ∈ tx.signedTransactions.list, signed.sigPair = []

/-! ## What freezing does to the signatures -/

section Freezing

variable {client : Option Client} {picked : Except JsError (List AccountId)} {generated : Timestamp}

/-- The records of signers, with nothing signed. -/
def Blank (records : Finset String × List PublicKey × List (Option Signer)) (tx : Transaction) : Prop :=
  tx.transactions.locked = false ∧ tx.signerRecords = records ∧
    ∀ signed ∈ tx.signedTransactions.list, signed.sigPair = []

theorem survives_blank (records : Finset String × List PublicKey × List (Option Signer)) :
    SurvivesFreezing proto (Blank records) where
  settings _ _ blank := blank
  nodes _ _ blank := blank
  ids _ _ blank := blank
  built tx blank := by
    refine ⟨blank.1, blank.2.1, fun signed member => ?_⟩
    obtain ⟨nodeId, _, rfl⟩ := List.mem_map.mp member
    rfl
  cleared _ blank := ⟨blank.1, blank.2.1, fun _ member => absurd member List.not_mem_nil⟩
  pushed nodeId tx blank := by
    refine ⟨blank.1, blank.2.1, fun signed member => ?_⟩
    rcases List.mem_append.mp member with before | last
    · exact blank.2.2 signed before
    · rw [List.mem_singleton.mp last]
      rfl
  chunk _ _ _ _ _ _ blank := blank

/-- The base of freezing throws before it builds anything. -/
theorem signed_of_freezeBase_throws {tx : Transaction}
    (throws : ((freezeBase proto client picked generated).run tx).1 ≠ .ok ()) :
    ((freezeBase proto client picked generated).run tx).2.signedTransactions = tx.signedTransactions := by
  let Same (after : Transaction) : Prop := after.signedTransactions = tx.signedTransactions
  have ids (after : Transaction) (same : Same after) : Same (buildNewTransactionIdList generated after) := by
    unfold buildNewTransactionIdList
    split <;> exact same
  have nodes : Method.Keeps Same (setNodeAccountIdsFrom client picked) :=
    .bind .this fun _ => .ite (.pure _) (.ite (.throwing _) (.bind (.ofExcept _) fun _ =>
      .bind (.ofExcept _) fun _ => .update fun _ same => same))
  have check : Method.Keeps Same checkTransactionId :=
    .bind .this fun _ => .ite (.throwing _) (.pure _)
  have rows : Method.Triple Same (buildSignedTransactions proto) (fun _ _ => True) fun _ => Same := by
    intro after _
    rw [buildSignedTransactions, Method.run_this_bind]
    cases locked : after.signedTransactions.locked with
    | true => trivial
    | false =>
        rw [if_neg (by simp), SdkList.setList_of_unlocked locked]
        trivial
  have whole : Method.Triple (· = tx) (freezeBase proto client picked generated) (fun _ _ => True)
      fun _ => Same := by
    refine .bind (M := fun _ => Same) (.update _ fun _ is => is ▸ rfl) fun _ =>
      .bind nodes.triple fun _ => .bind check.triple fun _ => .this fun before same => ?_
    refine .bind (M := fun _ => Same) (.ofExcept _ (fun _ _ _ is => is ▸ same) fun _ _ _ is => is ▸ same) fun _ =>
      .bind (M := fun _ => Same) (.update _ ids) fun _ => .this fun settled same => ?_
    by_cases onDemand : settled.signOnDemand = true
    · rw [if_pos onDemand]
      exact .pure _ fun _ _ => trivial
    · rw [if_neg onDemand]
      exact rows.weaken (fun _ is => is ▸ same) (fun _ _ h => h) fun _ _ h => h
  have ended := whole tx rfl
  rcases ran : (freezeBase proto client picked generated).run tx with ⟨e | _, after⟩
  · rw [ran] at ended
    exact ended
  · rw [ran] at throws
    exact absurd rfl throws

end Freezing

/-! ## What calls do to the pairs -/

section Pairs

variable {key : PublicKey} {live : List PublicKey} {signed after : SignedTransaction}
  {list added : List SignedTransaction}

theorem carriesEach_nil : CarriesEach [] signed ↔ signed.sigPair = [] := by
  rw [CarriesEach, List.map_nil, List.perm_nil, List.map_eq_nil_iff]

/-- One pair of a new key more. -/
theorem CarriesEach.concat (carriesEach : CarriesEach live signed) (adds : AddsOne key signed after) :
    CarriesEach (live ++ [key]) after := by
  obtain ⟨signature, pairs⟩ := adds.pair
  rw [CarriesEach, pairs, List.map_append, List.map_append]
  exact carriesEach.append (List.Perm.refl _)

theorem forall_carriesEach_concat (all : ∀ one ∈ list, CarriesEach live one)
    (adds : List.Forall₂ (AddsOne key) list added) : ∀ one ∈ added, CarriesEach (live ++ [key]) one := by
  induction adds with
  | nil => exact fun _ member => absurd member List.not_mem_nil
  | cons first _ inductionHypothesis =>
      rw [List.forall_mem_cons] at all ⊢
      exact ⟨all.1.concat first, inductionHypothesis all.2⟩

theorem shouldRemoveSignature_iff {pair : SignaturePair} :
    shouldRemoveSignature pair key.hex = true ↔ pair.pubKeyPrefix = key.toBytesRaw := by
  rw [shouldRemoveSignature, decide_eq_true_eq, PublicKey.hex, hexEncode_inj]

/-- The pairs of one key less. -/
theorem CarriesEach.remove (carriesEach : CarriesEach live signed) (key : PublicKey) :
    CarriesEach (live.filter (· ≠ key)) (removeSignaturesFromTransaction key.hex signed) := by
  have pairs : (removeSignaturesFromTransaction key.hex signed).sigPair =
      signed.sigPair.filter fun pair => !shouldRemoveSignature pair key.hex := by
    rw [SignedTransaction.sigPair, SignedTransaction.sigPair, removeSignaturesFromTransaction]
    cases signed.sigMap <;> rfl
  have prefixes : (signed.sigPair.filter fun pair => !shouldRemoveSignature pair key.hex).map
      SignaturePair.pubKeyPrefix =
        (signed.sigPair.map SignaturePair.pubKeyPrefix).filter (· ≠ key.toBytesRaw) := by
    rw [List.filter_map]
    congr 1
    apply List.filter_congr
    intro pair _
    rw [Bool.eq_iff_iff]
    simp [← shouldRemoveSignature_iff]
  have keys : (live.filter (· ≠ key)).map PublicKey.toBytesRaw =
      (live.map PublicKey.toBytesRaw).filter (· ≠ key.toBytesRaw) := by
    rw [List.filter_map]
    congr 1
    apply List.filter_congr
    intro other _
    simp [PublicKey.toBytesRaw_injective.eq_iff]
  rw [CarriesEach, pairs, prefixes, keys]
  exact carriesEach.filter _

theorem forall_carriesEach_remove (all : ∀ one ∈ list, CarriesEach live one) (key : PublicKey) :
    ∀ one ∈ list.map (removeSignaturesFromTransaction key.hex), CarriesEach (live.filter (· ≠ key)) one :=
  List.forall_mem_map.mpr fun one member => (all one member).remove key

/-- A signer that resolves signs everything. -/
theorem signEach_of_resolves {signer : Signer} (resolves : Resolves signer) (key : PublicKey) (moment : Nat)
    (list : List SignedTransaction) :
    ∃ added, signEach key signer moment list = (.ok (), added) ∧ List.Forall₂ (AddsOne key) list added := by
  induction list generalizing moment with
  | nil => exact ⟨[], rfl, .nil⟩
  | cons signed rest inductionHypothesis =>
      obtain ⟨signature, signs⟩ := resolves moment signed.bodyBytes
      obtain ⟨added, ran, each⟩ := inductionHypothesis (moment + 1)
      refine ⟨_, ?_, .cons (addsOne_addPair signed signature) each⟩
      simp only [signEach, signs, ran]

theorem addEach_eq_ok {signatures : SignatureMap} {outcome : Except JsError Unit × List SignedTransaction}
    (ran : addEach proto key signatures list = outcome) (returned : outcome.1 = .ok ()) :
    List.Forall₂ (AddsOne key) list outcome.2 := by
  by_cases complete : ∀ signed ∈ list, HasSignature proto key signatures signed
  · obtain ⟨added, looped, each⟩ := addEach_complete complete
    rw [← ran, looped]
    exact each
  · obtain ⟨e, failed⟩ := addEach_incomplete complete
    rw [← ran, failed] at returned
    cases returned

/-- Signers in step with their keys make one pair for each key. -/
theorem signPairs_of_resolves (bodyBytes : Bytes) {keys : List PublicKey} {signers : List (Option Signer)}
    (inStep : signers.length = keys.length)
    (resolve : ∀ entry ∈ signers, ∃ signer, entry = some signer ∧ Resolves signer) (moment : Nat) :
    ∃ pairs, signPairs bodyBytes moment keys signers = .ok pairs ∧
      pairs.map SignaturePair.pubKeyPrefix = keys.map PublicKey.toBytesRaw := by
  induction keys generalizing moment signers with
  | nil => exact ⟨[], rfl, rfl⟩
  | cons key keys inductionHypothesis =>
      cases signers with
      | nil => cases inStep
      | cons entry signers =>
          rw [List.forall_mem_cons] at resolve
          obtain ⟨signer, rfl, resolves⟩ := resolve.1
          obtain ⟨signature, signs⟩ := resolves moment bodyBytes
          obtain ⟨pairs, later, prefixes⟩ :=
            inductionHypothesis (Nat.succ.inj inStep) resolve.2 (moment + 1)
          refine ⟨key.toProtobufSignature signature :: pairs, ?_, ?_⟩
          · simp only [signPairs, List.head?_cons, Option.join_some, List.tail_cons, signs, later]
            rfl
          · rw [List.map_cons, prefixes]
            rfl

end Pairs

/-! ## The invariant -/

namespace KeyHistory

/-- Where requests take their pairs from, by the mode: from the signed transactions, or from the arrays
of keys and signers, and then the signed transactions have no pairs. -/
def InPlace (live : List PublicKey) (tx : Transaction) : Prop :=
  if tx.signOnDemand then
    tx.publicKeys = live ∧ tx.transactionSigners.length = live.length ∧
      (∀ entry ∈ tx.transactionSigners, ∃ signer, entry = some signer ∧ Resolves signer) ∧
      ∀ signed ∈ tx.signedTransactions.list, signed.sigPair = []
  else ∀ signed ∈ tx.signedTransactions.list, CarriesEach live signed

/-- The records agree about the keys that have signed. -/
structure Tracks (history : KeyHistory) : Prop where
  distinct : history.live.Nodup
  known : ∀ key : PublicKey, key.hex ∈ history.tx.signerPublicKeys ↔ key ∈ history.live
  unlocked : history.tx.transactions.locked = false
  keys : history.tx.publicKeys.Sublist history.live
  signers : history.tx.transactionSigners.length ≤ history.tx.publicKeys.length
  inPlace : InPlace history.live history.tx

section Requests

variable {live : List PublicKey} {tx : Transaction}

theorem inPlace_of_onDemand (onDemand : tx.signOnDemand = true) : InPlace live tx ↔
    tx.publicKeys = live ∧ tx.transactionSigners.length = live.length ∧
      (∀ entry ∈ tx.transactionSigners, ∃ signer, entry = some signer ∧ Resolves signer) ∧
      ∀ signed ∈ tx.signedTransactions.list, signed.sigPair = [] := by
  rw [InPlace, if_pos onDemand]

theorem inPlace_of_immediate (immediate : tx.signOnDemand = false) :
    InPlace live tx ↔ ∀ signed ∈ tx.signedTransactions.list, CarriesEach live signed := by
  rw [InPlace, if_neg (by simp [immediate])]

theorem InPlace.unpaired (inPlace : InPlace [] tx) : ∀ signed ∈ tx.signedTransactions.list, signed.sigPair = [] := by
  intro signed member
  unfold InPlace at inPlace
  split at inPlace
  · exact inPlace.2.2.2 signed member
  · exact carriesEach_nil.mp (inPlace signed member)

/-- Without keys and pairs nothing is out of place, whatever the mode. -/
theorem inPlace_nil (keys : tx.publicKeys = []) (signers : tx.transactionSigners = [])
    (pairs : ∀ signed ∈ tx.signedTransactions.list, signed.sigPair = []) : InPlace [] tx := by
  unfold InPlace
  split
  · exact ⟨keys, congrArg List.length signers, by simp [signers], pairs⟩
  · exact fun signed member => carriesEach_nil.mpr (pairs signed member)

/-- At once, a request is made where a signed transaction stands. -/
theorem makeRequestAsync_of_signed (immediate : tx.signOnDemand = false)
    (unlocked : tx.transactions.locked = false) {signed : SignedTransaction}
    (found : tx.signedTransactions.get tx.requestIndex = some signed) (moment : Nat) :
    ((makeRequestAsync proto moment).run tx).1 = .ok (proto.wrap signed) := by
  have built := @run_buildTransaction proto _ _ _ unlocked found
  rw [makeRequestAsync, Method.run_this_bind, if_neg (by simp [immediate]), Method.run_bind_ok built,
    Method.run_this_bind]
  simp only [withTransactions, get_builtAt]
  rfl

/-- On demand, a request carries a pair for each key in step. -/
theorem makeRequestAsync_of_signers (onDemand : tx.signOnDemand = true)
    (inStep : tx.transactionSigners.length = tx.publicKeys.length)
    (resolve : ∀ entry ∈ tx.transactionSigners, ∃ signer, entry = some signer ∧ Resolves signer) (moment : Nat) :
    ∃ signed, ((makeRequestAsync proto moment).run tx).1 = .ok (proto.wrap signed) ∧
      CarriesEach tx.publicKeys signed := by
  obtain ⟨pairs, made, prefixes⟩ := signPairs_of_resolves
    (tx.makeSignedTransaction proto tx.nodeAccountIds.current).bodyBytes inStep resolve moment
  refine ⟨{ tx.makeSignedTransaction proto tx.nodeAccountIds.current with sigMap := some pairs }, ?_, ?_⟩
  · have signing : ((signTransaction proto moment).run tx).1 = .ok
        { tx.makeSignedTransaction proto tx.nodeAccountIds.current with sigMap := some pairs } := by
      rw [signTransaction, Method.run_this_bind, Method.run_update_bind]
      simp only [made]
      rfl
    rw [makeRequestAsync, Method.run_this_bind, if_pos onDemand, buildTransactionAsync,
      Method.run_bind_ok (Method.run_of_ok signing)]
    rfl
  · rw [CarriesEach, ← prefixes]
    exact List.Perm.refl _

/-- Where the records agree, requests carry the live keys. -/
theorem Tracks.carriesLive {history : KeyHistory} (tracks : history.Tracks) : history.CarriesLive proto := by
  cases mode : history.tx.signOnDemand with
  | true =>
      obtain ⟨keys, count, resolve, _⟩ := (inPlace_of_onDemand mode).mp tracks.inPlace
      have inStep : history.tx.transactionSigners.length = history.tx.publicKeys.length := by rw [count, keys]
      have requests (row column moment : Nat) := @makeRequestAsync_of_signers proto
        (history.tx.atCursors row column) mode inStep resolve moment
      refine ⟨tracks.distinct, fun row column moment request left made => ?_, fun row column moment _ => ?_⟩
      · obtain ⟨signed, returned, carriesEach⟩ := requests row column moment
        rw [made] at returned
        cases returned
        exact ⟨signed, rfl, keys ▸ carriesEach⟩
      · obtain ⟨signed, returned, _⟩ := requests row column moment
        exact ⟨_, returned⟩
  | false =>
      have inPlace := (inPlace_of_immediate mode).mp tracks.inPlace
      refine ⟨tracks.distinct, fun row column moment request left made => ?_, fun row column moment inside => ?_⟩
      · obtain ⟨signed, found, same, _⟩ := @makeRequestAsync_immediate proto
          (history.tx.atCursors row column) _ moment request mode made
        exact ⟨signed, same, inPlace signed (List.mem_of_getElem? found)⟩
      · have within := inside.resolve_left (by simp [mode])
        exact ⟨_, @makeRequestAsync_of_signed proto (history.tx.atCursors row column) mode tracks.unlocked _
          (List.getElem?_eq_getElem within) moment⟩

end Requests

/-! ## Calls -/

section Calls

variable {history : KeyHistory}

theorem step_of_run {op : TransactionOp} {outcome : Except JsError Unit} {after : Transaction}
    (ran : (op.method proto).run history.tx = (outcome, after)) :
    history.step proto op = ⟨after, liveAfter proto history op⟩ := by
  rw [KeyHistory.step, Transaction.step, ran]

/-- A call that throws and leaves the transaction as it was changes nothing. -/
theorem step_of_error {op : TransactionOp} {e : JsError} {after : Transaction}
    (ran : (op.method proto).run history.tx = (.error e, after)) :
    history.step proto op = ⟨after, history.live⟩ := by
  rw [step_of_run ran]
  unfold liveAfter
  rw [ran]

section Records

variable {key : PublicKey} {after : Transaction}

/-- One key more in the records. -/
theorem Tracks.add (tracks : history.Tracks) (new : key ∉ history.live)
    (known : after.signerPublicKeys = insert key.hex history.tx.signerPublicKeys)
    (unlocked : after.transactions.locked = false)
    (keys : after.publicKeys = history.tx.publicKeys ∧ after.transactionSigners = history.tx.transactionSigners ∨
      after.publicKeys = history.tx.publicKeys ++ [key] ∧
        ∃ signer, after.transactionSigners = history.tx.transactionSigners ++ [signer])
    (inPlace : InPlace (history.live ++ [key]) after) : Tracks ⟨after, history.live ++ [key]⟩ where
  distinct := List.concat_eq_append ▸ tracks.distinct.concat new
  known other := by
    rw [known, Finset.mem_insert, PublicKey.hex_inj, tracks.known, List.mem_append, List.mem_singleton, or_comm]
  unlocked := unlocked
  keys := by
    rcases keys with ⟨same, _⟩ | ⟨one, _⟩
    · exact same ▸ tracks.keys.trans (List.sublist_append_left _ _)
    · exact one ▸ tracks.keys.append_right [key]
  signers := by
    have fewer := tracks.signers
    rcases keys with ⟨same, same'⟩ | ⟨one, signer, one'⟩
    · rw [same, same']
      exact fewer
    · rw [one, one', List.length_append, List.length_append]
      exact Nat.add_le_add_right fewer 1
  inPlace := inPlace

/-- One key less in the records. -/
theorem Tracks.remove (tracks : history.Tracks) (live : key ∈ history.live) :
    Tracks ⟨forgetSigner key (mapSigned (removeSignaturesFromTransaction key.hex) history.tx),
      history.live.filter (· ≠ key)⟩ := by
  have others (keys : List PublicKey) :
      (keys.filter fun other => !other.equals key) = keys.filter (· ≠ key) := by
    apply List.filter_congr
    intro other _
    rw [Bool.eq_iff_iff]
    simp [← PublicKey.equals_iff]
  have count {keys : List PublicKey} (distinct : keys.Nodup) :
      keys.length - 1 ≤ (keys.filter (· ≠ key)).length ∧
        (key ∈ keys → (keys.filter (· ≠ key)).length = keys.length - 1) := by
    have erased : keys.filter (· ≠ key) = keys.erase key := by
      rw [distinct.erase_eq_filter]
      apply List.filter_congr
      intro other _
      by_cases same : other = key <;> simp [same]
    rw [erased]
    refine ⟨?_, List.length_erase_of_mem⟩
    rw [List.length_erase]
    split <;> omega
  refine ⟨tracks.distinct.filter _, fun other => ?_, tracks.unlocked, ?_, ?_, ?_⟩
  · change other.hex ∈ history.tx.signerPublicKeys.erase key.hex ↔ _
    rw [Finset.mem_erase, tracks.known, List.mem_filter, decide_eq_true_eq, and_comm, Ne, PublicKey.hex_inj]
  · change (history.tx.publicKeys.filter fun other => !other.equals key).Sublist _
    rw [others]
    exact tracks.keys.filter _
  · change history.tx.transactionSigners.dropLast.length ≤
      (history.tx.publicKeys.filter fun other => !other.equals key).length
    have fewer := tracks.signers
    have left := (count (tracks.distinct.sublist tracks.keys)).1
    rw [others, List.length_dropLast]
    omega
  · cases mode : history.tx.signOnDemand with
    | true =>
        obtain ⟨keys, signers, resolve, pairs⟩ := (inPlace_of_onDemand mode).mp tracks.inPlace
        refine (inPlace_of_onDemand ?_).mpr
          ⟨?_, ?_, fun entry member => resolve entry (List.mem_of_mem_dropLast member), ?_⟩
        · exact mode
        · change (history.tx.publicKeys.filter fun other => !other.equals key) = _
          rw [others, keys]
        · change history.tx.transactionSigners.dropLast.length = _
          rw [List.length_dropLast, signers]
          exact ((count tracks.distinct).2 live).symm
        · refine List.forall_mem_map.mpr fun signed member => ?_
          exact carriesEach_nil.mp ((carriesEach_nil.mpr (pairs signed member)).remove key)
    | false =>
        have inPlace := (inPlace_of_immediate mode).mp tracks.inPlace
        refine (inPlace_of_immediate ?_).mpr (forall_carriesEach_remove inPlace key)
        exact mode

/-- No key in the records. -/
theorem tracks_nil (known : ∀ key : PublicKey, key.hex ∉ after.signerPublicKeys)
    (unlocked : after.transactions.locked = false) (keys : after.publicKeys = [])
    (signers : after.transactionSigners = [])
    (pairs : ∀ signed ∈ after.signedTransactions.list, signed.sigPair = []) : Tracks ⟨after, []⟩ where
  distinct := List.nodup_nil
  known key := by simp [known key]
  unlocked := unlocked
  keys := by rw [keys]
  signers := by simp [keys, signers]
  inPlace := inPlace_nil keys signers pairs

end Records

theorem Tracks.signWith (tracks : history.Tracks) {signer : Signer} (resolves : Resolves signer)
    (key : PublicKey) (moment : Nat) : (history.step proto (.signWith key signer moment)).Tracks := by
  by_cases frozen : history.tx.isFrozenOrOnDemand = true
  · by_cases known : key.hex ∈ history.tx.signerPublicKeys
    · have ran : ((TransactionOp.signWith key signer moment).method proto).run history.tx = _ :=
        run_signWith_known frozen known signer moment
      have live := (tracks.known key).mp known
      rw [step_of_run ran, liveAfter, ran]
      simp only [if_pos live]
      exact tracks
    · have new : key ∉ history.live := fun live => known ((tracks.known key).mpr live)
      cases mode : history.tx.signOnDemand with
      | true =>
          have ran : ((TransactionOp.signWith key signer moment).method proto).run history.tx = _ :=
            run_signWith_onDemand mode known signer moment
          rw [step_of_run ran, liveAfter, ran]
          obtain ⟨keys, count, resolve, pairs⟩ := (inPlace_of_onDemand mode).mp tracks.inPlace
          simp only [if_neg new]
          refine tracks.add new rfl tracks.unlocked (.inr ⟨rfl, _, rfl⟩) ?_
          refine (inPlace_of_onDemand ?_).mpr ⟨?_, ?_, ?_, pairs⟩
          · exact mode
          · change history.tx.publicKeys ++ [key] = _
            rw [keys]
          · change (history.tx.transactionSigners ++ [some signer]).length = _
            rw [List.length_append, List.length_append, count]
            rfl
          · exact List.forall_mem_append.mpr
              ⟨resolve, List.forall_mem_singleton.mpr ⟨signer, rfl, resolves⟩⟩
      | false =>
          obtain ⟨added, looped, each⟩ := signEach_of_resolves resolves key moment history.tx.signedTransactions.list
          have ran : ((TransactionOp.signWith key signer moment).method proto).run history.tx =
              (.ok (), withSigned added (lockIds (noteSigner key history.tx))) := by
            rw [TransactionOp.method, run_signWith_immediate frozen mode known, looped]
            rfl
          rw [step_of_run ran, liveAfter, ran]
          have inPlace := (inPlace_of_immediate mode).mp tracks.inPlace
          simp only [if_neg new]
          refine tracks.add new rfl tracks.unlocked (.inl ⟨rfl, rfl⟩) ?_
          refine (inPlace_of_immediate ?_).mpr (forall_carriesEach_concat inPlace each)
          exact mode
  · obtain ⟨e, thrown⟩ : ∃ e, requireFrozen.run history.tx = (.error e, history.tx) := by
      rw [requireFrozen, Method.run_this_bind, if_neg frozen]
      exact ⟨_, rfl⟩
    have ran : ((TransactionOp.signWith key signer moment).method proto).run history.tx = (.error e, history.tx) :=
      Method.run_bind_error thrown
    rw [step_of_error ran]
    exact tracks

/-! ### Freezing -/

/-- What freezing leaves of the records. -/
theorem kept_freezeWith (client : Option Client) (picked : Except JsError (List AccountId))
    (generated : Timestamp) (tx : Transaction) :
    ((Transaction.freezeWith proto client picked generated).run tx).2.transactions.locked = tx.transactions.locked ∧
      ((Transaction.freezeWith proto client picked generated).run tx).2.signerRecords = tx.signerRecords := by
  let Kept (after : Transaction) : Prop :=
    after.transactions.locked = tx.transactions.locked ∧ after.signerRecords = tx.signerRecords
  have survives : SurvivesFreezing proto Kept := {
    settings _ _ kept := kept
    nodes _ _ kept := kept
    ids _ _ kept := kept
    built _ kept := kept
    cleared _ kept := kept
    pushed _ _ kept := kept
    chunk _ _ _ _ _ _ kept := kept }
  exact survives.freezeWith client picked generated tx ⟨rfl, rfl⟩

theorem Tracks.of_records (tracks : history.Tracks) {after : Transaction}
    (unlocked : after.transactions.locked = history.tx.transactions.locked)
    (records : after.signerRecords = history.tx.signerRecords) (inPlace : InPlace history.live after) :
    Tracks ⟨after, history.live⟩ := by
  obtain ⟨known, keys, signers⟩ := signerRecords_eq_iff.mp records
  exact {
    distinct := tracks.distinct
    known := fun key => known ▸ tracks.known key
    unlocked := unlocked.trans tracks.unlocked
    keys := keys ▸ tracks.keys
    signers := by
      change after.transactionSigners.length ≤ after.publicKeys.length
      rw [keys, signers]
      exact tracks.signers
    inPlace := inPlace }

/-- Without keys there is nothing that freezing could lose. -/
theorem Tracks.freeze_nil (tracks : history.Tracks) (none : history.live = []) (client : Option Client)
    (picked : Except JsError (List AccountId)) (generated : Timestamp) :
    Tracks ⟨((Transaction.freezeWith proto client picked generated).run history.tx).2, history.live⟩ := by
  have keys : history.tx.publicKeys = [] := List.sublist_nil.mp (none ▸ tracks.keys)
  have signers : history.tx.transactionSigners = [] := by
    have fewer := tracks.signers
    rw [keys, List.length_nil, Nat.le_zero, List.length_eq_zero_iff] at fewer
    exact fewer
  have blank := (@survives_blank proto history.tx.signerRecords).freezeWith client picked generated history.tx
    ⟨tracks.unlocked, rfl, InPlace.unpaired (none ▸ tracks.inPlace)⟩
  refine tracks.of_records (blank.1.trans tracks.unlocked.symm) blank.2.1 ?_
  obtain ⟨-, keys', signers'⟩ := signerRecords_eq_iff.mp blank.2.1
  rw [none]
  exact inPlace_nil (keys'.trans keys) (signers'.trans signers) blank.2.2

theorem Tracks.freezeWith (tracks : history.Tracks) {client : Option Client}
    {picked : Except JsError (List AccountId)} {generated : Timestamp}
    (leaves : history.LeavesSignatures proto (.freezeWith client picked generated)) :
    (history.step proto (.freezeWith client picked generated)).Tracks := by
  have step : history.step proto (.freezeWith client picked generated) =
      ⟨((Transaction.freezeWith proto client picked generated).run history.tx).2, history.live⟩ := by
    rw [KeyHistory.step, Transaction.step, liveAfter]
    split <;> rfl
  rw [step]
  rcases leaves with none | ⟨sameMode, kind⟩
  · exact tracks.freeze_nil none client picked generated
  · obtain ⟨unlocked, records⟩ := @kept_freezeWith proto client picked generated history.tx
    have mode := @signOnDemand_freezeWith proto client picked generated history.tx
    rw [← sameMode] at mode
    refine tracks.of_records unlocked records ?_
    obtain ⟨-, keys, signers⟩ := signerRecords_eq_iff.mp records
    cases onDemand : history.tx.signOnDemand with
    | true =>
        have inPlace := (inPlace_of_onDemand onDemand).mp tracks.inPlace
        have blank := (@survives_blank proto history.tx.signerRecords).freezeWith client picked generated history.tx
          ⟨tracks.unlocked, rfl, inPlace.2.2.2⟩
        rw [inPlace_of_onDemand (mode.trans onDemand), keys, signers]
        exact ⟨inPlace.1, inPlace.2.1, inPlace.2.2.1, blank.2.2⟩
    | false =>
        have inPlace := (inPlace_of_immediate onDemand).mp tracks.inPlace
        rw [inPlace_of_immediate (mode.trans onDemand)]
        have thrown (throws : ((freezeBase proto client picked generated).run history.tx).1 ≠ .ok ()) :
            ((Transaction.freezeWith proto client picked generated).run history.tx).2.signedTransactions =
              history.tx.signedTransactions := by
          have same := signed_of_freezeBase_throws throws
          rcases ran : (freezeBase proto client picked generated).run history.tx with ⟨e | _, after⟩
          · rw [ran] at same
            rw [Transaction.freezeWith, Method.run_bind_error ran]
            exact same
          · rw [ran] at throws
            exact absurd rfl throws
        rcases kind with onDemand' | throws | ⟨locked, whole⟩
        · rw [onDemand] at onDemand'
          cases onDemand'
        · rw [thrown throws]
          exact inPlace
        · by_cases returns : ((freezeBase proto client picked generated).run history.tx).1 = .ok ()
          · have ran := Method.run_of_ok returns
            obtain ⟨nodes, -, -, -, built⟩ := freezeBase_eq_ok ran
            rw [freezeWith_of_none whole, built, if_pos (by simp [locked])]
            rw [signedTransactions_settled]
            exact inPlace
          · rw [thrown returns]
            exact inPlace

variable (proto) in
/-- A transaction that is frozen, or that no key has signed, may be frozen first. -/
theorem Tracks.freezeIfNeeded (tracks : history.Tracks) (generated : Timestamp)
    (apart : history.live = [] ∨ history.tx.isFrozen = true) :
    Tracks ⟨((freezeIfNeeded proto generated).run history.tx).2, history.live⟩ := by
  rw [Transaction.freezeIfNeeded, Method.run_this_bind]
  split
  · exact tracks
  · rename_i unfrozen
    exact tracks.freeze_nil (apart.resolve_right unfrozen) none (.ok []) generated

/-! ### Adding and removing -/

theorem Tracks.addSignature (tracks : history.Tracks) {key : PublicKey} {signatures : SignatureMap}
    {generated : Timestamp} (admits : history.Admits proto (.addSignature key signatures generated))
    (leaves : history.LeavesSignatures proto (.addSignature key signatures generated)) :
    (history.step proto (.addSignature key signatures generated)).Tracks := by
  have apart : history.live = [] ∨ history.tx.isFrozen = true := leaves.imp And.left And.left
  have ready := tracks.freezeIfNeeded proto generated apart
  have returned : ((Transaction.addSignature proto key signatures generated).run history.tx).1 = .ok () := admits
  have step : history.step proto (.addSignature key signatures generated) =
      ⟨((Transaction.addSignature proto key signatures generated).run history.tx).2,
        if key ∈ history.live then history.live else history.live ++ [key]⟩ := by
    have ran : ((TransactionOp.addSignature key signatures generated).method proto).run history.tx = _ :=
      Method.run_of_ok returned
    rw [step_of_run ran, liveAfter, ran]
    rfl
  rw [step]
  rcases freezes : (Transaction.freezeIfNeeded proto generated).run history.tx with ⟨e | _, frozen⟩
  · rw [Transaction.addSignature, Method.run_bind_error freezes] at returned
    cases returned
  · rw [freezes] at ready
    by_cases known : key.hex ∈ frozen.signerPublicKeys
    · rw [run_addSignature_known freezes known, if_pos ((ready.known key).mp known)]
      exact ready
    · have new : key ∉ history.live := fun live => known ((ready.known key).mpr live)
      have immediate : frozen.signOnDemand = false := by
        rcases leaves with ⟨_, unfrozen⟩ | ⟨isFrozen, apart⟩
        · rw [Transaction.freezeIfNeeded, Method.run_this_bind, if_neg (by simp [unfrozen])] at freezes
          have mode := @signOnDemand_freezeWith proto none (.ok []) generated history.tx
          rw [← freeze, freezes] at mode
          exact mode
        · rw [run_freezeIfNeeded proto isFrozen] at freezes
          cases freezes
          exact Bool.eq_false_of_not_eq_true fun onDemand => new (apart onDemand)
      have inPlace := (inPlace_of_immediate immediate).mp ready.inPlace
      rw [run_addSignature_unknown freezes known] at returned ⊢
      cases looped : addEach proto key signatures frozen.signedTransactions.list with
      | mk outcome added =>
          rw [looped] at returned
          cases outcome with
          | error e => cases returned
          | ok _ =>
              rw [if_neg new]
              refine ready.add new rfl ready.unlocked (.inr ⟨rfl, _, rfl⟩) ?_
              refine (inPlace_of_immediate ?_).mpr (forall_carriesEach_concat inPlace (addEach_eq_ok looped rfl))
              exact immediate

variable (proto) in
/-- What is frozen only now has no pairs and the records that it had. -/
theorem blank_freezeIfNeeded (unlocked : history.tx.transactions.locked = false)
    (unfrozen : history.tx.isFrozen = false) (generated : Timestamp) :
    Blank history.tx.signerRecords ((Transaction.freezeIfNeeded proto generated).run history.tx).2 := by
  rw [Transaction.freezeIfNeeded, Method.run_this_bind, if_neg (by simp [unfrozen])]
  have none : history.tx.signedTransactions.list = [] := by
    rw [isFrozen, decide_eq_false_iff_not, Nat.not_lt, Nat.le_zero] at unfrozen
    exact List.length_eq_zero_iff.mp unfrozen
  exact (@survives_blank proto _).freezeWith _ _ _ _ ⟨unlocked, rfl, by simp [none]⟩

/-- The only key may be taken away by a call that freezes first. -/
theorem Tracks.remove_only (tracks : history.Tracks) {key : PublicKey} (only : history.live = [key])
    {frozen : Transaction} (blank : Blank history.tx.signerRecords frozen) :
    Tracks ⟨forgetSigner key (mapSigned (removeSignaturesFromTransaction key.hex) frozen), []⟩ := by
  obtain ⟨known, keys, signers⟩ := signerRecords_eq_iff.mp blank.2.1
  have listed := tracks.keys
  have fewer := tracks.signers
  have all := tracks.known
  rw [only] at listed
  simp only [only, List.mem_singleton] at all
  have length := listed.length_le
  rw [List.length_singleton] at length
  refine tracks_nil (fun other member => ?_) blank.1 ?_ ?_ ?_
  · have left : other.hex ∈ frozen.signerPublicKeys.erase key.hex := member
    rw [Finset.mem_erase, known, all, Ne, PublicKey.hex_inj] at left
    exact left.1 left.2
  · change (frozen.publicKeys.filter fun other => !other.equals key) = []
    rw [keys, List.filter_eq_nil_iff]
    intro other member
    rw [List.mem_singleton.mp (listed.subset member)]
    simp [PublicKey.equals]
  · change frozen.transactionSigners.dropLast = []
    rw [signers, ← List.length_eq_zero_iff, List.length_dropLast]
    omega
  · refine List.forall_mem_map.mpr fun signed member => ?_
    exact carriesEach_nil.mp ((carriesEach_nil.mpr (blank.2.2 signed member)).remove key)

theorem Tracks.removeSignature (tracks : history.Tracks) {key : PublicKey} {generated : Timestamp}
    (leaves : history.LeavesSignatures proto (.removeSignature key generated)) :
    (history.step proto (.removeSignature key generated)).Tracks := by
  rcases freezes : (Transaction.freezeIfNeeded proto generated).run history.tx with ⟨e | _, frozen⟩
  · have ran : ((TransactionOp.removeSignature key generated).method proto).run history.tx = (.error e, frozen) := by
      rw [TransactionOp.method, Transaction.removeSignature, Method.run_bind_error (Method.run_bind_error freezes)]
    have apart : history.live = [] ∨ history.tx.isFrozen = true := by
      rcases leaves with none | isFrozen | ⟨_, returned⟩
      · exact .inl none
      · exact .inr isFrozen
      · rw [freezes] at returned
        cases returned
    have ready := tracks.freezeIfNeeded proto generated apart
    rw [freezes] at ready
    rw [step_of_error ran]
    exact ready
  · have removing := @run_removeSignature proto key _ _ _ freezes
    have steps : history.step proto (.removeSignature key generated) =
        if key.hex ∈ frozen.signerPublicKeys then
          ⟨forgetSigner key (mapSigned (removeSignaturesFromTransaction key.hex) frozen),
            history.live.filter (· ≠ key)⟩
        else ⟨frozen, history.live⟩ := by
      split
      · rename_i known
        rw [if_pos known] at removing
        have ran : ((TransactionOp.removeSignature key generated).method proto).run history.tx =
            (.ok (), forgetSigner key (mapSigned (removeSignaturesFromTransaction key.hex) frozen)) := by
          rw [TransactionOp.method, Method.run_bind_ok removing]
          rfl
        rw [step_of_run ran, liveAfter, ran]
      · rename_i unknown
        rw [if_neg unknown] at removing
        exact step_of_error (Method.run_bind_error removing)
    rw [steps]
    by_cases apart : history.live = [] ∨ history.tx.isFrozen = true
    · have ready := tracks.freezeIfNeeded proto generated apart
      rw [freezes] at ready
      split
      · rename_i known
        exact ready.remove ((ready.known key).mp known)
      · exact ready
    · rw [not_or] at apart
      have only := ((leaves.resolve_left apart.1).resolve_left apart.2).1
      have blank := blank_freezeIfNeeded proto tracks.unlocked (by simpa using apart.2) generated
      rw [freezes] at blank
      have known : key.hex ∈ frozen.signerPublicKeys := by
        rw [(signerRecords_eq_iff.mp blank.2.1).1, tracks.known, only]
        exact List.mem_singleton_self key
      have left : history.live.filter (· ≠ key) = [] := by simp [only]
      rw [if_pos known, left]
      exact tracks.remove_only only blank

theorem Tracks.removeAllSignatures (tracks : history.Tracks) {generated : Timestamp}
    (leaves : history.LeavesSignatures proto (.removeAllSignatures generated)) :
    (history.step proto (.removeAllSignatures generated)).Tracks := by
  rcases freezes : (Transaction.freezeIfNeeded proto generated).run history.tx with ⟨e | _, frozen⟩
  · have ran : ((TransactionOp.removeAllSignatures generated).method proto).run history.tx = (.error e, frozen) := by
      rw [TransactionOp.method, Transaction.removeAllSignatures,
        Method.run_bind_error (Method.run_bind_error freezes)]
    have none := leaves.resolve_right fun returned => by
      rw [freezes] at returned
      cases returned
    have ready := tracks.freezeIfNeeded proto generated (.inl none)
    rw [freezes] at ready
    rw [step_of_error ran]
    exact ready
  · have clearing := @run_removeAllSignatures proto _ _ _ freezes
    cases collecting : collectSignatures proto frozen.signedTransactions.list .empty with
    | error e =>
        rw [collecting] at clearing
        rw [step_of_error (Method.run_bind_error clearing)]
        have apart : history.live = [] ∨ history.tx.isFrozen = true := by
          by_contra apart
          rw [not_or] at apart
          have blank := blank_freezeIfNeeded proto tracks.unlocked (by simpa using apart.2) generated
          rw [freezes] at blank
          have walk := walkEnd_collectSignatures (@collects_empty proto) frozen.signedTransactions.list
          rw [collecting] at walk
          obtain ⟨pair, member, _⟩ := walk
          obtain ⟨signed, listed, inPairs⟩ := List.mem_flatMap.mp member
          rw [blank.2.2 signed listed] at inPairs
          exact absurd inPairs List.not_mem_nil
        have ready := tracks.freezeIfNeeded proto generated apart
        rw [freezes] at ready
        exact ready
    | ok collected =>
        rw [collecting] at clearing
        have ran : ((TransactionOp.removeAllSignatures generated).method proto).run history.tx = (.ok (),
            { mapSigned (fun signed => { signed with sigMap := signed.sigMap.map fun _ => [] }) frozen with
              signerPublicKeys := ∅
              publicKeys := []
              transactionSigners := [] }) := by
          rw [TransactionOp.method, Method.run_bind_ok clearing]
          rfl
        rw [step_of_run ran, liveAfter, ran]
        refine tracks_nil (fun key => Finset.notMem_empty _) ?_ rfl rfl ?_
        · change frozen.transactions.locked = false
          by_cases isFrozen : history.tx.isFrozen = true
          · rw [run_freezeIfNeeded proto isFrozen] at freezes
            cases freezes
            exact tracks.unlocked
          · have blank := blank_freezeIfNeeded proto tracks.unlocked (by simpa using isFrozen) generated
            rw [freezes] at blank
            exact blank.1
        · refine List.forall_mem_map.mpr fun signed _ => ?_
          rw [SignedTransaction.sigPair]
          cases signed.sigMap <;> rfl

end Calls

/-! ## Runs -/

theorem Tracks.step {history : KeyHistory} (tracks : history.Tracks) (op : TransactionOp)
    (admits : history.Admits proto op) (leaves : history.LeavesSignatures proto op) :
    (history.step proto op).Tracks := by
  cases op with
  | freezeWith client picked generated => exact tracks.freezeWith leaves
  | signWith key signer moment => exact tracks.signWith admits key moment
  | addSignature key signatures generated => exact tracks.addSignature admits leaves
  | removeSignature key generated => exact tracks.removeSignature leaves
  | removeAllSignatures generated => exact tracks.removeAllSignatures leaves

section Samples

/-- A signer whose signatures are the same byte. -/
def constantSigner : Signer := fun _ _ => .ok [1]

theorem resolves_constantSigner : Resolves constantSigner := fun _ _ => ⟨[1], rfl⟩

def otherKey : PublicKey := ⟨.ed25519, List.replicate 32 6, rfl⟩

/-- Two keys sign a frozen transaction, and the first is taken away. -/
def signAndRemove : List TransactionOp := [
  .freezeWith none (.ok []) ⟨0, 0⟩,
  .signWith sampleKey constantSigner 0,
  .signWith otherKey constantSigner 0,
  .removeSignature sampleKey ⟨0, 0⟩]

theorem neverSigned_sampleTransfer (nodes : List Int) : NeverSigned (sampleTransfer nodes) where
  unlocked := rfl
  signerPublicKeys := rfl
  publicKeys := rfl
  transactionSigners := rfl
  pairs := by simp [sampleTransfer]

/-- A key signs a frozen transaction, which is frozen again. -/
def signAndFreeze : List TransactionOp := [
  .freezeWith none (.ok []) ⟨0, 0⟩,
  .signWith sampleKey constantSigner 0,
  .freezeWith none (.ok []) ⟨0, 0⟩]

/-- The signature is gone, and the key is still taken for one that has signed. -/
theorem frozen_again_drops_signature : NeverSigned (sampleTransfer [3]) ∧
    Guarded (step prefixProto) (Admits prefixProto) ⟨sampleTransfer [3], []⟩ signAndFreeze ∧
    ¬ CarriesLive prefixProto (runAll (step prefixProto) ⟨sampleTransfer [3], []⟩ signAndFreeze) := by
  refine ⟨neverSigned_sampleTransfer [3], ⟨trivial, resolves_constantSigner, trivial, trivial⟩, fun carries => ?_⟩
  set last := runAll (step prefixProto) ⟨sampleTransfer [3], []⟩ signAndFreeze with lastIs
  have live : last.live = [sampleKey] := by
    rw [lastIs]
    decide +kernel
  have immediate : last.tx.signOnDemand = false := by
    rw [lastIs]
    decide +kernel
  have unlocked : last.tx.transactions.locked = false := by
    rw [lastIs]
    decide +kernel
  have pairs : (last.tx.signedTransactions.get 0).map SignedTransaction.sigPair = some [] := by
    rw [lastIs]
    decide +kernel
  obtain ⟨signed, found, none⟩ := Option.map_eq_some_iff.mp pairs
  have place : (last.tx.atCursors 0 0).signedTransactions.get (last.tx.atCursors 0 0).requestIndex = some signed := by
    have index : (last.tx.atCursors 0 0).requestIndex = 0 := by simp [requestIndex, atCursors]
    rw [index]
    exact found
  have made := @makeRequestAsync_of_signed prefixProto (last.tx.atCursors 0 0) immediate unlocked signed place 0
  obtain ⟨other, same, carriesEach⟩ := carries.carried 0 0 0 _ _ (Method.run_of_ok made)
  rw [← Proto.wrap_inj prefixProto_faithful same, CarriesEach, none, live] at carriesEach
  exact absurd carriesEach.length_eq (by simp)

end Samples

end KeyHistory

end HederaSdk.Transaction
