import HederaSdk.Library.Columns
import HederaSdk.Transaction.Execute
import HederaSdk.Transaction.Operations
import HederaSdk.Transaction.Validation

/-!
# Keys beside their signers

A transaction that is signed on demand walks its keys and its signers in step. The
book lists which signer was given with which key: the two arrays are to be its two
columns. Every call keeps them so but `removeSignature`, which drops a key wherever
it stands and the signer that stands last.
-/

namespace HederaSdk.Transaction

open Library

variable {proto : Proto}

/-! ## Calls -/

/-- A key that came with its signatures has no signer. -/
abbrev SignerEntry := PublicKey × Option Signer

/-- A call on the transaction, or another one is loaded in its place. -/
inductive SignerCall where
  | call (op : TransactionOp)
  | load (bytes : Bytes)

/-- What a call enters in the book, or strikes from it; one that throws does neither. -/
def bookAfter (proto : Proto) (tx : Transaction) (op : TransactionOp) (book : List SignerEntry) :
    List SignerEntry :=
  match ((op.method proto).run tx).1 with
  | .error _ => book
  | .ok _ =>
      match op with
      | .freezeWith _ _ _ => book
      | .signWith key signer _ =>
          if tx.signOnDemand = true ∧ key.hex ∉ tx.signerPublicKeys then book ++ [(key, some signer)]
          else book
      | .addSignature key _ _ =>
          if key.hex ∈ tx.signerPublicKeys then book else book ++ [(key, none)]
      | .removeSignature key _ => book.filter fun entry => !entry.1.equals key
      | .removeAllSignatures _ => []

def TransactionOp.signing : TransactionOp → List (PublicKey × Signer)
  | .signWith key signer _ => [(key, signer)]
  | _ => []

/-- A transaction with the book of its signers and all that `signWith` was called with. -/
structure SignerHistory where
  tx : Transaction
  book : List SignerEntry := []
  given : List (PublicKey × Signer) := []

namespace SignerHistory

def step (proto : Proto) (types : TypeReaders) (history : SignerHistory) :
    SignerCall → SignerHistory
  | .call op => {
      tx := Transaction.step proto history.tx op
      book := bookAfter proto history.tx op history.book
      given := history.given ++ op.signing }
  | .load bytes =>
      match fromBytes proto types bytes with
      | .error _ => history
      | .ok tx => { history with tx, book := tx.publicKeys.map fun key => (key, none) }

/-- Every pair that signing on demand puts under a key was made by a signer given with it. -/
def SignsForOwners (proto : Proto) (history : SignerHistory) : Prop :=
  ∀ moment signed, ((signTransaction proto moment).run history.tx).1 = .ok signed →
    ∀ pair ∈ signed.sigPair, ∃ key signer moment' signature, (key, signer) ∈ history.given ∧
      signer moment' signed.bodyBytes = .ok signature ∧ pair = key.toProtobufSignature signature

structure SignsInStep (proto : Proto) (history : SignerHistory) : Prop where
  columns : Columns history.book history.tx.publicKeys history.tx.transactionSigners
  signed : history.SignsForOwners proto

/-- Where the call takes a key away, it stands once among the keys, and those behind
it have its signer; or nothing stands there. -/
def Removable (proto : Proto) (history : SignerHistory) : SignerCall → Prop
  | .call (.removeSignature key generated) =>
      ((freezeIfNeeded proto generated).run history.tx).1 = .ok () →
        key.hex ∈ history.tx.signerPublicKeys →
          EndsAlike (fun other => !other.equals key)
            (history.tx.publicKeys.zip history.tx.transactionSigners)
  | _ => True

/-- The signers in the book were given with their keys. -/
def Booked (history : SignerHistory) : Prop :=
  ∀ key signer, (key, some signer) ∈ history.book → (key, signer) ∈ history.given

end SignerHistory

/-! ## Signing -/

theorem signPairs_made {bodyBytes : Bytes} {moment : Nat} {keys : List PublicKey}
    {signers : List (Option Signer)} {pairs : List SignaturePair}
    (made : signPairs bodyBytes moment keys signers = .ok pairs) :
    ∀ pair ∈ pairs, ∃ key signer moment' signature, (key, some signer) ∈ keys.zip signers ∧
      signer moment' bodyBytes = .ok signature ∧ pair = key.toProtobufSignature signature := by
  induction keys generalizing moment signers pairs with
  | nil =>
      cases made
      simp
  | cons key keys inductionHypothesis =>
      rcases signers with _ | ⟨_ | signer, signers⟩
      · intro pair member
        obtain ⟨_, _, _, _, none, -⟩ := inductionHypothesis (by simpa [signPairs] using made) pair member
        simp at none
      · intro pair member
        obtain ⟨other, signer, moment', signature, inRest, signs⟩ :=
          inductionHypothesis (by simpa [signPairs] using made) pair member
        exact ⟨other, signer, moment', signature, List.mem_cons_of_mem _ inRest, signs⟩
      · simp only [signPairs, List.head?_cons, Option.join_some, List.tail_cons] at made
        cases signs : signer moment bodyBytes with
        | error e =>
            rw [signs] at made
            cases made
        | ok signature =>
            rw [signs] at made
            obtain ⟨rest, later, rfl⟩ := except_map_eq_ok.mp made
            intro pair member
            rcases List.mem_cons.mp member with rfl | member
            · exact ⟨key, signer, moment, signature, List.mem_cons_self, signs, rfl⟩
            · obtain ⟨other, signer, moment', signature, inRest, signs⟩ :=
                inductionHypothesis later pair member
              exact ⟨other, signer, moment', signature, List.mem_cons_of_mem _ inRest, signs⟩

theorem signTransaction_eq_ok {moment : Nat} {tx : Transaction} {signed : SignedTransaction}
    (returned : ((signTransaction proto moment).run tx).1 = .ok signed) :
    signPairs signed.bodyBytes moment tx.publicKeys tx.transactionSigners = .ok signed.sigPair := by
  have ran := Method.run_of_ok returned
  generalize ((signTransaction proto moment).run tx).2 = left at ran
  rw [signTransaction, Method.run_this_bind, Method.run_update_bind] at ran
  obtain ⟨pairs, after, made, last⟩ := Method.run_bind_eq_ok.mp ran
  cases pairsIs : signPairs (tx.makeSignedTransaction proto tx.nodeAccountIds.current).bodyBytes moment
      tx.publicKeys tx.transactionSigners with
  | error e =>
      rw [pairsIs] at made
      cases made
  | ok list =>
      rw [pairsIs] at made
      cases made
      cases last
      exact pairsIs

namespace SignerHistory

/-- In step, the arrays make no one sign for another. -/
theorem signsForOwners {history : SignerHistory} (booked : history.Booked)
    (columns : Columns history.book history.tx.publicKeys history.tx.transactionSigners) :
    history.SignsForOwners proto := by
  intro moment signed returned pair member
  obtain ⟨key, signer, moment', signature, beside, signs, made⟩ :=
    signPairs_made (signTransaction_eq_ok returned) pair member
  rw [columns.zip_eq] at beside
  exact ⟨key, signer, moment', signature, booked key signer beside, signs, made⟩

theorem Booked.of_sublist {history : SignerHistory} (booked : history.Booked) {book : List SignerEntry}
    (within : ∀ entry ∈ book, entry ∈ history.book) {given : List (PublicKey × Signer)}
    (more : ∀ pair ∈ history.given, pair ∈ given) (tx : Transaction) : Booked ⟨tx, book, given⟩ :=
  fun key signer member => more _ (booked key signer (within _ member))

theorem Booked.step {history : SignerHistory} (booked : history.Booked) (proto : Proto)
    (types : TypeReaders) (call : SignerCall) : (history.step proto types call).Booked := by
  cases call with
  | load bytes =>
      unfold SignerHistory.step
      dsimp only
      cases fromBytes proto types bytes with
      | error e => exact booked
      | ok tx =>
          intro key signer member
          obtain ⟨_, _, same⟩ := List.mem_map.mp member
          cases same
  | call op =>
      have more : ∀ pair ∈ history.given, pair ∈ history.given ++ op.signing :=
        fun _ => List.mem_append_left _
      have old := booked.of_sublist (fun _ => id) more (Transaction.step proto history.tx op)
      unfold SignerHistory.step bookAfter
      dsimp only
      split
      · exact old
      · cases op with
        | freezeWith client picked generated => exact old
        | signWith key signer moment =>
            dsimp only
            split
            · intro other signer' member
              rcases List.mem_append.mp member with before | last
              · exact old other signer' before
              · cases List.mem_singleton.mp last
                exact List.mem_append_right _ (List.mem_singleton_self _)
            · exact old
        | addSignature key signatures generated =>
            dsimp only
            split
            · exact old
            · intro other signer' member
              rcases List.mem_append.mp member with before | last
              · exact old other signer' before
              · cases List.mem_singleton.mp last
        | removeSignature key generated =>
            exact booked.of_sublist (fun _ => List.mem_of_mem_filter) more _
        | removeAllSignatures generated => exact fun _ _ member => absurd member List.not_mem_nil

end SignerHistory

/-! ## What a call does to the arrays -/

section Calls

variable {tx : Transaction} {book : List SignerEntry}

/-- The arrays are the columns of the book. -/
def InColumns (book : List SignerEntry) (tx : Transaction) : Prop :=
  Columns book tx.publicKeys tx.transactionSigners

theorem InColumns.congr {tx' : Transaction} (columns : InColumns book tx)
    (same : tx'.signerRecords = tx.signerRecords) : InColumns book tx' := by
  obtain ⟨-, keys, signers⟩ := signerRecords_eq_iff.mp same
  rw [InColumns, keys, signers]
  exact columns

theorem signerRecords_freezeWith (proto : Proto) (client : Option Client) (picked : Except JsError (List AccountId))
    (generated : Timestamp) (tx : Transaction) :
    ((Transaction.freezeWith proto client picked generated).run tx).2.signerRecords = tx.signerRecords :=
  SurvivesFreezing.freezeWith (I := fun after => after.signerRecords = tx.signerRecords)
    (.of_untouched fun _ _ same kept => (congrArg (fun part => part.2.2) same).trans kept) _ _ _ tx rfl

theorem signerRecords_freezeIfNeeded (proto : Proto) (generated : Timestamp) (tx : Transaction) :
    ((freezeIfNeeded proto generated).run tx).2.signerRecords = tx.signerRecords := by
  rw [freezeIfNeeded, Method.run_this_bind]
  split
  · rfl
  · exact signerRecords_freezeWith proto none (.ok []) generated tx

theorem inColumns_signWith (columns : InColumns book tx) (key : PublicKey) (signer : Signer)
    (moment : Nat) :
    InColumns (bookAfter proto tx (.signWith key signer moment) book)
      (Transaction.step proto tx (.signWith key signer moment)) := by
  rw [bookAfter, Transaction.step, TransactionOp.method]
  by_cases frozen : tx.isFrozenOrOnDemand = true
  · by_cases known : key.hex ∈ tx.signerPublicKeys
    · rw [run_signWith_known frozen known]
      simpa [known] using columns
    · cases mode : tx.signOnDemand with
      | true =>
          rw [run_signWith_onDemand mode known]
          simp only [known, not_false_eq_true, and_self, if_true]
          exact Columns.concat columns key (some signer)
      | false =>
          rw [run_signWith_immediate frozen mode known, replaceSigned, Method.run_update_bind]
          cases (signEach key signer moment tx.signedTransactions.list).1 with
          | error e => exact columns
          | ok _ =>
              simp only [Bool.false_eq_true, false_and, if_false]
              exact columns
  · simpa [signWith, requireFrozen, frozen, Method.run_bind] using columns

theorem inColumns_addSignature (columns : InColumns book tx) (key : PublicKey)
    (signatures : SignatureMap) (generated : Timestamp) :
    InColumns (bookAfter proto tx (.addSignature key signatures generated) book)
      (Transaction.step proto tx (.addSignature key signatures generated)) := by
  rw [bookAfter, Transaction.step, TransactionOp.method]
  have records := signerRecords_freezeIfNeeded proto generated tx
  rcases freezes : (freezeIfNeeded proto generated).run tx with ⟨e | _, frozen⟩ <;>
    rw [freezes] at records
  · rw [addSignature, Method.run_bind_error freezes]
    exact columns.congr records
  · have knows : frozen.signerPublicKeys = tx.signerPublicKeys := congrArg Prod.fst records
    have kept := columns.congr records
    by_cases known : key.hex ∈ frozen.signerPublicKeys
    · rw [run_addSignature_known freezes known]
      rw [knows] at known
      simpa [known] using kept
    · rw [run_addSignature_unknown freezes known]
      rw [knows] at known
      dsimp only
      cases (addEach proto key signatures frozen.signedTransactions.list).1 with
      | error e => exact kept
      | ok _ =>
          simp only [known, if_false]
          exact Columns.concat kept key none

theorem inColumns_removeAllSignatures (columns : InColumns book tx) (generated : Timestamp) :
    InColumns (bookAfter proto tx (.removeAllSignatures generated) book)
      (Transaction.step proto tx (.removeAllSignatures generated)) := by
  rw [bookAfter, Transaction.step, TransactionOp.method]
  have records := signerRecords_freezeIfNeeded proto generated tx
  rcases freezes : (freezeIfNeeded proto generated).run tx with ⟨e | _, frozen⟩ <;>
    rw [freezes] at records
  · rw [removeAllSignatures, Method.run_bind_error (Method.run_bind_error freezes)]
    exact columns.congr records
  · have ran := run_removeAllSignatures freezes
    cases collected : collectSignatures proto frozen.signedTransactions.list .empty with
    | error e =>
        rw [collected] at ran
        rw [Method.run_bind_error ran]
        exact columns.congr records
    | ok removed =>
        rw [collected] at ran
        rw [Method.run_bind_ok ran]
        exact Columns.nil

/-- Removing a signature keeps the arrays in step only where the key is removable. -/
theorem inColumns_removeSignature_iff (columns : InColumns book tx) (key : PublicKey)
    (generated : Timestamp) (given : List (PublicKey × Signer)) :
    InColumns (bookAfter proto tx (.removeSignature key generated) book)
        (Transaction.step proto tx (.removeSignature key generated)) ↔
      SignerHistory.Removable proto ⟨tx, book, given⟩ (.call (.removeSignature key generated)) := by
  rw [bookAfter, Transaction.step, TransactionOp.method, SignerHistory.Removable]
  have records := signerRecords_freezeIfNeeded proto generated tx
  rcases freezes : (freezeIfNeeded proto generated).run tx with ⟨e | _, frozen⟩ <;>
    rw [freezes] at records
  · have ran : (removeSignature proto key generated).run tx = (.error e, frozen) := by
      rw [removeSignature, Method.run_bind_error freezes]
    rw [Method.run_bind_error ran]
    exact iff_of_true (columns.congr records) fun returned => by cases returned
  · have ran : (removeSignature proto key generated).run tx = _ := run_removeSignature freezes
    have knows : frozen.signerPublicKeys = tx.signerPublicKeys := congrArg Prod.fst records
    rw [knows] at ran
    have kept := columns.congr records
    by_cases known : key.hex ∈ tx.signerPublicKeys
    · rw [if_pos known] at ran
      rw [Method.run_bind_ok ran, Columns.zip_eq columns]
      have dropped := Columns.filter_dropLast_iff kept fun other => !other.equals key
      constructor
      · exact fun inStep _ _ => dropped.mp inStep
      · exact fun alike => dropped.mpr (alike rfl known)
    · rw [if_neg known] at ran
      rw [Method.run_bind_error ran]
      exact iff_of_true kept fun _ stands => absurd stands known

end Calls

/-! ## Runs -/

namespace SignerHistory

/-- Of all calls, only the removal of a key that is not removable breaks the arrays apart. -/
theorem removable_iff_inColumns (types : TypeReaders) {history : SignerHistory}
    (columns : InColumns history.book history.tx) (call : SignerCall) :
    Removable proto history call ↔
      InColumns (history.step proto types call).book (history.step proto types call).tx := by
  cases call with
  | load bytes =>
      refine iff_of_true trivial ?_
      unfold SignerHistory.step
      dsimp only
      cases read : fromBytes proto types bytes with
      | error e => exact columns
      | ok tx =>
          obtain ⟨_, _, _, _, loaded⟩ := fromBytes_eq_ok read
          constructor
          · simp [Function.comp_def]
          · rw [loaded.signers]
            simp [Function.comp_def, List.map_const']
  | call op =>
      cases op with
      | freezeWith client picked generated =>
          refine iff_of_true trivial ?_
          have kept := columns.congr (signerRecords_freezeWith proto client picked generated _)
          have same : bookAfter proto history.tx (.freezeWith client picked generated) history.book =
              history.book := by
            unfold bookAfter
            split <;> rfl
          rw [SignerHistory.step]
          dsimp only
          rw [same]
          exact kept
      | signWith key signer moment => exact iff_of_true trivial (inColumns_signWith columns key signer moment)
      | addSignature key signatures generated =>
          exact iff_of_true trivial (inColumns_addSignature columns key signatures generated)
      | removeSignature key generated =>
          exact (inColumns_removeSignature_iff columns key generated history.given).symm
      | removeAllSignatures generated =>
          exact iff_of_true trivial (inColumns_removeAllSignatures columns generated)

/-- Throughout a run the arrays hold the book in step and no signer signs for a key that it was
not given with, exactly when each key is removed where it is removable. -/
theorem signsInStep_throughout_iff (types : TypeReaders) {tx : Transaction} (fresh : Fresh tx)
    (calls : List SignerCall) :
    Guarded (SignerHistory.step proto types) (Removable proto) ⟨tx, [], []⟩ calls ↔
      ∀ first, first <+: calls →
        SignsInStep proto (runAll (SignerHistory.step proto types) ⟨tx, [], []⟩ first) := by
  have start : InColumns [] tx := by
    rw [InColumns, fresh.publicKeys, fresh.transactionSigners]
    exact Columns.nil
  have booked : Booked ⟨tx, [], []⟩ := fun _ _ member => absurd member List.not_mem_nil
  have all : Guarded (SignerHistory.step proto types) (fun _ _ => True) ⟨tx, [], []⟩ calls :=
    guarded_of_forall (fun _ _ => trivial) _ _
  refine guarded_iff_holds (I := Booked) (fun _ call booked => booked.step proto types call) ?_ booked
    ⟨start, signsForOwners booked start⟩ all
  intro history call booked _ inStep
  have now := booked.step proto types call
  rw [removable_iff_inColumns types inStep.columns call]
  exact ⟨fun columns => ⟨columns, signsForOwners now columns⟩, fun after => after.columns⟩

section Samples

/-- A signer whose signatures are one byte. -/
def markSigner (mark : UInt8) : Signer := fun _ _ => .ok [mark]

def secondKey : PublicKey := ⟨.ed25519, List.replicate 32 8, rfl⟩

/-- Two keys have signed a frozen transaction on demand. -/
def twoSigners : List SignerCall := [
  .call (.freezeWith none (.ok []) ⟨0, 0⟩),
  .call (.freezeWith (some { sampleClient [3] with signOnDemand := true }) (.ok []) ⟨0, 0⟩),
  .call (.signWith sampleKey (markSigner 1) 0),
  .call (.signWith secondKey (markSigner 2) 0)]

theorem fresh_sampleTransfer (nodes : List Int) : Fresh (sampleTransfer nodes) :=
  ⟨rfl, rfl, rfl, rfl, rfl, rfl⟩

def noReaders : TypeReaders := ⟨fun _ _ => .error (.error "no reader"), fun _ => 0⟩

/-- The key that came last is removed. -/
theorem last_key_is_removed_in_step : Fresh (sampleTransfer [3]) ∧
    SignsInStep prefixProto (runAll (SignerHistory.step prefixProto noReaders) ⟨sampleTransfer [3], [], []⟩
      (twoSigners ++ [.call (.removeSignature secondKey ⟨0, 0⟩)])) := by
  have fresh := fresh_sampleTransfer [3]
  refine ⟨fresh, (signsInStep_throughout_iff noReaders fresh _).mp ?_ _ (List.prefix_refl _)⟩
  refine ⟨trivial, trivial, trivial, trivial, fun _ _ => ?_, trivial⟩
  set signed := runAll (SignerHistory.step prefixProto noReaders) ⟨sampleTransfer [3], [], []⟩ twoSigners
    with signedIs
  have keys : signed.tx.publicKeys = [sampleKey, secondKey] := by
    rw [signedIs]
    decide +kernel
  have count : signed.tx.transactionSigners.length = 2 := by
    rw [signedIs]
    decide +kernel
  obtain ⟨first, second, signers⟩ := List.length_eq_two.mp count
  change EndsAlike _ (signed.tx.publicKeys.zip signed.tx.transactionSigners)
  rw [keys, signers]
  have itself : (!secondKey.equals secondKey) = false := by decide
  have other : (!sampleKey.equals secondKey) = true := by decide
  exact .inr ⟨[(sampleKey, first)], (secondKey, second), [], rfl, itself, by simpa using other, by simp⟩

/-- The first key is removed, and the signer of the first signs for the second. -/
theorem first_signer_signs_for_second :
    ¬ SignsInStep prefixProto (runAll (SignerHistory.step prefixProto noReaders) ⟨sampleTransfer [3], [], []⟩
      (twoSigners ++ [.call (.removeSignature sampleKey ⟨0, 0⟩)])) := by
  intro inStep
  have marks := congrArg (List.map fun signer => signer.map fun sign : Signer => (sign 0 []).toOption)
    inStep.columns.right_eq
  revert marks
  decide +kernel

end Samples

end SignerHistory

end HederaSdk.Transaction
