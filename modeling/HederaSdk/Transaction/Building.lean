import HederaSdk.Transaction.Requests

/-!
# What building a request does

Building at an index pads the list of built transactions up to the index and
wraps the signed transaction there. Nothing else of the transaction changes.
-/

namespace HederaSdk

open Library

namespace SdkList

variable {T : Type}

/-- The list with elements appended until the index is its end or within it. -/
def padTo (l : SdkList (Option T)) (index : Nat) : SdkList (Option T) :=
  { l with list := l.list ++ List.replicate (index - l.length) none }

theorem length_padTo (l : SdkList (Option T)) (index : Nat) :
    (l.padTo index).list.length = max l.list.length index := by
  simp only [padTo, length, List.length_append, List.length_replicate]
  omega

end SdkList

namespace Transaction

variable {proto : Proto}

def withTransactions (transactions : SdkList (Option ProtoTransaction)) (tx : Transaction) :
    Transaction := { tx with transactions }

section Steps

variable {tx : Transaction}

theorem run_encodeAt {index : Nat} {signed : SignedTransaction}
    (found : tx.signedTransactions.get index = some signed) :
    (encodeAt proto index).run tx =
      (.ok (), tx.withTransactions (tx.transactions.set index (some (proto.wrap signed)))) := by
  rw [encodeAt, Method.run_this_bind, found]
  rfl

theorem run_encodeAt_none {index : Nat} (missing : tx.signedTransactions.get index = none) :
    (encodeAt proto index).run tx =
      (.error (.typeError "Cannot read properties of undefined (reading 'sigMap')"), tx) := by
  rw [encodeAt, Method.run_this_bind, missing]
  rfl

/-- Appending throws at once when the list is locked. -/
theorem run_pushAbsent_all (indices : List Nat) (tx : Transaction) :
    (Method.forEach pushAbsent indices).run tx =
      if tx.transactions.locked = true ∧ indices ≠ [] then (.error (.error "list is locked"), tx)
      else (.ok (), tx.withTransactions
        { tx.transactions with
          list := tx.transactions.list ++ List.replicate indices.length none }) := by
  induction indices generalizing tx with
  | nil => simp [withTransactions]
  | cons i rest inductionHypothesis =>
      rw [Method.forEach_cons]
      cases locked : tx.transactions.locked with
      | true =>
          have thrown : (pushAbsent i).run tx = (.error (.error "list is locked"), tx) := by
            simp [pushAbsent, SdkList.push, locked, Method.run_bind]
          rw [Method.run_bind_error thrown]
          simp
      | false =>
          have pushed : (pushAbsent i).run tx = (.ok (), tx.withTransactions
              { tx.transactions with list := tx.transactions.list ++ [none] }) := by
            simp [pushAbsent, SdkList.push_of_unlocked locked, withTransactions, Method.run_bind]
          rw [Method.run_bind_ok pushed, inductionHypothesis]
          simp [withTransactions, locked, List.replicate_succ]

/-- The loop that pads the list. -/
theorem run_pad (index : Nat) (tx : Transaction) :
    (Method.forEach pushAbsent (List.range (index - tx.transactions.length))).run tx =
      if tx.transactions.locked = true ∧ tx.transactions.length < index then
        (.error (.error "list is locked"), tx)
      else (.ok (), tx.withTransactions (tx.transactions.padTo index)) := by
  rw [run_pushAbsent_all, List.length_range, SdkList.padTo]
  simp only [ne_eq, List.range_eq_nil, Nat.sub_eq_zero_iff_le, Nat.not_le]

end Steps

/-- The list of built transactions with the signed transaction wrapped at the index. -/
def builtAt (proto : Proto) (index : Nat) (signed : SignedTransaction)
    (transactions : SdkList (Option ProtoTransaction)) : SdkList (Option ProtoTransaction) :=
  (transactions.padTo index).set index (some (proto.wrap signed))

theorem length_builtAt (index : Nat) (signed : SignedTransaction)
    (transactions : SdkList (Option ProtoTransaction)) :
    (builtAt proto index signed transactions).list.length =
      max transactions.list.length (index + 1) := by
  have padded := transactions.length_padTo index
  rw [builtAt, SdkList.length_set (by omega), padded]
  omega

/-- Building at an index leaves what is set before it. -/
theorem get_builtAt_before {index i : Nat} (before : i < index) (signed : SignedTransaction)
    {transactions : SdkList (Option ProtoTransaction)} {item : Option ProtoTransaction}
    (there : transactions.list[i]? = some item) :
    (builtAt proto index signed transactions).list[i]? = some item := by
  have inside := (List.getElem?_eq_some_iff.mp there).1
  unfold builtAt SdkList.set SdkList.padTo
  split
  · rename_i last
    rw [List.append_assoc, List.getElem?_append_left inside, there]
  · simp only
    rw [List.getElem?_set_ne (by omega), List.getElem?_append_left inside, there]

theorem get_builtAt (index : Nat) (signed : SignedTransaction)
    (transactions : SdkList (Option ProtoTransaction)) :
    (builtAt proto index signed transactions).get index = some (some (proto.wrap signed)) :=
  SdkList.get_set (by rw [SdkList.length_padTo]; exact Nat.le_max_right ..) _

variable (proto) in
/-- What building leaves once the list has been padded. -/
theorem run_encode (tx : Transaction) {index : Nat} {signed : SignedTransaction}
    (found : tx.signedTransactions.get index = some signed)
    (padded : index ≤ tx.transactions.list.length) :
    (encodePresent proto index >>= fun _ => encodeMissing proto index).run tx =
      (.ok (), tx.withTransactions (tx.transactions.set index (some (proto.wrap signed)))) := by
  cases present : (tx.transactions.get index).join.isSome with
  | true =>
      have encoded : (encodePresent proto index).run tx =
          (.ok (), tx.withTransactions (tx.transactions.set index (some (proto.wrap signed)))) := by
        rw [encodePresent, Method.run_this_bind, if_pos present, run_encodeAt found]
      have set : ((tx.withTransactions
          (tx.transactions.set index (some (proto.wrap signed)))).transactions.get index) =
            some (some (proto.wrap signed)) := SdkList.get_set padded _
      rw [Method.run_bind_ok encoded, encodeMissing, Method.run_this_bind, set, if_neg (by simp)]
      rfl
  | false =>
      have skipped : (encodePresent proto index).run tx = (.ok (), tx) := by
        rw [encodePresent, Method.run_this_bind, if_neg (by simp [present])]
        rfl
      have absent : (tx.transactions.get index).join.isNone = true := by
        simpa [Option.isSome_eq_false_iff] using present
      rw [Method.run_bind_ok skipped, encodeMissing, Method.run_this_bind, if_pos absent,
        run_encodeAt found]

variable (proto) in
theorem run_encode_none (tx : Transaction) {index : Nat}
    (missing : tx.signedTransactions.get index = none) :
    ((encodePresent proto index >>= fun _ => encodeMissing proto index).run tx).1 ≠ .ok () := by
  cases present : (tx.transactions.get index).join.isSome with
  | true =>
      rw [Method.run_bind, encodePresent, Method.run_this_bind, if_pos present,
        run_encodeAt_none missing]
      simp
  | false =>
      have absent : (tx.transactions.get index).join.isNone = true := by
        simpa [Option.isSome_eq_false_iff] using present
      rw [Method.run_bind, encodePresent, Method.run_this_bind, if_neg (by simp [present]),
        Method.run_pure, encodeMissing]
      simp only [Method.run_this_bind]
      rw [if_pos absent, run_encodeAt_none missing]
      simp

/-- Building at an index that has a signed transaction. -/
theorem run_buildTransaction {tx : Transaction} {index : Nat} {signed : SignedTransaction}
    (unlocked : tx.transactions.locked = false)
    (found : tx.signedTransactions.get index = some signed) :
    (buildTransaction proto index).run tx =
      (.ok (), tx.withTransactions (builtAt proto index signed tx.transactions)) := by
  have pushed := run_pad index tx
  rw [if_neg (by simp [unlocked])] at pushed
  rw [buildTransaction, Method.run_this_bind, Method.run_bind_ok pushed]
  refine run_encode proto (tx.withTransactions _) found ?_
  rw [withTransactions, SdkList.length_padTo]
  exact Nat.le_max_right ..

/-- Building at an index either sets the element there or leaves everything as it is. -/
theorem run_buildTransaction_cases {tx : Transaction} {index : Nat} {signed : SignedTransaction}
    (found : tx.signedTransactions.get index = some signed) :
    (∃ e, (buildTransaction proto index).run tx = (.error e, tx)) ∨
      (buildTransaction proto index).run tx =
        (.ok (), tx.withTransactions (builtAt proto index signed tx.transactions)) := by
  have pushed := run_pad index tx
  rw [buildTransaction, Method.run_this_bind]
  split at pushed
  · exact .inl ⟨_, Method.run_bind_error pushed⟩
  · have padded : index ≤ (tx.withTransactions (tx.transactions.padTo index)).transactions.list.length := by
      rw [withTransactions, SdkList.length_padTo]
      exact Nat.le_max_right ..
    refine .inr ?_
    rw [Method.run_bind_ok pushed]
    exact run_encode proto (tx.withTransactions _) found padded

/-- A transaction is only built from the signed transaction at its index. -/
theorem buildTransaction_eq_ok {tx tx' : Transaction} {index : Nat}
    (built : (buildTransaction proto index).run tx = (.ok (), tx')) :
    ∃ signed, tx.signedTransactions.get index = some signed ∧
      tx' = tx.withTransactions (builtAt proto index signed tx.transactions) := by
  have pushed := run_pad index tx
  rw [buildTransaction, Method.run_this_bind] at built
  split at pushed
  · rw [Method.run_bind_error pushed] at built
    cases built
  · rw [Method.run_bind_ok pushed] at built
    have padded : index ≤ (tx.withTransactions (tx.transactions.padTo index)).transactions.list.length := by
      rw [withTransactions, SdkList.length_padTo]
      exact Nat.le_max_right ..
    cases found : tx.signedTransactions.get index with
    | none =>
        have thrown := run_encode_none proto (tx.withTransactions (tx.transactions.padTo index)) found
        exact absurd (congrArg Prod.fst built) thrown
    | some signed =>
        have encoded := run_encode proto (tx.withTransactions (tx.transactions.padTo index)) found
          padded
        rw [encoded] at built
        cases built
        exact ⟨signed, rfl, rfl⟩

/-! ## Requests -/

/-- At once, a request is the signed transaction at the position of the cursors. -/
theorem makeRequestAsync_immediate {tx tx' : Transaction} {moment : Nat}
    {request : ProtoTransaction} (immediate : tx.signOnDemand = false)
    (made : (makeRequestAsync proto moment).run tx = (.ok request, tx')) :
    ∃ signed, tx.signedTransactions.get tx.requestIndex = some signed ∧
      request = proto.wrap signed ∧
      tx' = tx.withTransactions (builtAt proto tx.requestIndex signed tx.transactions) := by
  rw [makeRequestAsync, Method.run_this_bind, if_neg (by simp [immediate])] at made
  obtain ⟨_, built, building, made⟩ := Method.run_bind_eq_ok.mp made
  obtain ⟨signed, found, rfl⟩ := buildTransaction_eq_ok building
  rw [Method.run_this_bind] at made
  simp only [withTransactions, get_builtAt] at made
  cases made
  exact ⟨signed, found, rfl, rfl⟩

/-- On demand, a request has a new body for the node under the cursor. -/
theorem makeRequestAsync_onDemand {tx tx' : Transaction} {moment : Nat}
    {request : ProtoTransaction} (onDemand : tx.signOnDemand = true)
    (made : (makeRequestAsync proto moment).run tx = (.ok request, tx')) :
    ∃ pairs, signPairs (proto.encodeBody (tx.makeTransactionBody proto tx.nodeAccountIds.current))
        moment tx.publicKeys tx.transactionSigners = .ok pairs ∧
      request = proto.wrap
        { tx.makeSignedTransaction proto tx.nodeAccountIds.current with sigMap := some pairs } ∧
      tx' = { tx with nodeAccountIds := tx.nodeAccountIds.advance } := by
  rw [makeRequestAsync, Method.run_this_bind, if_pos onDemand, buildTransactionAsync] at made
  obtain ⟨signed, after, signing, made⟩ := Method.run_bind_eq_ok.mp made
  rw [signTransaction, Method.run_this_bind, Method.run_update_bind] at signing
  obtain ⟨pairs, middle, signed', signing⟩ := Method.run_bind_eq_ok.mp signing
  cases signing
  cases made
  cases pairsIs : signPairs (proto.encodeBody (tx.makeTransactionBody proto tx.nodeAccountIds.current))
      moment tx.publicKeys tx.transactionSigners with
  | error e =>
      rw [makeSignedTransaction, pairsIs] at signed'
      cases signed'
  | ok list =>
      rw [makeSignedTransaction, pairsIs] at signed'
      cases signed'
      exact ⟨_, rfl, rfl, rfl⟩

end Transaction

end HederaSdk
