import HederaSdk.Token.Transfers

/-!
# A rejected transfer

`addTokenTransferWithDecimals` changes the entries of the token one by one and throws at
the first that expects other decimals. What it did to the entries before stays.
-/

namespace HederaSdk

open Library

namespace TokenTransfer

variable {token : TokenId} {account : AccountId} {value : Int} {decimals : Nat}
  {entry : TokenTransfer}

/-- An entry that a call has nothing to do to. -/
structure Settled (token : TokenId) (account : AccountId) (value : Int) (decimals : Nat)
    (entry : TokenTransfer) : Prop where
  decimals : entry.tokenId.compare token = 0 → entry.expectedDecimals = some decimals
  amount : entry.tokenId.compare token = 0 → entry.accountId.compare account = 0 →
    addLong entry.amount value = entry.amount

theorem withDecimals_eq_self_iff :
    entry.withDecimals token account value decimals = entry ↔
      entry.Settled token account value decimals := by
  obtain ⟨tokenId, accountId, expectedDecimals, amount, isApproved⟩ := entry
  rw [withDecimals]
  by_cases ofToken : tokenId.compare token = 0
  · by_cases ofAccount : accountId.compare account = 0
    · simp only [if_pos ofToken, if_pos ofAccount, mk.injEq, true_and, and_true]
      constructor
      · rintro ⟨same, unchanged⟩
        exact ⟨fun _ => same.symm, fun _ _ => unchanged⟩
      · intro settled
        exact ⟨(settled.decimals ofToken).symm, settled.amount ofToken ofAccount⟩
    · simp only [if_pos ofToken, if_neg ofAccount, mk.injEq, true_and, and_true]
      constructor
      · intro same
        exact ⟨fun _ => same.symm, fun _ own => absurd own ofAccount⟩
      · intro settled
        exact (settled.decimals ofToken).symm
  · simp only [if_neg ofToken, true_iff]
    exact ⟨fun own => absurd own ofToken, fun own => absurd own ofToken⟩

end TokenTransfer

namespace AbstractTokenTransferTransaction

variable {tx tx' : AbstractTokenTransferTransaction} {token : TokenId} {account : AccountId}
  {value : Int} {decimals : Nat}

/-- The entries that the loop has passed when it comes to one with other decimals. -/
def passed (token : TokenId) (decimals : Nat) (tx : AbstractTokenTransferTransaction) :
    List TokenTransfer :=
  tx.tokenTransfers.takeWhile fun entry => !entry.contradicts token decimals

/-- The error is thrown by the loop, which an entry with other decimals has stopped. -/
theorem contradicts_of_mismatch
    (threw : (addTokenTransferWithDecimals token account value decimals).run tx =
      (.error (.error "expected decimals mis-match"), tx')) :
    tx.transaction.isFrozenOrOnDemand = false ∧
      tx.tokenTransfers.any (TokenTransfer.contradicts token decimals) = true := by
  cases frozen : tx.transaction.isFrozenOrOnDemand with
  | true =>
      have refused : requireNotFrozen.run tx = (.error (.error
          "transaction is immutable; it has at least one signature or has been explicitly frozen"),
          tx) := by
        rw [requireNotFrozen, Method.run_zoom, Transaction.requireNotFrozen, Method.run_this_bind,
          if_pos frozen]
        rfl
      rw [addTokenTransferWithDecimals, Method.run_bind_error refused] at threw
      simp at threw
  | false =>
      refine ⟨rfl, ?_⟩
      by_contra agree
      have agree := Bool.eq_false_of_not_eq_true agree
      cases found : tx.tokenTransfers.any (TokenTransfer.isFor token account) with
      | true =>
          rw [run_addTokenTransferWithDecimals_of_found token account value decimals frozen agree
            found] at threw
          cases threw
      | false =>
          rw [run_addTokenTransferWithDecimals_of_new token account value decimals frozen agree
            found] at threw
          cases threw

/-- Two accounts of one token; a plain transfer took back the decimals of the first. -/
def mixedDecimals : AbstractTokenTransferTransaction :=
  runAll step { transaction := { data := .plain .cryptoTransfer (.object .nil) } }
    [.addTokenTransferWithDecimals (.ofNum 1) (.ofNum 7) 5 2,
      .addTokenTransferWithDecimals (.ofNum 1) (.ofNum 8) 3 2,
      .addTokenTransfer (.ofNum 1) (.ofNum 7) 0]

end AbstractTokenTransferTransaction

end HederaSdk
