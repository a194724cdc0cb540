import HederaSdk.Account.NftAllowance

/-!
# Transfers

Transfers are collected entry by entry. A fungible transfer is merged into the entry of
the same token and account, an hbar transfer into that of the same account, and an NFT
transfer replaces the accounts of the entry of the same serial number; a transfer without
an entry gets a new one.

Arguments that are texts are taken as the ids and amounts they stand for.
-/

namespace HederaSdk

open Library

/-- The integer that 64 bits keep of another one. -/
def toInt64 (n : Int) : Int := n.bmod (2 ^ 64)

/-- What a `Long` can hold. -/
def FitsInt64 (n : Int) : Prop := -2 ^ 63 ≤ n ∧ n < 2 ^ 63

instance (n : Int) : Decidable (FitsInt64 n) := inferInstanceAs (Decidable (_ ∧ _))

theorem toInt64_of_fits {n : Int} (fits : FitsInt64 n) : toInt64 n = n := by
  obtain ⟨low, high⟩ := fits
  rw [toInt64, Int.bmod_def]
  omega

/-- `Long.add` -/
def addLong (a b : Int) : Int := toInt64 (a + b)

structure TokenTransfer where
  tokenId : TokenId
  accountId : AccountId
  expectedDecimals : Option Nat
  amount : Int
  isApproved : Bool

structure TokenNftTransfer where
  tokenId : TokenId
  senderAccountId : AccountId
  receiverAccountId : AccountId
  serialNumber : Int
  isApproved : Bool

structure Transfer where
  accountId : AccountId
  /-- In tinybars, of any size. -/
  amount : Int
  isApproved : Bool

namespace TokenTransfer

/-- The entry that a transfer is merged into. -/
def isFor (token : TokenId) (account : AccountId) (transfer : TokenTransfer) : Bool :=
  transfer.tokenId.compare token == 0 && transfer.accountId.compare account == 0

/-- An entry of the token that expects other decimals. -/
def contradicts (token : TokenId) (decimals : Nat) (transfer : TokenTransfer) : Bool :=
  transfer.tokenId.compare token == 0 && transfer.expectedDecimals.any (· ≠ decimals)

/-- What an entry becomes when the loop of `addTokenTransferWithDecimals` passes it. -/
def withDecimals (token : TokenId) (account : AccountId) (value : Int) (decimals : Nat)
    (transfer : TokenTransfer) : TokenTransfer :=
  if transfer.tokenId.compare token = 0 then
    if transfer.accountId.compare account = 0 then
      { transfer with
        amount := addLong transfer.amount value, expectedDecimals := some decimals }
    else { transfer with expectedDecimals := some decimals }
  else transfer

end TokenTransfer

namespace TokenNftTransfer

def isFor (nftId : NftId) (transfer : TokenNftTransfer) : Bool :=
  transfer.tokenId.compare nftId.tokenId == 0 && compareLong transfer.serialNumber nftId.serial == 0

end TokenNftTransfer

namespace Transfer

/-- `transfer.amount.toTinybars()` -/
def tinybars (transfer : Transfer) : Int := toInt64 transfer.amount

def isFor (account : AccountId) (transfer : Transfer) : Bool := transfer.accountId.compare account == 0

end Transfer

structure AbstractTokenTransferTransaction where
  transaction : Transaction
  tokenTransfers : List TokenTransfer := []
  nftTransfers : List TokenNftTransfer := []

namespace AbstractTokenTransferTransaction

def requireNotFrozen : Method JsError AbstractTokenTransferTransaction Unit :=
  Method.zoom AbstractTokenTransferTransaction.transaction
    (fun transaction tx => { tx with transaction }) Transaction.requireNotFrozen

/-- `_addTokenTransfer` -/
def mergeTokenTransfer (token : TokenId) (account : AccountId) (value : Int) (isApproved : Bool)
    (expectedDecimals : Option Nat) : Method JsError AbstractTokenTransferTransaction Unit := do
  requireNotFrozen
  Method.update fun tx =>
    { tx with
      tokenTransfers := upsert (TokenTransfer.isFor token account)
        (fun transfer => { transfer with amount := addLong transfer.amount value, expectedDecimals })
        { tokenId := token, accountId := account, expectedDecimals, amount := value, isApproved }
        tx.tokenTransfers }

def addTokenTransfer (token : TokenId) (account : AccountId) (value : Int) :
    Method JsError AbstractTokenTransferTransaction Unit :=
  mergeTokenTransfer token account value false none

def addApprovedTokenTransfer (token : TokenId) (account : AccountId) (value : Int) :
    Method JsError AbstractTokenTransferTransaction Unit :=
  mergeTokenTransfer token account value true none

/-- `_addNftTransfer` -/
def mergeNftTransfer (isApproved : Bool) (nftId : NftId) (senderAccountId receiverAccountId : AccountId) :
    Method JsError AbstractTokenTransferTransaction Unit := do
  requireNotFrozen
  Method.update fun tx =>
    { tx with
      nftTransfers := upsert (TokenNftTransfer.isFor nftId)
        (fun transfer => { transfer with senderAccountId, receiverAccountId })
        { tokenId := nftId.tokenId
          senderAccountId
          receiverAccountId
          serialNumber := nftId.serial
          isApproved }
        tx.nftTransfers }

def addNftTransfer (nftId : NftId) (sender receiver : AccountId) :
    Method JsError AbstractTokenTransferTransaction Unit :=
  mergeNftTransfer false nftId sender receiver

def addApprovedNftTransfer (nftId : NftId) (sender receiver : AccountId) :
    Method JsError AbstractTokenTransferTransaction Unit :=
  mergeNftTransfer true nftId sender receiver

/-- The loop of `addTokenTransferWithDecimals`: the entries when it ends, and whether one of
them took the amount. It throws at the first entry of the token with other decimals. -/
def mergeWithDecimals (token : TokenId) (account : AccountId) (value : Int) (decimals : Nat) :
    Bool → List TokenTransfer → Except JsError Bool × List TokenTransfer
  | found, [] => (.ok found, [])
  | found, transfer :: rest =>
      if transfer.tokenId.compare token = 0 then
        if transfer.expectedDecimals.any (· ≠ decimals) then
          (.error (.error "expected decimals mis-match"), transfer :: rest)
        else if transfer.accountId.compare account = 0 then
          let (outcome, rest) := mergeWithDecimals token account value decimals true rest
          (outcome,
            { transfer with
              amount := addLong transfer.amount value, expectedDecimals := some decimals } :: rest)
        else
          let (outcome, rest) := mergeWithDecimals token account value decimals found rest
          (outcome, { transfer with expectedDecimals := some decimals } :: rest)
      else
        let (outcome, rest) := mergeWithDecimals token account value decimals found rest
        (outcome, transfer :: rest)

def addTokenTransferWithDecimals (token : TokenId) (account : AccountId) (value : Int)
    (decimals : Nat) : Method JsError AbstractTokenTransferTransaction Unit := do
  requireNotFrozen
  let tx ← Method.this
  let (outcome, tokenTransfers) :=
    mergeWithDecimals token account value decimals false tx.tokenTransfers
  Method.update fun tx => { tx with tokenTransfers }
  let found ← Method.ofExcept outcome
  if found then pure ()
  else
    let fresh : TokenTransfer :=
      { tokenId := token
        accountId := account
        expectedDecimals := some decimals
        amount := value
        isApproved := false }
    Method.update fun tx => { tx with tokenTransfers := tx.tokenTransfers ++ [fresh] }

/-- The loop passes the entries up to the first one with other decimals. -/
theorem mergeWithDecimals_eq (token : TokenId) (account : AccountId) (value : Int) (decimals : Nat)
    (found : Bool) (entries : List TokenTransfer) :
    mergeWithDecimals token account value decimals found entries =
      (if entries.any (TokenTransfer.contradicts token decimals) = true
        then .error (.error "expected decimals mis-match")
        else .ok (found || entries.any (TokenTransfer.isFor token account)),
        (entries.takeWhile fun entry => !entry.contradicts token decimals).map
            (TokenTransfer.withDecimals token account value decimals) ++
          entries.dropWhile fun entry => !entry.contradicts token decimals) := by
  induction entries generalizing found with
  | nil => simp [mergeWithDecimals]
  | cons entry rest inductionHypothesis =>
      by_cases ofToken : entry.tokenId.compare token = 0
      · by_cases other : entry.expectedDecimals.any (· ≠ decimals) = true
        · have contradicts : entry.contradicts token decimals = true := by
            rw [TokenTransfer.contradicts, ofToken, other]
            rfl
          simp only [mergeWithDecimals, if_pos ofToken, if_pos other]
          simp [contradicts]
        · have passed : entry.contradicts token decimals = false := by
            rw [TokenTransfer.contradicts, Bool.eq_false_of_not_eq_true other, Bool.and_false]
          by_cases ofAccount : entry.accountId.compare account = 0
          · have isFor : entry.isFor token account = true := by
              simp [TokenTransfer.isFor, ofToken, ofAccount]
            simp only [mergeWithDecimals, if_pos ofToken, if_neg other, if_pos ofAccount,
              inductionHypothesis]
            simp [passed, isFor, TokenTransfer.withDecimals, ofToken, ofAccount]
          · have notFor : entry.isFor token account = false := by
              simp [TokenTransfer.isFor, ofAccount]
            simp only [mergeWithDecimals, if_pos ofToken, if_neg other, if_neg ofAccount,
              inductionHypothesis]
            simp [passed, notFor, TokenTransfer.withDecimals, ofToken, ofAccount]
      · have passed : entry.contradicts token decimals = false := by
          simp [TokenTransfer.contradicts, ofToken]
        have notFor : entry.isFor token account = false := by simp [TokenTransfer.isFor, ofToken]
        simp only [mergeWithDecimals, if_neg ofToken, inductionHypothesis]
        simp [passed, notFor, TokenTransfer.withDecimals, ofToken]

/-! ## Methods that return -/

section Unfrozen

variable {tx : AbstractTokenTransferTransaction}

theorem run_requireNotFrozen (unfrozen : tx.transaction.isFrozenOrOnDemand = false) :
    requireNotFrozen.run tx = (.ok (), tx) := by
  rw [requireNotFrozen, Method.run_zoom, Transaction.requireNotFrozen, Method.run_this_bind]
  simp [unfrozen]

theorem run_mergeTokenTransfer (unfrozen : tx.transaction.isFrozenOrOnDemand = false) (token : TokenId)
    (account : AccountId) (value : Int) (isApproved : Bool) (expectedDecimals : Option Nat) :
    (mergeTokenTransfer token account value isApproved expectedDecimals).run tx =
      (.ok (), { tx with
        tokenTransfers := upsert (TokenTransfer.isFor token account)
          (fun transfer =>
            { transfer with amount := addLong transfer.amount value, expectedDecimals })
          { tokenId := token, accountId := account, expectedDecimals, amount := value, isApproved }
          tx.tokenTransfers }) := by
  rw [mergeTokenTransfer, Method.run_bind_ok (run_requireNotFrozen unfrozen)]
  rfl

theorem run_mergeNftTransfer (unfrozen : tx.transaction.isFrozenOrOnDemand = false) (isApproved : Bool)
    (nftId : NftId) (senderAccountId receiverAccountId : AccountId) :
    (mergeNftTransfer isApproved nftId senderAccountId receiverAccountId).run tx =
      (.ok (), { tx with
        nftTransfers := upsert (TokenNftTransfer.isFor nftId)
          (fun transfer => { transfer with senderAccountId, receiverAccountId })
          { tokenId := nftId.tokenId
            senderAccountId
            receiverAccountId
            serialNumber := nftId.serial
            isApproved }
          tx.nftTransfers }) := by
  rw [mergeNftTransfer, Method.run_bind_ok (run_requireNotFrozen unfrozen)]
  rfl

section WithDecimals

variable (token : TokenId) (account : AccountId) (value : Int) (decimals : Nat)

theorem takeWhile_of_agrees {entries : List TokenTransfer}
    (agree : entries.any (TokenTransfer.contradicts token decimals) = false) :
    (entries.takeWhile fun entry => !entry.contradicts token decimals) = entries ∧
      (entries.dropWhile fun entry => !entry.contradicts token decimals) = [] := by
  have all : ∀ entry ∈ entries, (!entry.contradicts token decimals) = true := by
    intro entry member
    rw [List.any_eq_false] at agree
    simpa using agree entry member
  exact ⟨List.takeWhile_eq_self_iff.mpr all, List.dropWhile_eq_nil_iff.mpr all⟩

variable (unfrozen : tx.transaction.isFrozenOrOnDemand = false)
include unfrozen

/-- An entry with other decimals makes it throw, behind what the loop has done by then. -/
theorem run_addTokenTransferWithDecimals_of_contradicts
    (other : tx.tokenTransfers.any (TokenTransfer.contradicts token decimals) = true) :
    (addTokenTransferWithDecimals token account value decimals).run tx =
      (.error (.error "expected decimals mis-match"), { tx with
        tokenTransfers :=
          (tx.tokenTransfers.takeWhile fun entry => !entry.contradicts token decimals).map
              (TokenTransfer.withDecimals token account value decimals) ++
            tx.tokenTransfers.dropWhile fun entry => !entry.contradicts token decimals }) := by
  rw [addTokenTransferWithDecimals, Method.run_bind_ok (run_requireNotFrozen unfrozen),
    Method.run_this_bind, mergeWithDecimals_eq, if_pos other]
  rfl

theorem run_addTokenTransferWithDecimals_of_found
    (agree : tx.tokenTransfers.any (TokenTransfer.contradicts token decimals) = false)
    (found : tx.tokenTransfers.any (TokenTransfer.isFor token account) = true) :
    (addTokenTransferWithDecimals token account value decimals).run tx =
      (.ok (), { tx with
        tokenTransfers := tx.tokenTransfers.map
          (TokenTransfer.withDecimals token account value decimals) }) := by
  have passed := takeWhile_of_agrees token decimals agree
  rw [addTokenTransferWithDecimals, Method.run_bind_ok (run_requireNotFrozen unfrozen),
    Method.run_this_bind, mergeWithDecimals_eq, passed.1, passed.2, agree, found, List.append_nil]
  rfl

theorem run_addTokenTransferWithDecimals_of_new
    (agree : tx.tokenTransfers.any (TokenTransfer.contradicts token decimals) = false)
    (new : tx.tokenTransfers.any (TokenTransfer.isFor token account) = false) :
    (addTokenTransferWithDecimals token account value decimals).run tx =
      (.ok (), { tx with
        tokenTransfers := tx.tokenTransfers.map
            (TokenTransfer.withDecimals token account value decimals) ++
          [{ tokenId := token
             accountId := account
             expectedDecimals := some decimals
             amount := value
             isApproved := false }] }) := by
  have passed := takeWhile_of_agrees token decimals agree
  rw [addTokenTransferWithDecimals, Method.run_bind_ok (run_requireNotFrozen unfrozen),
    Method.run_this_bind, mergeWithDecimals_eq, passed.1, passed.2, agree, new, List.append_nil]
  rfl

end WithDecimals

end Unfrozen

/-- A call of one of the methods that add a transfer. -/
inductive Call where
  | addTokenTransfer (token : TokenId) (account : AccountId) (value : Int)
  | addApprovedTokenTransfer (token : TokenId) (account : AccountId) (value : Int)
  | addTokenTransferWithDecimals (token : TokenId) (account : AccountId) (value : Int) (decimals : Nat)
  | addNftTransfer (nftId : NftId) (sender receiver : AccountId)
  | addApprovedNftTransfer (nftId : NftId) (sender receiver : AccountId)

def Call.method : Call → Method JsError AbstractTokenTransferTransaction Unit
  | addTokenTransfer token account value =>
      AbstractTokenTransferTransaction.addTokenTransfer token account value
  | addApprovedTokenTransfer token account value =>
      AbstractTokenTransferTransaction.addApprovedTokenTransfer token account value
  | addTokenTransferWithDecimals token account value decimals =>
      AbstractTokenTransferTransaction.addTokenTransferWithDecimals token account value decimals
  | addNftTransfer nftId sender receiver =>
      AbstractTokenTransferTransaction.addNftTransfer nftId sender receiver
  | addApprovedNftTransfer nftId sender receiver =>
      AbstractTokenTransferTransaction.addApprovedNftTransfer nftId sender receiver

/-- The transaction after a call, also when the call throws. -/
def step (tx : AbstractTokenTransferTransaction) (call : Call) : AbstractTokenTransferTransaction :=
  (call.method.run tx).2

end AbstractTokenTransferTransaction

/-- Its hbar transfers stand beside what it has in common with airdrops. -/
structure TransferTransaction extends AbstractTokenTransferTransaction where
  hbarTransfers : List Transfer := []

namespace TransferTransaction

def requireNotFrozen : Method JsError TransferTransaction Unit :=
  Method.zoom (fun tx => tx.transaction)
    (fun transaction tx => { tx with transaction }) Transaction.requireNotFrozen

/-- `_addHbarTransfer` -/
def mergeHbarTransfer (account : AccountId) (hbars : Int) (isApproved : Bool) :
    Method JsError TransferTransaction Unit := do
  requireNotFrozen
  Method.update fun tx =>
    { tx with
      hbarTransfers := upsert (Transfer.isFor account)
        (fun transfer => { transfer with amount := addLong transfer.tinybars (toInt64 hbars) })
        { accountId := account, amount := hbars, isApproved } tx.hbarTransfers }

theorem run_mergeHbarTransfer {tx : TransferTransaction}
    (unfrozen : tx.transaction.isFrozenOrOnDemand = false) (account : AccountId) (hbars : Int)
    (isApproved : Bool) :
    (mergeHbarTransfer account hbars isApproved).run tx =
      (.ok (), { tx with
        hbarTransfers := upsert (Transfer.isFor account)
          (fun transfer => { transfer with amount := addLong transfer.tinybars (toInt64 hbars) })
          { accountId := account, amount := hbars, isApproved } tx.hbarTransfers }) := by
  have passes : requireNotFrozen.run tx = (.ok (), tx) := by
    rw [requireNotFrozen, Method.run_zoom, Transaction.requireNotFrozen, Method.run_this_bind]
    simp [unfrozen]
  rw [mergeHbarTransfer, Method.run_bind_ok passes]
  rfl

def addHbarTransfer (account : AccountId) (hbars : Int) : Method JsError TransferTransaction Unit :=
  mergeHbarTransfer account hbars false

def addApprovedHbarTransfer (account : AccountId) (hbars : Int) :
    Method JsError TransferTransaction Unit :=
  mergeHbarTransfer account hbars true

end TransferTransaction

end HederaSdk
