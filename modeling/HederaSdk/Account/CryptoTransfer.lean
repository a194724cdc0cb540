import HederaSdk.Token.Grouping

/-!
# Crypto transfers

A crypto transfer has token transfers and, beside them, hbar transfers. Its constructor
takes all of them but hands on none of the token transfers, so only the hbar transfers
are added. `record` gives each call by what it adds to an object that may still be
changed.
-/

namespace HederaSdk

open Library

structure TransferTokensInput where
  tokenId : TokenId
  accountId : AccountId
  amount : Int

structure TransferHbarInput where
  accountId : AccountId
  amount : Int

structure TransferNftInput where
  tokenId : TokenId
  sender : AccountId
  recipient : AccountId
  serial : Int

/-- The arguments of the constructor; a list that is left out is empty. -/
structure TransferProps where
  tokenTransfers : List TransferTokensInput := []
  hbarTransfers : List TransferHbarInput := []
  nftTransfers : List TransferNftInput := []

namespace AbstractTokenTransferTransaction

/-- What the constructor does to a new object. -/
def construct (props : TransferProps) : Method JsError AbstractTokenTransferTransaction Unit := do
  Method.forEach (fun input => addTokenTransfer input.tokenId input.accountId input.amount)
    props.tokenTransfers
  Method.forEach
    (fun input => addNftTransfer ⟨input.tokenId, input.serial⟩ input.sender input.recipient)
    props.nftTransfers

end AbstractTokenTransferTransaction

namespace TransferTransaction

/-- A method of what it has in common with airdrops. -/
def ofSuper {α : Type} (method : Method JsError AbstractTokenTransferTransaction α) :
    Method JsError TransferTransaction α :=
  Method.zoom toAbstractTokenTransferTransaction
    (fun super tx => { tx with toAbstractTokenTransferTransaction := super }) method

/-- An object before its constructor. -/
def blank : TransferTransaction where
  transaction := { data := .plain .cryptoTransfer (.object .nil) }

/-- The constructor calls `super()` and so leaves out `props`. -/
def construct (props : TransferProps) : Method JsError TransferTransaction Unit := do
  ofSuper (AbstractTokenTransferTransaction.construct {})
  Method.update fun tx =>
    { tx with transaction := { tx.transaction with defaultMaxTransactionFee := 100000000 } }
  Method.forEach (fun input => addHbarTransfer input.accountId input.amount) props.hbarTransfers

/-- `new TransferTransaction(props)` -/
def new (props : TransferProps) : TransferTransaction := ((construct props).run blank).2

/-- A call of one of the methods that add a transfer. -/
inductive Call where
  | token (call : AbstractTokenTransferTransaction.Call)
  | addHbarTransfer (account : AccountId) (hbars : Int)
  | addApprovedHbarTransfer (account : AccountId) (hbars : Int)

def Call.method : Call → Method JsError TransferTransaction Unit
  | token call => ofSuper call.method
  | addHbarTransfer account hbars => TransferTransaction.addHbarTransfer account hbars
  | addApprovedHbarTransfer account hbars =>
      TransferTransaction.addApprovedHbarTransfer account hbars

/-- The transaction after a call, also when the call throws. -/
def step (tx : TransferTransaction) (call : Call) : TransferTransaction := (call.method.run tx).2

/-- A frozen transaction takes no call. -/
theorem step_of_frozen {tx : TransferTransaction} (frozen : tx.transaction.isFrozenOrOnDemand = true)
    (call : Call) : tx.step call = tx := by
  have refused : Transaction.requireNotFrozen.run tx.transaction = (.error (.error
      "transaction is immutable; it has at least one signature or has been explicitly frozen"),
      tx.transaction) := by
    rw [Transaction.requireNotFrozen, Method.run_this_bind, if_pos frozen]
    rfl
  have throws : AbstractTokenTransferTransaction.requireNotFrozen.run tx.toAbstractTokenTransferTransaction =
      (.error (.error
        "transaction is immutable; it has at least one signature or has been explicitly frozen"),
        tx.toAbstractTokenTransferTransaction) := by
    rw [AbstractTokenTransferTransaction.requireNotFrozen, Method.run_zoom, refused]
  have throwsHbar : requireNotFrozen.run tx = (.error (.error
      "transaction is immutable; it has at least one signature or has been explicitly frozen"), tx) := by
    rw [requireNotFrozen, Method.run_zoom, refused]
  cases call with
  | token call =>
      have ran : ∃ e, call.method.run tx.toAbstractTokenTransferTransaction =
          (.error e, tx.toAbstractTokenTransferTransaction) := by
        refine ⟨.error
          "transaction is immutable; it has at least one signature or has been explicitly frozen", ?_⟩
        cases call <;> exact Method.run_bind_error throws
      obtain ⟨e, ran⟩ := ran
      rw [step, Call.method, ofSuper, Method.run_zoom, ran]
  | addHbarTransfer account hbars =>
      rw [step, Call.method, addHbarTransfer, mergeHbarTransfer, Method.run_bind_error throwsHbar]
  | addApprovedHbarTransfer account hbars =>
      rw [step, Call.method, addApprovedHbarTransfer, mergeHbarTransfer, Method.run_bind_error throwsHbar]

theorem runAll_of_frozen {tx : TransferTransaction} (frozen : tx.transaction.isFrozenOrOnDemand = true)
    (calls : List Call) : runAll step tx calls = tx := by
  induction calls with
  | nil => rfl
  | cons call rest inductionHypothesis =>
      rw [runAll_cons, step_of_frozen frozen call, inductionHypothesis]

/-- Whether a call is answered without a throw. -/
def returns (tx : TransferTransaction) (call : Call) : Bool := (call.method.run tx).1.isOk

end TransferTransaction

/-! ## Bodies -/

structure CryptoTransferBody where
  /-- The account amounts of `transfers`. -/
  accountAmounts : List AccountAmount
  tokenTransfers : List TokenTransferList
  deriving DecidableEq

def Transfer.compare (a b : Transfer) : Int := a.accountId.compare b.accountId

def Transfer.toProtobuf (transfer : Transfer) : AccountAmount where
  accountID := transfer.accountId.onWire
  amount := transfer.tinybars
  isApproval := transfer.isApproved

namespace TransferTransaction

def sortHbarTransfers (tx : TransferTransaction) : TransferTransaction :=
  { tx with hbarTransfers := Js.sort Transfer.compare tx.hbarTransfers }

def makeTransactionData : Method JsError TransferTransaction CryptoTransferBody := do
  let tokenTransfers ← ofSuper AbstractTokenTransferTransaction.makeTransactionData
  Method.update sortHbarTransfers
  let tx ← Method.this
  pure { accountAmounts := tx.hbarTransfers.map Transfer.toProtobuf, tokenTransfers }

/-- The body that is built. -/
def body (tx : TransferTransaction) : CryptoTransferBody where
  accountAmounts := tx.sortHbarTransfers.hbarTransfers.map Transfer.toProtobuf
  tokenTransfers := tx.tokenTransferLists

theorem run_makeTransactionData (tx : TransferTransaction) :
    makeTransactionData.run tx =
      (.ok tx.body, { toAbstractTokenTransferTransaction := tx.sortTransfers
                      hbarTransfers := tx.sortHbarTransfers.hbarTransfers }) := rfl

/-- No hbar transfer is lost or doubled. -/
theorem perm_accountAmounts (tx : TransferTransaction) :
    tx.body.accountAmounts.Perm (tx.hbarTransfers.map Transfer.toProtobuf) :=
  (Js.sort_perm _ _).map _

end TransferTransaction

end HederaSdk
