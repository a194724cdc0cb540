import HederaSdk.Account.CryptoTransfer
import Mathlib.Algebra.Group.Pi.Lemmas

/-!
# What a crypto transfer moves

An amount is added to the entry of the same account, whether or not that entry is an
approved spend, so what is asked for as the one is moved as the other. `Agrees` is the
condition under which the body moves what was asked for, and only a constructor without
token transfers drops nothing.
-/

namespace HederaSdk

open Library

/-- A token as it is read back, what counts of an account, and whether the spend is approved. -/
abbrev Spend := TokenId × (Int × Int × AccountName) × Bool

abbrev HbarSpend := (Int × Int × AccountName) × Bool

def TokenTransfer.spend (transfer : TokenTransfer) : Spend :=
  (transfer.tokenId.onWire, transfer.accountId.identity, transfer.isApproved)

/-- What an entry moves. -/
def TokenTransfer.moves (transfer : TokenTransfer) : Spend → ℤ :=
  Pi.single transfer.spend transfer.amount

def Transfer.spend (transfer : Transfer) : HbarSpend :=
  (transfer.accountId.identity, transfer.isApproved)

def Transfer.moves (transfer : Transfer) : HbarSpend → ℤ :=
  Pi.single transfer.spend transfer.tinybars

namespace CryptoTransferBody

/-- What its fungible transfers move, all lists taken together. -/
def fungible (body : CryptoTransferBody) : Spend → ℤ :=
  ((body.tokenTransfers.flatMap fun list => list.transfers.map (Prod.mk list.token)).map fun entry =>
    Pi.single (entry.1, entry.2.accountID.identity, entry.2.isApproval) entry.2.amount).sum

def hbars (body : CryptoTransferBody) : HbarSpend → ℤ :=
  (body.accountAmounts.map fun entry =>
    Pi.single (entry.accountID.identity, entry.isApproval) entry.amount).sum

/-- The entries of an NFT. -/
def nfts (body : CryptoTransferBody) (token : TokenId) (serial : Int) : List NftTransfer :=
  ((body.tokenTransfers.flatMap fun list => list.nftTransfers.map (Prod.mk list.token)).filter
    fun entry => entry.1 = token ∧ entry.2.serialNumber = serial).map Prod.snd

end CryptoTransferBody

namespace TransferTransaction

/-! ## What is asked for -/

namespace Call

def fungible : Call → Spend → ℤ
  | token (.addTokenTransfer tokenId account value) =>
      Pi.single (tokenId.onWire, account.identity, false) value
  | token (.addApprovedTokenTransfer tokenId account value) =>
      Pi.single (tokenId.onWire, account.identity, true) value
  | token (.addTokenTransferWithDecimals tokenId account value _) =>
      Pi.single (tokenId.onWire, account.identity, false) value
  | _ => 0

def hbars : Call → HbarSpend → ℤ
  | addHbarTransfer account hbars => Pi.single (account.identity, false) hbars
  | addApprovedHbarTransfer account hbars => Pi.single (account.identity, true) hbars
  | _ => 0

def nft : Call → Option (TokenId × NftTransfer)
  | token (.addNftTransfer nftId sender receiver) =>
      some (nftId.tokenId.onWire, ⟨sender.onWire, receiver.onWire, nftId.serial, false⟩)
  | token (.addApprovedNftTransfer nftId sender receiver) =>
      some (nftId.tokenId.onWire, ⟨sender.onWire, receiver.onWire, nftId.serial, true⟩)
  | _ => none

end Call

/-- What the last call that names an NFT asks for. -/
def lastNft (token : TokenId) (serial : Int) (calls : List Call) : Option NftTransfer :=
  (((calls.filterMap Call.nft).filter fun entry =>
    entry.1 = token ∧ entry.2.serialNumber = serial).map Prod.snd).getLast?

/-- A transaction and the calls that have been answered without a throw. -/
structure Session where
  tx : TransferTransaction
  added : List Call

namespace Session

def step (session : Session) (call : Call) : Session where
  tx := session.tx.step call
  added := if session.tx.returns call = true then session.added ++ [call] else session.added

/-- The body moves what was asked for. -/
structure Conserved (session : Session) : Prop where
  fungible : session.tx.body.fungible = (session.added.map Call.fungible).sum
  hbars : session.tx.body.hbars = (session.added.map Call.hbars).sum
  nfts : ∀ token serial,
    session.tx.body.nfts token serial = (lastNft token serial session.added).toList

end Session

/-! ## The entries of the transaction -/

section Entries

variable (tx : TransferTransaction)

def fungible : Spend → ℤ := (tx.tokenTransfers.map TokenTransfer.moves).sum

def hbars : HbarSpend → ℤ := (tx.hbarTransfers.map Transfer.moves).sum

/-- Whether an entry is that of an NFT. -/
def isNft (token : TokenId) (serial : Int) (entry : TokenNftTransfer) : Bool :=
  entry.tokenId.onWire = token ∧ entry.serialNumber = serial

def nfts (token : TokenId) (serial : Int) : List NftTransfer :=
  (tx.nftTransfers.filter (isNft token serial)).map TokenNftTransfer.toProtobuf

theorem body_fungible : tx.body.fungible = tx.fungible := by
  rw [CryptoTransferBody.fungible, fungible, body, (tx.perm_transfers.map _).sum_eq, List.map_map]
  congr 1
  apply List.map_congr_left
  intro entry _
  simp only [Function.comp_apply, TokenTransfer.toProtobuf, AccountId.identity_onWire]
  rfl

theorem body_hbars : tx.body.hbars = tx.hbars := by
  rw [CryptoTransferBody.hbars, hbars, (tx.perm_accountAmounts.map _).sum_eq, List.map_map]
  congr 1
  apply List.map_congr_left
  intro entry _
  simp only [Function.comp_apply, Transfer.toProtobuf, AccountId.identity_onWire]
  rfl

theorem perm_body_nfts (token : TokenId) (serial : Int) :
    (tx.body.nfts token serial).Perm (tx.nfts token serial) := by
  have listed := (tx.perm_nftTransfers.filter fun entry =>
    entry.1 = token ∧ entry.2.serialNumber = serial).map Prod.snd
  rw [List.filter_map, List.map_map] at listed
  exact listed

end Entries

/-- What is conserved, said of the entries and not of the body. -/
structure Session.Recorded (session : Session) : Prop where
  fungible : session.tx.fungible = (session.added.map Call.fungible).sum
  hbars : session.tx.hbars = (session.added.map Call.hbars).sum
  nfts : ∀ token serial, session.tx.nfts token serial = (lastNft token serial session.added).toList

theorem eq_toList_of_perm {α : Type} {items others : List α} {a : Option α} (same : items.Perm others) :
    items = a.toList ↔ others = a.toList := by
  cases a with
  | none =>
      rw [Option.toList_none]
      exact ⟨fun empty => (empty ▸ same).nil_eq.symm, fun empty => (empty ▸ same).eq_nil⟩
  | some a =>
      rw [Option.toList_some]
      exact ⟨fun one => List.perm_singleton.mp (one ▸ same).symm,
        fun one => List.perm_singleton.mp (one ▸ same)⟩

theorem Session.conserved_iff_recorded (session : Session) : session.Conserved ↔ session.Recorded := by
  constructor
  · rintro ⟨fungible, hbars, nfts⟩
    refine ⟨?_, ?_, fun token serial => ?_⟩
    · rw [← body_fungible, fungible]
    · rw [← body_hbars, hbars]
    · exact (eq_toList_of_perm (perm_body_nfts _ token serial)).mp (nfts token serial)
  · rintro ⟨fungible, hbars, nfts⟩
    refine ⟨?_, ?_, fun token serial => ?_⟩
    · rw [body_fungible, fungible]
    · rw [body_hbars, hbars]
    · exact (eq_toList_of_perm (perm_body_nfts _ token serial)).mpr (nfts token serial)

/-! ## Calls that agree -/

/-- The entry that takes the amount is of the same account and flag, or the amount is zero. -/
def TokensAlike (entries : List TokenTransfer) (token : TokenId) (account : AccountId) (value : Int)
    (isApproved : Bool) : Prop :=
  ∀ entry ∈ entries.find? (TokenTransfer.isFor token account),
    value = 0 ∨ entry.spend = (token.onWire, account.identity, isApproved)

/-- A call that throws has changed no amount; one that returns adds to no entry, or to one
of the same account that is not approved. -/
def DecimalsAlike (entries : List TokenTransfer) (token : TokenId) (account : AccountId) (value : Int)
    (decimals : Nat) : Prop :=
  let taken := ((entries.takeWhile fun entry => !entry.contradicts token decimals).filter
    (TokenTransfer.isFor token account)).map TokenTransfer.spend
  value = 0 ∨ taken = [] ∨
    (entries.any (TokenTransfer.contradicts token decimals) = false ∧
      taken = [(token.onWire, account.identity, false)])

def NftsAlike (entries : List TokenNftTransfer) (nftId : NftId) (isApproved : Bool) : Prop :=
  ∀ entry ∈ entries.find? (TokenNftTransfer.isFor nftId), entry.isApproved = isApproved

def HbarsAlike (entries : List Transfer) (account : AccountId) (hbars : Int) (isApproved : Bool) : Prop :=
  ∀ entry ∈ entries.find? (Transfer.isFor account),
    hbars = 0 ∨ entry.spend = (account.identity, isApproved)

def Agrees (tx : TransferTransaction) : Call → Prop
  | .token (.addTokenTransfer token account value) =>
      TokensAlike tx.tokenTransfers token account value false
  | .token (.addApprovedTokenTransfer token account value) =>
      TokensAlike tx.tokenTransfers token account value true
  | .token (.addTokenTransferWithDecimals token account value decimals) =>
      DecimalsAlike tx.tokenTransfers token account value decimals
  | .token (.addNftTransfer nftId _ _) => NftsAlike tx.nftTransfers nftId false
  | .token (.addApprovedNftTransfer nftId _ _) => NftsAlike tx.nftTransfers nftId true
  | .addHbarTransfer account hbars => HbarsAlike tx.hbarTransfers account hbars false
  | .addApprovedHbarTransfer account hbars => HbarsAlike tx.hbarTransfers account hbars true

/-- The sums that an amount becomes part of fit. -/
def TokensFit (entries : List TokenTransfer) (token : TokenId) (account : AccountId) (value : Int) :
    Prop :=
  ∀ entry ∈ entries, entry.isFor token account = true → FitsInt64 (entry.amount + value)

def HbarsFit (entries : List Transfer) (account : AccountId) (hbars : Int) : Prop :=
  FitsInt64 hbars ∧
    ∀ entry ∈ entries, entry.isFor account = true → FitsInt64 (entry.tinybars + hbars)

def Fits (tx : TransferTransaction) : Call → Prop
  | .token (.addTokenTransfer token account value)
  | .token (.addApprovedTokenTransfer token account value)
  | .token (.addTokenTransferWithDecimals token account value _) =>
      TokensFit tx.tokenTransfers token account value
  | .token (.addNftTransfer _ _ _) | .token (.addApprovedNftTransfer _ _ _) => True
  | .addHbarTransfer account hbars | .addApprovedHbarTransfer account hbars =>
      HbarsFit tx.hbarTransfers account hbars

instance Fits.decidable (tx : TransferTransaction) : ∀ call, Decidable (Fits tx call)
  | .token (.addTokenTransfer token account value)
  | .token (.addApprovedTokenTransfer token account value)
  | .token (.addTokenTransferWithDecimals token account value _) =>
      inferInstanceAs (Decidable (∀ entry ∈ tx.tokenTransfers,
        entry.isFor token account = true → FitsInt64 (entry.amount + value)))
  | .token (.addNftTransfer _ _ _) | .token (.addApprovedNftTransfer _ _ _) =>
      inferInstanceAs (Decidable True)
  | .addHbarTransfer account hbars | .addApprovedHbarTransfer account hbars =>
      inferInstanceAs (Decidable (FitsInt64 hbars ∧ ∀ entry ∈ tx.hbarTransfers,
        entry.isFor account = true → FitsInt64 (entry.tinybars + hbars)))

/-! ## Entries that are changed -/

theorem sum_upsert_tokens {entries : List TokenTransfer} {token : TokenId} {account : AccountId}
    {value : Int} (fits : TokensFit entries token account value) (isApproved : Bool)
    (expectedDecimals : Option Nat) :
    ((upsert (TokenTransfer.isFor token account)
        (fun transfer => { transfer with amount := addLong transfer.amount value, expectedDecimals })
        { tokenId := token, accountId := account, expectedDecimals, amount := value, isApproved }
        entries).map TokenTransfer.moves).sum =
      (entries.map TokenTransfer.moves).sum +
        Pi.single (token.onWire, account.identity, isApproved) value ↔
      TokensAlike entries token account value isApproved := by
  have fresh : TokenTransfer.moves
      { tokenId := token, accountId := account, expectedDecimals, amount := value, isApproved } =
        Pi.single (token.onWire, account.identity, isApproved) value := rfl
  rw [sum_upsert_iff fresh]
  refine forall_congr' fun entry => forall_congr' fun found => ?_
  have isFor : entry.isFor token account = true := List.find?_some found
  have sum : addLong entry.amount value = entry.amount + value :=
    toInt64_of_fits (fits entry (List.mem_of_find?_eq_some found) isFor)
  have changed : TokenTransfer.moves
      { entry with amount := addLong entry.amount value, expectedDecimals } =
        entry.moves + Pi.single entry.spend value := by
    rw [TokenTransfer.moves, TokenTransfer.moves, ← Pi.single_add, ← sum]
    rfl
  rw [changed, add_right_inj, single_eq_single_iff]

theorem sum_upsert_hbars {entries : List Transfer} {account : AccountId} {hbars : Int}
    (fits : HbarsFit entries account hbars) (isApproved : Bool) :
    ((upsert (Transfer.isFor account)
        (fun transfer => { transfer with amount := addLong transfer.tinybars (toInt64 hbars) })
        { accountId := account, amount := hbars, isApproved } entries).map Transfer.moves).sum =
      (entries.map Transfer.moves).sum + Pi.single (account.identity, isApproved) hbars ↔
      HbarsAlike entries account hbars isApproved := by
  have value : toInt64 hbars = hbars := toInt64_of_fits fits.1
  have fresh : Transfer.moves { accountId := account, amount := hbars, isApproved } =
      Pi.single (account.identity, isApproved) hbars := by
    rw [Transfer.moves, Transfer.tinybars, value]
    rfl
  rw [sum_upsert_iff fresh]
  refine forall_congr' fun entry => forall_congr' fun found => ?_
  have isFor : entry.isFor account = true := List.find?_some found
  have inRange := fits.2 entry (List.mem_of_find?_eq_some found) isFor
  have sum : toInt64 (addLong entry.tinybars (toInt64 hbars)) = entry.tinybars + hbars := by
    rw [value, addLong, toInt64_of_fits inRange, toInt64_of_fits inRange]
  have changed : Transfer.moves { entry with amount := addLong entry.tinybars (toInt64 hbars) } =
      entry.moves + Pi.single entry.spend hbars := by
    rw [Transfer.moves, Transfer.moves, ← Pi.single_add, ← sum]
    rfl
  rw [changed, add_right_inj, single_eq_single_iff]

/-- The loop of `addTokenTransferWithDecimals` adds the amount to every entry of the account. -/
theorem sum_withDecimals {entries : List TokenTransfer} {token : TokenId} {account : AccountId}
    {value : Int} (fits : TokensFit entries token account value) (decimals : Nat) :
    ((entries.map (TokenTransfer.withDecimals token account value decimals)).map
        TokenTransfer.moves).sum =
      (entries.map TokenTransfer.moves).sum +
        (((entries.filter (TokenTransfer.isFor token account)).map TokenTransfer.spend).map fun spend =>
          (Pi.single spend value : Spend → ℤ)).sum := by
  induction entries with
  | nil => simp
  | cons entry rest inductionHypothesis =>
      have later := inductionHypothesis fun entry member => fits entry (List.mem_cons_of_mem _ member)
      rw [List.map_cons, List.map_cons, List.sum_cons, later, List.map_cons, List.sum_cons]
      by_cases isFor : entry.isFor token account = true
      · have sum : addLong entry.amount value = entry.amount + value :=
          toInt64_of_fits (fits entry List.mem_cons_self isFor)
        obtain ⟨ofToken, ofAccount⟩ : entry.tokenId.compare token = 0 ∧
            entry.accountId.compare account = 0 := by
          simpa [TokenTransfer.isFor] using isFor
        have changed : (entry.withDecimals token account value decimals).moves =
            entry.moves + Pi.single entry.spend value := by
          rw [TokenTransfer.withDecimals, if_pos ofToken, if_pos ofAccount, TokenTransfer.moves,
            TokenTransfer.moves, ← Pi.single_add, ← sum]
          rfl
        rw [changed, List.filter_cons_of_pos isFor, List.map_cons, List.map_cons, List.sum_cons]
        abel
      · have kept : (entry.withDecimals token account value decimals).moves = entry.moves := by
          rw [TokenTransfer.withDecimals]
          split
          · rename_i ofToken
            have other : ¬entry.accountId.compare account = 0 := by
              intro ofAccount
              exact isFor (by simp [TokenTransfer.isFor, ofToken, ofAccount])
            rw [if_neg other]
            rfl
          · rfl
        rw [kept, List.filter_cons_of_neg isFor, add_assoc]

theorem isFor_iff_isNft {nftId : NftId} {entry : TokenNftTransfer} :
    entry.isFor nftId = true ↔ isNft nftId.tokenId.onWire nftId.serial entry = true := by
  rw [TokenNftTransfer.isFor, Bool.and_eq_true, beq_iff_eq, beq_iff_eq,
    TokenId.compare_eq_zero_iff_key, compareLong_eq_zero, isNft, decide_eq_true_eq,
    TokenId.onWire_eq_iff]

section Nfts

variable {entries : List TokenNftTransfer} {nftId : NftId} {sender receiver : AccountId}
variable {isApproved : Bool}

/-- The entries of other NFTs stay. -/
theorem filter_upsert_of_other {token : TokenId} {serial : Int}
    (other : ¬(nftId.tokenId.onWire = token ∧ nftId.serial = serial)) :
    (upsert (TokenNftTransfer.isFor nftId)
        (fun transfer => { transfer with senderAccountId := sender, receiverAccountId := receiver })
        { tokenId := nftId.tokenId
          senderAccountId := sender
          receiverAccountId := receiver
          serialNumber := nftId.serial
          isApproved } entries).filter (isNft token serial) = entries.filter (isNft token serial) := by
  cases found : entries.find? (TokenNftTransfer.isFor nftId) with
  | none =>
      rw [upsert_of_none found, List.filter_append, List.filter_cons_of_neg (by simpa [isNft] using other),
        List.filter_nil, List.append_nil]
  | some entry =>
      have own := isFor_iff_isNft.mp (List.find?_some found)
      simp only [isNft, decide_eq_true_eq] at own
      have notThis : ¬(entry.tokenId.onWire = token ∧ entry.serialNumber = serial) := by
        rintro ⟨rfl, rfl⟩
        exact other ⟨own.1.symm, own.2.symm⟩
      obtain ⟨before, after, rfl, changed⟩ := upsert_of_some
        (fun transfer => { transfer with senderAccountId := sender, receiverAccountId := receiver })
        { tokenId := nftId.tokenId
          senderAccountId := sender
          receiverAccountId := receiver
          serialNumber := nftId.serial
          isApproved : TokenNftTransfer } found
      rw [changed, List.filter_append, List.filter_append,
        List.filter_cons_of_neg (by simpa [isNft] using notThis),
        List.filter_cons_of_neg (by simpa [isNft] using notThis)]

/-- The NFT has the entry that was asked for when its old one has the same flag. -/
theorem filter_upsert_iff
    (single : (entries.filter (isNft nftId.tokenId.onWire nftId.serial)).length ≤ 1) :
    ((upsert (TokenNftTransfer.isFor nftId)
        (fun transfer => { transfer with senderAccountId := sender, receiverAccountId := receiver })
        { tokenId := nftId.tokenId
          senderAccountId := sender
          receiverAccountId := receiver
          serialNumber := nftId.serial
          isApproved } entries).filter (isNft nftId.tokenId.onWire nftId.serial)).map
        TokenNftTransfer.toProtobuf =
      [⟨sender.onWire, receiver.onWire, nftId.serial, isApproved⟩] ↔
      NftsAlike entries nftId isApproved := by
  cases found : entries.find? (TokenNftTransfer.isFor nftId) with
  | none =>
      have none : entries.filter (isNft nftId.tokenId.onWire nftId.serial) = [] := by
        rw [List.filter_eq_nil_iff]
        intro entry member own
        exact List.find?_eq_none.mp found entry member (isFor_iff_isNft.mpr own)
      rw [upsert_of_none found, List.filter_append, none, NftsAlike, found]
      simp [isNft, TokenNftTransfer.toProtobuf]
  | some entry =>
      have own := isFor_iff_isNft.mp (List.find?_some found)
      have serial : entry.serialNumber = nftId.serial := by
        simp only [isNft, decide_eq_true_eq] at own
        exact own.2
      obtain ⟨before, after, shape, changed⟩ := upsert_of_some
        (fun transfer => { transfer with senderAccountId := sender, receiverAccountId := receiver })
        { tokenId := nftId.tokenId
          senderAccountId := sender
          receiverAccountId := receiver
          serialNumber := nftId.serial
          isApproved : TokenNftTransfer } found
      rw [shape, List.filter_append, List.filter_cons_of_pos own, List.length_append,
        List.length_cons] at single
      have before : before.filter (isNft nftId.tokenId.onWire nftId.serial) = [] :=
        List.length_eq_zero_iff.mp (by omega)
      have after : after.filter (isNft nftId.tokenId.onWire nftId.serial) = [] :=
        List.length_eq_zero_iff.mp (by omega)
      have ownStill : isNft nftId.tokenId.onWire nftId.serial
          { entry with senderAccountId := sender, receiverAccountId := receiver } = true := own
      rw [changed, List.filter_append, List.filter_cons_of_pos ownStill, before, after, NftsAlike, found]
      simp [TokenNftTransfer.toProtobuf, serial]

end Nfts

/-! ## One call -/

theorem lastNft_of_none {calls more : List Call} (none : more.filterMap Call.nft = [])
    (token : TokenId) (serial : Int) : lastNft token serial (calls ++ more) = lastNft token serial calls := by
  rw [lastNft, lastNft, List.filterMap_append, none, List.append_nil]

theorem lastNft_concat {calls : List Call} {call : Call} {token : TokenId} {nft : NftTransfer}
    (names : call.nft = some (token, nft)) (token' : TokenId) (serial : Int) :
    lastNft token' serial (calls ++ [call]) =
      if token = token' ∧ nft.serialNumber = serial then some nft else lastNft token' serial calls := by
  have one : [call].filterMap Call.nft = [(token, nft)] := by simp [names]
  rw [lastNft, List.filterMap_append, one, List.filter_append, List.map_append]
  split
  · rename_i own
    rw [List.filter_cons_of_pos (by simpa using own)]
    simp
  · rename_i other
    rw [List.filter_cons_of_neg (by simpa using other)]
    simp [lastNft]

/-- No call touches the rest of the transaction. -/
theorem transaction_step {tx : TransferTransaction}
    (unfrozen : tx.transaction.isFrozenOrOnDemand = false) (call : Call) :
    (tx.step call).transaction = tx.transaction := by
  cases call with
  | token call =>
      rw [TransferTransaction.step, Call.method, ofSuper, Method.run_zoom]
      cases call with
      | addTokenTransfer token account value =>
          exact congrArg (·.2.transaction)
            (AbstractTokenTransferTransaction.run_mergeTokenTransfer unfrozen token account value false none)
      | addApprovedTokenTransfer token account value =>
          exact congrArg (·.2.transaction)
            (AbstractTokenTransferTransaction.run_mergeTokenTransfer unfrozen token account value true none)
      | addTokenTransferWithDecimals token account value decimals =>
          cases throws : tx.tokenTransfers.any (TokenTransfer.contradicts token decimals) with
          | true =>
              exact congrArg (·.2.transaction)
                (AbstractTokenTransferTransaction.run_addTokenTransferWithDecimals_of_contradicts token
                  account value decimals unfrozen throws)
          | false =>
              cases found : tx.tokenTransfers.any (TokenTransfer.isFor token account) with
              | true =>
                  exact congrArg (·.2.transaction)
                    (AbstractTokenTransferTransaction.run_addTokenTransferWithDecimals_of_found token
                      account value decimals unfrozen throws found)
              | false =>
                  exact congrArg (·.2.transaction)
                    (AbstractTokenTransferTransaction.run_addTokenTransferWithDecimals_of_new token
                      account value decimals unfrozen throws found)
      | addNftTransfer nftId sender receiver =>
          exact congrArg (·.2.transaction)
            (AbstractTokenTransferTransaction.run_mergeNftTransfer unfrozen false nftId sender receiver)
      | addApprovedNftTransfer nftId sender receiver =>
          exact congrArg (·.2.transaction)
            (AbstractTokenTransferTransaction.run_mergeNftTransfer unfrozen true nftId sender receiver)
  | addHbarTransfer account hbars =>
      exact congrArg (·.2.transaction) (run_mergeHbarTransfer unfrozen account hbars false)
  | addApprovedHbarTransfer account hbars =>
      exact congrArg (·.2.transaction) (run_mergeHbarTransfer unfrozen account hbars true)

namespace Session

variable {session : Session}

/-- A step on the fungible entries alone. -/
theorem recorded_iff_fungible (recorded : session.Recorded) (next : Session) (more : List Call)
    (sameHbars : next.tx.hbarTransfers = session.tx.hbarTransfers)
    (sameNfts : next.tx.nftTransfers = session.tx.nftTransfers)
    (added : next.added = session.added ++ more) (noHbars : (more.map Call.hbars).sum = 0)
    (noNfts : more.filterMap Call.nft = []) :
    next.Recorded ↔
      next.tx.fungible = session.tx.fungible + (more.map Call.fungible).sum := by
  rw [recorded.fungible]
  constructor
  · intro kept
    rw [kept.fungible, added, List.map_append, List.sum_append]
  · intro grown
    refine ⟨?_, ?_, fun token serial => ?_⟩
    · rw [grown, added, List.map_append, List.sum_append]
    · rw [TransferTransaction.hbars, sameHbars, added, List.map_append, List.sum_append, noHbars,
        add_zero, ← recorded.hbars, TransferTransaction.hbars]
    · rw [TransferTransaction.nfts, sameNfts, added, lastNft_of_none noNfts, ← recorded.nfts,
        TransferTransaction.nfts]

/-- A step on the hbar entries alone. -/
theorem recorded_iff_hbars (recorded : session.Recorded) (next : Session) {call : Call}
    (same : next.tx.toAbstractTokenTransferTransaction = session.tx.toAbstractTokenTransferTransaction)
    (added : next.added = session.added ++ [call]) (noFungible : call.fungible = 0)
    (noNft : call.nft = none) :
    next.Recorded ↔ next.tx.hbars = session.tx.hbars + call.hbars := by
  rw [recorded.hbars]
  constructor
  · intro kept
    rw [kept.hbars, added, List.map_append, List.sum_append, List.map_singleton, List.sum_singleton]
  · intro grown
    refine ⟨?_, ?_, fun token serial => ?_⟩
    · rw [TransferTransaction.fungible, same, added, List.map_append, List.sum_append,
        List.map_singleton, List.sum_singleton, noFungible, add_zero, ← recorded.fungible,
        TransferTransaction.fungible]
    · rw [grown, added, List.map_append, List.sum_append, List.map_singleton, List.sum_singleton]
    · rw [TransferTransaction.nfts, same, added, lastNft_of_none (by simp [noNft]), ← recorded.nfts,
        TransferTransaction.nfts]

/-- A step on the NFT entries alone. -/
theorem recorded_iff_nfts (recorded : session.Recorded) (next : Session) {call : Call}
    (sameHbars : next.tx.hbarTransfers = session.tx.hbarTransfers)
    (sameTokens : next.tx.tokenTransfers = session.tx.tokenTransfers)
    (added : next.added = session.added ++ [call]) (noFungible : call.fungible = 0)
    (noHbars : call.hbars = 0) {nftId : NftId} {nft : NftTransfer}
    (names : call.nft = some (nftId.tokenId.onWire, nft)) (serial : nft.serialNumber = nftId.serial)
    (others : ∀ token serial, ¬(nftId.tokenId.onWire = token ∧ nftId.serial = serial) →
      next.tx.nfts token serial = session.tx.nfts token serial) :
    next.Recorded ↔ next.tx.nfts nftId.tokenId.onWire nftId.serial = [nft] := by
  constructor
  · intro kept
    rw [kept.nfts, added, lastNft_concat names, if_pos ⟨rfl, serial⟩, Option.toList_some]
  · intro moved
    refine ⟨?_, ?_, fun token serial' => ?_⟩
    · rw [TransferTransaction.fungible, sameTokens, added, List.map_append, List.sum_append,
        List.map_singleton, List.sum_singleton, noFungible, add_zero, ← recorded.fungible,
        TransferTransaction.fungible]
    · rw [TransferTransaction.hbars, sameHbars, added, List.map_append, List.sum_append,
        List.map_singleton, List.sum_singleton, noHbars, add_zero, ← recorded.hbars,
        TransferTransaction.hbars]
    · rw [added, lastNft_concat names, serial]
      split
      · rename_i own
        rw [← own.1, ← own.2, moved, Option.toList_some]
      · rename_i other
        rw [others token serial' other, recorded.nfts]

theorem step_of_ok {call : AbstractTokenTransferTransaction.Call}
    {super : AbstractTokenTransferTransaction}
    (ran : call.method.run session.tx.toAbstractTokenTransferTransaction = (.ok (), super)) :
    session.step (.token call) =
      { tx := { session.tx with toAbstractTokenTransferTransaction := super }
        added := session.added ++ [.token call] } := by
  rw [step, TransferTransaction.step, returns, Call.method, ofSuper, Method.run_zoom, ran]
  rfl

theorem step_of_error {call : AbstractTokenTransferTransaction.Call}
    {super : AbstractTokenTransferTransaction} {e : JsError}
    (ran : call.method.run session.tx.toAbstractTokenTransferTransaction = (.error e, super)) :
    session.step (.token call) =
      { tx := { session.tx with toAbstractTokenTransferTransaction := super }
        added := session.added } := by
  rw [step, TransferTransaction.step, returns, Call.method, ofSuper, Method.run_zoom, ran]
  rfl

variable (unfrozen : session.tx.transaction.isFrozenOrOnDemand = false) (recorded : session.Recorded)
include unfrozen recorded

theorem agrees_iff_mergeTokens {token : TokenId} {account : AccountId} {value : Int}
    (fits : TokensFit session.tx.tokenTransfers token account value) (isApproved : Bool)
    {call : AbstractTokenTransferTransaction.Call}
    (runs : call.method =
      AbstractTokenTransferTransaction.mergeTokenTransfer token account value isApproved none)
    (asks : (Call.token call).fungible = Pi.single (token.onWire, account.identity, isApproved) value)
    (noNft : (Call.token call).nft = none) :
    TokensAlike session.tx.tokenTransfers token account value isApproved ↔
      (session.step (.token call)).Recorded := by
  have ran := AbstractTokenTransferTransaction.run_mergeTokenTransfer unfrozen token account value
    isApproved none
  rw [← runs] at ran
  have noHbars : (Call.token call).hbars = 0 := by cases call <;> rfl
  have stepped := step_of_ok ran
  refine Iff.trans ?_ (recorded_iff_fungible recorded (session.step (.token call)) [.token call]
    (by rw [stepped]) (by rw [stepped]) (by rw [stepped]) ?_ ?_).symm
  · rw [stepped, List.map_singleton, List.sum_singleton, asks]
    exact (sum_upsert_tokens fits isApproved none).symm
  · rw [List.map_singleton, List.sum_singleton, noHbars]
  · simp [noNft]

theorem agrees_iff_mergeNfts {nftId : NftId} {sender receiver : AccountId} (isApproved : Bool)
    {call : AbstractTokenTransferTransaction.Call}
    (runs : call.method =
      AbstractTokenTransferTransaction.mergeNftTransfer isApproved nftId sender receiver)
    (asks : (Call.token call).nft = some (nftId.tokenId.onWire,
      ⟨sender.onWire, receiver.onWire, nftId.serial, isApproved⟩))
    (noFungible : (Call.token call).fungible = 0) :
    NftsAlike session.tx.nftTransfers nftId isApproved ↔ (session.step (.token call)).Recorded := by
  have ran := AbstractTokenTransferTransaction.run_mergeNftTransfer unfrozen isApproved nftId sender
    receiver
  rw [← runs] at ran
  have noHbars : (Call.token call).hbars = 0 := by cases call <;> rfl
  have single :
      (session.tx.nftTransfers.filter (isNft nftId.tokenId.onWire nftId.serial)).length ≤ 1 := by
    have held := congrArg List.length (recorded.nfts nftId.tokenId.onWire nftId.serial)
    rw [TransferTransaction.nfts, List.length_map] at held
    rw [held]
    exact Option.length_toList_le
  have stepped := step_of_ok ran
  refine Iff.trans ?_ (recorded_iff_nfts recorded (session.step (.token call)) (by rw [stepped])
    (by rw [stepped]) (by rw [stepped]) noFungible noHbars asks rfl ?_).symm
  · rw [stepped]
    exact (filter_upsert_iff single).symm
  · intro token serial other
    rw [stepped]
    exact congrArg (List.map TokenNftTransfer.toProtobuf) (filter_upsert_of_other other)

theorem agrees_iff_mergeHbars {account : AccountId} {hbars : Int}
    (fits : HbarsFit session.tx.hbarTransfers account hbars) (isApproved : Bool) {call : Call}
    (runs : call.method = mergeHbarTransfer account hbars isApproved)
    (asks : call.hbars = Pi.single (account.identity, isApproved) hbars)
    (noFungible : call.fungible = 0) (noNft : call.nft = none) :
    HbarsAlike session.tx.hbarTransfers account hbars isApproved ↔ (session.step call).Recorded := by
  have ran := run_mergeHbarTransfer unfrozen account hbars isApproved
  rw [← runs] at ran
  have stepped : session.step call = ⟨(call.method.run session.tx).2, session.added ++ [call]⟩ := by
    rw [step, TransferTransaction.step, returns, ran]
    rfl
  rw [ran] at stepped
  refine Iff.trans ?_ (recorded_iff_hbars recorded (session.step call) (by rw [stepped])
    (by rw [stepped]) noFungible noNft).symm
  rw [stepped, asks]
  exact (sum_upsert_hbars fits isApproved).symm

theorem agrees_iff_withDecimals {token : TokenId} {account : AccountId} {value : Int}
    (fits : TokensFit session.tx.tokenTransfers token account value) (decimals : Nat) :
    DecimalsAlike session.tx.tokenTransfers token account value decimals ↔
      (session.step (.token (.addTokenTransferWithDecimals token account value decimals))).Recorded := by
  let call : AbstractTokenTransferTransaction.Call :=
    .addTokenTransferWithDecimals token account value decimals
  have asks : (Call.token call).fungible = Pi.single (token.onWire, account.identity, false) value := rfl
  have noHbars : ([Call.token call].map Call.hbars).sum = 0 := by
    rw [List.map_singleton, List.sum_singleton]
    rfl
  have fungible : session.tx.fungible = (session.tx.tokenTransfers.map TokenTransfer.moves).sum := rfl
  rw [DecimalsAlike]
  cases throws : session.tx.tokenTransfers.any (TokenTransfer.contradicts token decimals) with
  | true =>
      have ran : call.method.run session.tx.toAbstractTokenTransferTransaction = _ :=
        AbstractTokenTransferTransaction.run_addTokenTransferWithDecimals_of_contradicts token account
          value decimals unfrozen throws
      have stepped := step_of_error ran
      have whole : (session.tx.tokenTransfers.takeWhile fun entry => !entry.contradicts token decimals) ++
          (session.tx.tokenTransfers.dropWhile fun entry => !entry.contradicts token decimals) =
          session.tx.tokenTransfers := List.takeWhile_append_dropWhile
      have fitsPassed : TokensFit
          (session.tx.tokenTransfers.takeWhile fun entry => !entry.contradicts token decimals)
          token account value := fun entry member =>
        fits entry (whole ▸ List.mem_append_left _ member)
      refine Iff.trans ?_ (recorded_iff_fungible recorded (session.step (.token call)) []
        (by rw [stepped]) (by rw [stepped]) (by rw [stepped, List.append_nil]) rfl rfl).symm
      have grown := sum_withDecimals fitsPassed decimals
      have sum : (session.step (.token call)).tx.fungible = session.tx.fungible +
          ((((session.tx.tokenTransfers.takeWhile fun entry => !entry.contradicts token decimals).filter
            (TokenTransfer.isFor token account)).map TokenTransfer.spend).map fun spend =>
              (Pi.single spend value : Spend → ℤ)).sum := by
        have parts := congrArg (fun entries => (entries.map TokenTransfer.moves).sum) whole
        simp only [List.map_append, List.sum_append] at parts
        rw [stepped, TransferTransaction.fungible, List.map_append, List.sum_append, grown, fungible,
          ← parts]
        abel
      rw [sum, List.map_nil, List.sum_nil, add_right_inj, sum_single_eq_zero]
      simp
  | false =>
      rw [(AbstractTokenTransferTransaction.takeWhile_of_agrees token decimals throws).1]
      have grown := sum_withDecimals fits decimals
      cases found : session.tx.tokenTransfers.any (TokenTransfer.isFor token account) with
      | true =>
          have ran : call.method.run session.tx.toAbstractTokenTransferTransaction = _ :=
            AbstractTokenTransferTransaction.run_addTokenTransferWithDecimals_of_found token account
              value decimals unfrozen throws found
          have stepped := step_of_ok ran
          have taken : (session.tx.tokenTransfers.filter (TokenTransfer.isFor token account)).map
              TokenTransfer.spend ≠ [] := by
            obtain ⟨entry, member, isFor⟩ := List.any_eq_true.mp found
            exact List.ne_nil_of_mem (List.mem_map_of_mem (List.mem_filter.mpr ⟨member, isFor⟩))
          refine Iff.trans ?_ (recorded_iff_fungible recorded (session.step (.token call))
            [.token call] (by rw [stepped]) (by rw [stepped]) (by rw [stepped]) noHbars rfl).symm
          have sum : (session.step (.token call)).tx.fungible = session.tx.fungible +
              (((session.tx.tokenTransfers.filter (TokenTransfer.isFor token account)).map
                TokenTransfer.spend).map fun spend => (Pi.single spend value : Spend → ℤ)).sum := by
            rw [stepped, TransferTransaction.fungible, grown, fungible]
          rw [sum, List.map_singleton, List.sum_singleton, asks, add_right_inj, sum_single_eq_single]
          simp only [taken, false_or, true_and]
      | false =>
          have ran : call.method.run session.tx.toAbstractTokenTransferTransaction = _ :=
            AbstractTokenTransferTransaction.run_addTokenTransferWithDecimals_of_new token account
              value decimals unfrozen throws found
          have stepped := step_of_ok ran
          have none : session.tx.tokenTransfers.filter (TokenTransfer.isFor token account) = [] := by
            rw [List.filter_eq_nil_iff]
            rw [List.any_eq_false] at found
            exact found
          refine Iff.trans ?_ (recorded_iff_fungible recorded (session.step (.token call))
            [.token call] (by rw [stepped]) (by rw [stepped]) (by rw [stepped]) noHbars rfl).symm
          rw [none, List.map_nil] at grown ⊢
          refine iff_of_true (.inr (.inl rfl)) ?_
          simp only [stepped, TransferTransaction.fungible, List.map_append, List.sum_append, grown,
            List.map_nil, List.sum_nil, add_zero, List.map_cons, List.sum_cons, asks]
          rfl

/-- The transfers of a call are conserved exactly when it agrees with the entries. -/
theorem agrees_iff {call : Call} (fits : Fits session.tx call) :
    Agrees session.tx call ↔ (session.step call).Recorded := by
  cases call with
  | token call =>
      cases call with
      | addTokenTransfer token account value =>
          exact agrees_iff_mergeTokens unfrozen recorded fits false rfl rfl rfl
      | addApprovedTokenTransfer token account value =>
          exact agrees_iff_mergeTokens unfrozen recorded fits true rfl rfl rfl
      | addTokenTransferWithDecimals token account value decimals =>
          exact agrees_iff_withDecimals unfrozen recorded fits decimals
      | addNftTransfer nftId sender receiver =>
          exact agrees_iff_mergeNfts unfrozen recorded false rfl rfl rfl
      | addApprovedNftTransfer nftId sender receiver =>
          exact agrees_iff_mergeNfts unfrozen recorded true rfl rfl rfl
  | addHbarTransfer account hbars =>
      exact agrees_iff_mergeHbars unfrozen recorded fits false rfl rfl rfl rfl
  | addApprovedHbarTransfer account hbars =>
      exact agrees_iff_mergeHbars unfrozen recorded fits true rfl rfl rfl rfl

omit recorded in
theorem unfrozen_step (call : Call) : (session.step call).tx.transaction.isFrozenOrOnDemand = false := by
  have kept : (session.step call).tx.transaction = session.tx.transaction :=
    TransferTransaction.transaction_step unfrozen call
  rw [kept, unfrozen]

end Session

/-! ## Constructors -/

end TransferTransaction

namespace TransferProps

/-- The calls that the arguments of the constructor stand for. -/
def calls (props : TransferProps) : List TransferTransaction.Call :=
  (props.tokenTransfers.map fun input =>
      .token (.addTokenTransfer input.tokenId input.accountId input.amount)) ++
    (props.nftTransfers.map fun input =>
      .token (.addNftTransfer ⟨input.tokenId, input.serial⟩ input.sender input.recipient)) ++
    props.hbarTransfers.map fun input => .addHbarTransfer input.accountId input.amount

end TransferProps

namespace TransferTransaction

namespace Session

/-- A transaction that the constructor has been given nothing for. -/
def start : Session where
  tx := new {}
  added := []

/-- A transaction that the constructor has been given transfers for. -/
def ofProps (props : TransferProps) : Session where
  tx := new props
  added := props.calls

end Session

/-- The constructor leaves what the methods leave, and every call on the way to it and
behind it is conserved. -/
structure Conserves (props : TransferProps) (calls : List Call) : Prop where
  dropsNothing : Session.ofProps props = runAll Session.step Session.start props.calls
  constructed : ∀ first, first <+: props.calls →
    (runAll Session.step Session.start first).Conserved
  called : ∀ first, first <+: calls →
    (runAll Session.step (Session.ofProps props) first).Conserved

theorem runAll_step_hbars {tx : TransferTransaction}
    (unfrozen : tx.transaction.isFrozenOrOnDemand = false) (inputs : List TransferHbarInput) :
    (Method.forEach (fun input => addHbarTransfer input.accountId input.amount) inputs).run tx =
      (.ok (), runAll step tx (inputs.map fun input => .addHbarTransfer input.accountId input.amount)) := by
  induction inputs generalizing tx with
  | nil => rfl
  | cons input rest inductionHypothesis =>
      have ran := run_mergeHbarTransfer unfrozen input.accountId input.amount false
      have kept := transaction_step unfrozen (.addHbarTransfer input.accountId input.amount)
      have stepped : (addHbarTransfer input.accountId input.amount).run tx =
          (.ok (), tx.step (.addHbarTransfer input.accountId input.amount)) :=
        Method.run_of_ok (congrArg Prod.fst ran)
      rw [Method.forEach_cons, Method.run_bind_ok stepped, inductionHypothesis (by rw [kept, unfrozen])]
      rfl

/-- Only the hbar transfers are added. -/
theorem new_eq (props : TransferProps) :
    new props = runAll step (new {})
      (props.hbarTransfers.map fun input => .addHbarTransfer input.accountId input.amount) :=
  congrArg Prod.snd (runAll_step_hbars rfl props.hbarTransfers)

namespace Session

/-- Calls for hbars return. -/
theorem runAll_step_hbars {session : Session}
    (unfrozen : session.tx.transaction.isFrozenOrOnDemand = false) (inputs : List TransferHbarInput) :
    runAll step session
        (inputs.map fun input => .addHbarTransfer input.accountId input.amount) =
      { tx := runAll TransferTransaction.step session.tx
          (inputs.map fun input => .addHbarTransfer input.accountId input.amount)
        added := session.added ++
          inputs.map fun input => .addHbarTransfer input.accountId input.amount } := by
  induction inputs generalizing session with
  | nil => simp
  | cons input rest inductionHypothesis =>
      have ran := run_mergeHbarTransfer unfrozen input.accountId input.amount false
      have returned : session.tx.returns (.addHbarTransfer input.accountId input.amount) = true :=
        congrArg (fun outcome => outcome.1.isOk) ran
      have stepped : session.step (.addHbarTransfer input.accountId input.amount) =
          { tx := session.tx.step (.addHbarTransfer input.accountId input.amount)
            added := session.added ++ [.addHbarTransfer input.accountId input.amount] } := by
        rw [step, returned, if_pos rfl]
      rw [List.map_cons, runAll_cons, runAll_cons, inductionHypothesis (unfrozen_step unfrozen _), stepped,
        List.append_assoc, List.singleton_append]

/-- The entries for tokens, of both kinds. -/
def entries (session : Session) : Nat :=
  session.tx.tokenTransfers.length + session.tx.nftTransfers.length

theorem entries_mergeTokens {session : Session}
    (unfrozen : session.tx.transaction.isFrozenOrOnDemand = false)
    {call : AbstractTokenTransferTransaction.Call} {token : TokenId} {account : AccountId} {value : Int}
    {isApproved : Bool}
    (runs : call.method =
      AbstractTokenTransferTransaction.mergeTokenTransfer token account value isApproved none) :
    session.entries ≤ (session.step (.token call)).entries ∧
      0 < (session.step (.token call)).entries := by
  have ran := AbstractTokenTransferTransaction.run_mergeTokenTransfer unfrozen token account value
    isApproved none
  rw [← runs] at ran
  have grown := length_upsert (TokenTransfer.isFor token account)
    (fun transfer =>
      { transfer with amount := addLong transfer.amount value, expectedDecimals := none })
    { tokenId := token, accountId := account, expectedDecimals := none, amount := value, isApproved }
    session.tx.tokenTransfers
  rw [step_of_ok ran, entries, entries]
  simp only
  omega

theorem entries_mergeNfts {session : Session}
    (unfrozen : session.tx.transaction.isFrozenOrOnDemand = false)
    {call : AbstractTokenTransferTransaction.Call} {nftId : NftId} {sender receiver : AccountId}
    {isApproved : Bool}
    (runs : call.method =
      AbstractTokenTransferTransaction.mergeNftTransfer isApproved nftId sender receiver) :
    session.entries ≤ (session.step (.token call)).entries ∧
      0 < (session.step (.token call)).entries := by
  have ran := AbstractTokenTransferTransaction.run_mergeNftTransfer unfrozen isApproved nftId sender
    receiver
  rw [← runs] at ran
  have grown := length_upsert (TokenNftTransfer.isFor nftId)
    (fun transfer => { transfer with senderAccountId := sender, receiverAccountId := receiver })
    { tokenId := nftId.tokenId
      senderAccountId := sender
      receiverAccountId := receiver
      serialNumber := nftId.serial
      isApproved } session.tx.nftTransfers
  rw [step_of_ok ran, entries, entries]
  simp only
  omega

theorem entries_mergeHbars {session : Session}
    (unfrozen : session.tx.transaction.isFrozenOrOnDemand = false) (input : TransferHbarInput) :
    (session.step (.addHbarTransfer input.accountId input.amount)).entries = session.entries := by
  have ran := run_mergeHbarTransfer unfrozen input.accountId input.amount false
  have stepped := congrArg Prod.snd ran
  rw [entries, entries]
  exact congrArg₂ (fun (tokens : List TokenTransfer) (nfts : List TokenNftTransfer) =>
    tokens.length + nfts.length) (congrArg (·.tokenTransfers) stepped) (congrArg (·.nftTransfers) stepped)

theorem unfrozen_runAll {session : Session}
    (unfrozen : session.tx.transaction.isFrozenOrOnDemand = false) (calls : List Call) :
    (runAll step session calls).tx.transaction.isFrozenOrOnDemand = false := by
  induction calls generalizing session with
  | nil => exact unfrozen
  | cons call rest inductionHypothesis => exact inductionHypothesis (unfrozen_step unfrozen call)

theorem entries_runAll {session : Session}
    (unfrozen : session.tx.transaction.isFrozenOrOnDemand = false) {calls : List Call}
    (grow : ∀ call ∈ calls, ∀ session : Session, session.tx.transaction.isFrozenOrOnDemand = false →
      session.entries ≤ (session.step call).entries) :
    session.entries ≤ (runAll step session calls).entries := by
  induction calls generalizing session with
  | nil => exact le_rfl
  | cons call rest inductionHypothesis =>
      have now := grow call List.mem_cons_self session unfrozen
      have later := inductionHypothesis (unfrozen_step unfrozen call) fun call member =>
        grow call (List.mem_cons_of_mem _ member)
      exact now.trans later

/-- What the constructor is given for tokens leaves entries when the methods add it. -/
theorem entries_props {props : TransferProps}
    (given : ¬(props.tokenTransfers = [] ∧ props.nftTransfers = [])) :
    0 < (runAll step start props.calls).entries := by
  have grow : ∀ call ∈ props.calls, ∀ session : Session,
      session.tx.transaction.isFrozenOrOnDemand = false →
      session.entries ≤ (session.step call).entries := by
    intro call member session unfrozen
    simp only [TransferProps.calls, List.mem_append, List.mem_map] at member
    rcases member with (⟨input, -, rfl⟩ | ⟨input, -, rfl⟩) | ⟨input, -, rfl⟩
    · exact (entries_mergeTokens unfrozen rfl).1
    · exact (entries_mergeNfts unfrozen rfl).1
    · exact (entries_mergeHbars unfrozen input).ge
  have first : ∃ call rest, props.calls = call :: rest ∧ 0 < (start.step call).entries := by
    obtain ⟨tokenTransfers, hbarTransfers, nftTransfers⟩ := props
    cases tokenTransfers with
    | cons input rest => exact ⟨_, _, rfl, (entries_mergeTokens rfl rfl).2⟩
    | nil =>
        cases nftTransfers with
        | cons input rest => exact ⟨_, _, rfl, (entries_mergeNfts rfl rfl).2⟩
        | nil => exact absurd ⟨rfl, rfl⟩ given
  obtain ⟨call, rest, shape, positive⟩ := first
  rw [shape] at grow ⊢
  exact positive.trans_le (entries_runAll (unfrozen_step rfl call) fun call member =>
    grow call (List.mem_cons_of_mem _ member))

/-- The constructor leaves what the methods leave when it is given nothing for tokens. -/
theorem dropsNothing_iff (props : TransferProps) :
    ofProps props = runAll step start props.calls ↔
      props.tokenTransfers = [] ∧ props.nftTransfers = [] := by
  constructor
  · intro same
    by_contra given
    have positive := entries_props given
    have none : (ofProps props).entries = 0 := by
      have kept (inputs : List TransferHbarInput) :
          (runAll step start (inputs.map fun input =>
            .addHbarTransfer input.accountId input.amount)).entries = 0 := by
        apply Nat.le_zero.mp
        have unfrozen : start.tx.transaction.isFrozenOrOnDemand = false := rfl
        induction inputs using List.reverseRecOn with
        | nil => exact le_rfl
        | append_singleton inputs input inductionHypothesis =>
            rw [List.map_append, runAll_append, List.map_singleton, runAll_cons, runAll_nil,
              entries_mergeHbars (unfrozen_runAll unfrozen _)]
            exact inductionHypothesis
      have made := kept props.hbarTransfers
      rw [runAll_step_hbars rfl] at made
      rw [entries, ofProps, new_eq]
      exact made
    rw [← same, none] at positive
    exact lt_irrefl 0 positive
  · rintro ⟨noTokens, noNfts⟩
    have hbars : props.calls =
        props.hbarTransfers.map fun input => .addHbarTransfer input.accountId input.amount := by
      rw [TransferProps.calls, noTokens, noNfts]
      rfl
    rw [hbars, runAll_step_hbars rfl, ofProps, hbars, new_eq]
    rfl

theorem recorded_start : start.Recorded where
  fungible := rfl
  hbars := rfl
  nfts := fun _ _ => rfl

end Session

/-! ## Runs -/

/-- What is added is moved as it was asked for exactly when the constructor is given nothing
for tokens and every call agrees with the entries it finds. -/
theorem conserves_iff {props : TransferProps} {calls : List Call}
    (fits : Guarded Session.step (fun session call => Fits session.tx call) Session.start
      (props.calls ++ calls)) :
    Conserves props calls ↔
      props.tokenTransfers = [] ∧ props.nftTransfers = [] ∧
        Guarded Session.step (fun session call => Agrees session.tx call) Session.start
          (props.calls ++ calls) := by
  have run : Guarded Session.step (fun session call => Agrees session.tx call) Session.start
      (props.calls ++ calls) ↔
      ∀ first, first <+: props.calls ++ calls →
        (runAll Session.step Session.start first).Recorded :=
    guarded_iff_holds (I := fun session : Session => session.tx.transaction.isFrozenOrOnDemand = false)
      (fun _ call unfrozen => Session.unfrozen_step unfrozen call)
      (fun _ _ unfrozen fits recorded => Session.agrees_iff unfrozen recorded fits)
      rfl Session.recorded_start fits
  rw [← and_assoc, ← Session.dropsNothing_iff, run]
  constructor
  · rintro ⟨drops, constructed, called⟩
    refine ⟨drops, fun first initial => ?_⟩
    apply (Session.conserved_iff_recorded _).mp
    rcases List.prefix_or_prefix_of_prefix initial (List.prefix_append props.calls calls) with
      inProps | ⟨behind, rfl⟩
    · exact constructed first inProps
    · rw [runAll_append, ← drops]
      exact called behind ((List.prefix_append_right_inj _).mp initial)
  · rintro ⟨drops, recorded⟩
    refine ⟨drops, fun first initial => ?_, fun first initial => ?_⟩
    · apply (Session.conserved_iff_recorded _).mpr
      exact recorded first (initial.trans (List.prefix_append _ _))
    · rw [drops, ← runAll_append]
      apply (Session.conserved_iff_recorded _).mpr
      exact recorded _ ((List.prefix_append_right_inj _).mpr initial)

/-- Two spends of one account, the first of them approved. -/
def mixedCalls : List Call :=
  [.token (.addApprovedTokenTransfer (.ofNum 1) (.ofNum 7) 5),
    .token (.addTokenTransfer (.ofNum 1) (.ofNum 7) 3)]

/-- What is asked for as a spend of the owner is moved as an approved one. -/
theorem owner_spend_approved :
    ¬ ∀ props calls, Guarded Session.step (fun session call => Fits session.tx call) Session.start
      (props.calls ++ calls) → Conserves props calls := by
  intro all
  have conserves := all {} mixedCalls (by decide +kernel)
  have moved := (conserves.called mixedCalls (List.prefix_refl _)).fungible
  have asOwner := congrFun moved (.ofNum 1, (AccountId.ofNum 7).identity, false)
  revert asOwner
  decide +kernel

/-- Transfers of two accounts, in hbars through the constructor, and an NFT named twice. -/
def sampleProps : TransferProps where
  hbarTransfers := [⟨.ofNum 7, -10⟩, ⟨.ofNum 8, 10⟩]

def sampleCalls : List Call :=
  [.token (.addTokenTransfer (.ofNum 1) (.ofNum 7) 5),
    .token (.addTokenTransferWithDecimals (.ofNum 1) (.ofNum 7) 3 2),
    .token (.addNftTransfer ⟨.ofNum 2, 1⟩ (.ofNum 7) (.ofNum 8)),
    .token (.addNftTransfer ⟨.ofNum 2, 1⟩ (.ofNum 8) (.ofNum 7)),
    .addHbarTransfer (.ofNum 7) 4]

theorem sampleCalls_agree :
    Guarded Session.step (fun session call => Agrees session.tx call) Session.start
      (sampleProps.calls ++ sampleCalls) := by
  refine ⟨?_, ?_, ?_, ?_, ?_, ?_, ?_, trivial⟩
  · rintro entry ⟨⟩
  · rintro entry found
    cases found
  · rintro entry ⟨⟩
  · exact .inr (.inr ⟨by decide +kernel, by decide +kernel⟩)
  · rintro entry ⟨⟩
  · intro entry found
    cases found
    decide
  · intro entry found
    cases found
    decide

theorem sampleCalls_conserved : Conserves sampleProps sampleCalls := by
  have fits : Guarded Session.step (fun session call => Fits session.tx call) Session.start
      (sampleProps.calls ++ sampleCalls) := by decide +kernel
  exact (conserves_iff fits).mpr ⟨rfl, rfl, sampleCalls_agree⟩

end TransferTransaction

end HederaSdk
