import HederaSdk.Compare
import HederaSdk.Library.Runs
import HederaSdk.Library.Ledger
import HederaSdk.Transaction.Transaction
import Mathlib.Algebra.Order.BigOperators.Group.List
import Mathlib.Algebra.Order.Group.Multiset

/-!
# Allowances for NFTs

A call that allows one serial number is merged into the first allowance of the same
token and spender. Neither the owner nor the delegating spender is looked at, and an
allowance of all serial numbers takes the call without a trace. `Agrees` is the
condition under which the built list grants what was asked for. A copy of the bytes keeps the serial
numbers of an allowance and not that all of them are revoked (`AgreesInUse`). Deletions are merged by
the token only.

Arguments that are texts or contract ids are taken as the account ids they stand for.
-/

namespace HederaSdk

open Library

structure NftId where
  tokenId : TokenId
  serial : Int

structure TokenNftAllowance where
  tokenId : TokenId
  spenderAccountId : Option AccountId
  ownerAccountId : Option AccountId
  /-- None for an allowance of all serial numbers. -/
  serialNumbers : Option (List Int)
  allSerials : Option Bool
  delegatingSpender : Option AccountId

/-- The message of an allowance. Its ids are as they are read back. -/
structure NftAllowance where
  tokenId : TokenId
  spender : Option AccountId
  owner : Option AccountId
  approvedForAll : Option (Option Bool)
  serialNumbers : Option (List Int)
  delegatingSpender : Option AccountId

namespace TokenNftAllowance

def toProtobuf (allowance : TokenNftAllowance) : NftAllowance where
  tokenId := allowance.tokenId.onWire
  spender := allowance.spenderAccountId.map AccountId.onWire
  owner := allowance.ownerAccountId.map AccountId.onWire
  approvedForAll := if allowance.serialNumbers.isNone then some allowance.allSerials else none
  serialNumbers := allowance.serialNumbers
  delegatingSpender := allowance.delegatingSpender.map AccountId.onWire

/-- The allowance that a serial number is added to. -/
def isFor (id : NftId) (spender : AccountId) (allowance : TokenNftAllowance) : Bool :=
  allowance.tokenId.compare id.tokenId == 0 &&
    match allowance.spenderAccountId with
    | some other => other.compare spender == 0
    | none => false

def pushSerial (serial : Int) (allowance : TokenNftAllowance) : TokenNftAllowance :=
  { allowance with serialNumbers := allowance.serialNumbers.map (· ++ [serial]) }

end TokenNftAllowance

structure AccountAllowanceApproveTransaction where
  transaction : Transaction
  nftApprovals : List TokenNftAllowance := []

namespace AccountAllowanceApproveTransaction

def requireNotFrozen : Method JsError AccountAllowanceApproveTransaction Unit :=
  Method.zoom AccountAllowanceApproveTransaction.transaction
    (fun transaction tx => { tx with transaction }) Transaction.requireNotFrozen

/-- `_approveTokenNftAllowance` -/
def approveNftSerial (nftId : NftId) (ownerAccountId : Option AccountId) (spender : AccountId)
    (delegatingSpender : Option AccountId) :
    Method JsError AccountAllowanceApproveTransaction Unit := do
  requireNotFrozen
  let fresh : TokenNftAllowance :=
    { tokenId := nftId.tokenId
      spenderAccountId := some spender
      ownerAccountId
      serialNumbers := some [nftId.serial]
      allSerials := some false
      delegatingSpender }
  Method.update fun tx =>
    { tx with
      nftApprovals := upsert (TokenNftAllowance.isFor nftId spender)
        (TokenNftAllowance.pushSerial nftId.serial) fresh tx.nftApprovals }

/-- `_approveAllTokenNftAllowance` -/
def approveAllNfts (tokenId : TokenId) (ownerAccountId : Option AccountId) (spender : AccountId)
    (allSerials : Bool) : Method JsError AccountAllowanceApproveTransaction Unit := do
  requireNotFrozen
  let fresh : TokenNftAllowance :=
    { tokenId
      spenderAccountId := some spender
      ownerAccountId
      serialNumbers := none
      allSerials := some allSerials
      delegatingSpender := none }
  Method.update fun tx => { tx with nftApprovals := tx.nftApprovals ++ [fresh] }

def approveTokenNftAllowance (nftId : NftId) (owner spender : AccountId) :
    Method JsError AccountAllowanceApproveTransaction Unit :=
  approveNftSerial nftId (some owner) spender none

def approveTokenNftAllowanceWithDelegatingSpender (nftId : NftId)
    (owner spender delegatingSpender : AccountId) :
    Method JsError AccountAllowanceApproveTransaction Unit :=
  approveNftSerial nftId (some owner) spender (some delegatingSpender)

def approveTokenNftAllowanceAllSerials (tokenId : TokenId) (owner spender : AccountId) :
    Method JsError AccountAllowanceApproveTransaction Unit :=
  approveAllNfts tokenId (some owner) spender true

def deleteTokenNftAllowanceAllSerials (tokenId : TokenId) (owner spender : AccountId) :
    Method JsError AccountAllowanceApproveTransaction Unit :=
  approveAllNfts tokenId (some owner) spender false

/-- The NFT allowances of `_makeTransactionData`. -/
def nftAllowances (tx : AccountAllowanceApproveTransaction) : List NftAllowance :=
  tx.nftApprovals.map TokenNftAllowance.toProtobuf

/-! ## What is granted -/

inductive Granted where
  | serial (serial : Int)
  | forAll (approved : Option Bool)
  deriving DecidableEq

/-- Ids are taken by what counts of them. -/
structure Grant where
  token : Int × Int × Int
  owner : Option (Int × Int × AccountName)
  spender : Option (Int × Int × AccountName)
  delegatingSpender : Option (Int × Int × AccountName)
  what : Granted
  deriving DecidableEq

end AccountAllowanceApproveTransaction

namespace NftAllowance

open AccountAllowanceApproveTransaction

def whats (allowance : NftAllowance) : List Granted :=
  match allowance.approvedForAll with
  | some approved => [.forAll approved]
  | none => (allowance.serialNumbers.getD []).map .serial

def grants (allowance : NftAllowance) : Multiset Grant :=
  Multiset.ofList <| allowance.whats.map fun what =>
    { token := allowance.tokenId.numbers
      owner := allowance.owner.map AccountId.identity
      spender := allowance.spender.map AccountId.identity
      delegatingSpender := allowance.delegatingSpender.map AccountId.identity
      what }

end NftAllowance

namespace AccountAllowanceApproveTransaction

/-- What the built list grants. -/
def grants (tx : AccountAllowanceApproveTransaction) : Multiset Grant :=
  (tx.nftAllowances.map NftAllowance.grants).sum

inductive Call where
  | approveTokenNftAllowance (nftId : NftId) (owner spender : AccountId)
  | approveTokenNftAllowanceWithDelegatingSpender (nftId : NftId)
      (owner spender delegatingSpender : AccountId)
  | approveTokenNftAllowanceAllSerials (tokenId : TokenId) (owner spender : AccountId)
  | deleteTokenNftAllowanceAllSerials (tokenId : TokenId) (owner spender : AccountId)

namespace Call

def method : Call → Method JsError AccountAllowanceApproveTransaction Unit
  | approveTokenNftAllowance nftId owner spender =>
      AccountAllowanceApproveTransaction.approveTokenNftAllowance nftId owner spender
  | approveTokenNftAllowanceWithDelegatingSpender nftId owner spender delegatingSpender =>
      AccountAllowanceApproveTransaction.approveTokenNftAllowanceWithDelegatingSpender nftId owner
        spender delegatingSpender
  | approveTokenNftAllowanceAllSerials tokenId owner spender =>
      AccountAllowanceApproveTransaction.approveTokenNftAllowanceAllSerials tokenId owner spender
  | deleteTokenNftAllowanceAllSerials tokenId owner spender =>
      AccountAllowanceApproveTransaction.deleteTokenNftAllowanceAllSerials tokenId owner spender

/-- What a call asks for. -/
def grant : Call → Grant
  | approveTokenNftAllowance nftId owner spender =>
      ⟨nftId.tokenId.numbers, some owner.identity, some spender.identity, none, .serial nftId.serial⟩
  | approveTokenNftAllowanceWithDelegatingSpender nftId owner spender delegatingSpender =>
      ⟨nftId.tokenId.numbers, some owner.identity, some spender.identity,
        some delegatingSpender.identity, .serial nftId.serial⟩
  | approveTokenNftAllowanceAllSerials tokenId owner spender =>
      ⟨tokenId.numbers, some owner.identity, some spender.identity, none, .forAll (some true)⟩
  | deleteTokenNftAllowanceAllSerials tokenId owner spender =>
      ⟨tokenId.numbers, some owner.identity, some spender.identity, none, .forAll (some false)⟩

end Call

def step (tx : AccountAllowanceApproveTransaction) (call : Call) :
    AccountAllowanceApproveTransaction := (call.method.run tx).2

/-- The allowance that a serial number is merged into has a list of serial numbers, and
its owner, spender and delegating spender are those of the call. -/
def MergesAlike (nftApprovals : List TokenNftAllowance) (nftId : NftId) (owner spender : AccountId)
    (delegatingSpender : Option AccountId) : Prop :=
  ∀ allowance, nftApprovals.find? (TokenNftAllowance.isFor nftId spender) = some allowance →
    allowance.serialNumbers.isSome = true ∧
      allowance.ownerAccountId.map AccountId.identity = some owner.identity ∧
      allowance.spenderAccountId.map AccountId.identity = some spender.identity ∧
      allowance.delegatingSpender.map AccountId.identity =
        delegatingSpender.map AccountId.identity

def Agrees (tx : AccountAllowanceApproveTransaction) : Call → Prop
  | .approveTokenNftAllowance nftId owner spender =>
      MergesAlike tx.nftApprovals nftId owner spender none
  | .approveTokenNftAllowanceWithDelegatingSpender nftId owner spender delegatingSpender =>
      MergesAlike tx.nftApprovals nftId owner spender (some delegatingSpender)
  | _ => True

/-! ## One call -/

theorem run_requireNotFrozen {tx : AccountAllowanceApproveTransaction}
    (unfrozen : tx.transaction.isFrozenOrOnDemand = false) :
    requireNotFrozen.run tx = (.ok (), tx) := by
  rw [requireNotFrozen, Method.run_zoom, Transaction.requireNotFrozen, Method.run_this_bind]
  simp [unfrozen]

/-- What an entry of the list grants when it is built. -/
def entryGrants (allowance : TokenNftAllowance) : Multiset Grant := allowance.toProtobuf.grants

theorem grants_eq (tx : AccountAllowanceApproveTransaction) :
    tx.grants = (tx.nftApprovals.map entryGrants).sum := by
  rw [grants, nftAllowances, List.map_map]
  rfl

/-- The grant of a serial number under the ids of an entry. -/
def grantOf (allowance : TokenNftAllowance) (what : Granted) : Grant where
  token := allowance.tokenId.numbers
  owner := allowance.ownerAccountId.map AccountId.identity
  spender := allowance.spenderAccountId.map AccountId.identity
  delegatingSpender := allowance.delegatingSpender.map AccountId.identity
  what

theorem entryGrants_eq (allowance : TokenNftAllowance) :
    entryGrants allowance =
      match allowance.serialNumbers with
      | some serials => ↑(serials.map fun serial => grantOf allowance (.serial serial))
      | none => {grantOf allowance (.forAll allowance.allSerials)} := by
  obtain ⟨tokenId, spender, owner, serials, allSerials, delegating⟩ := allowance
  cases serials <;>
    simp [entryGrants, NftAllowance.grants, NftAllowance.whats, TokenNftAllowance.toProtobuf, grantOf,
      AccountId.identity_onWire, Function.comp_def]

theorem entryGrants_pushSerial (allowance : TokenNftAllowance) (serial : Int) :
    entryGrants (allowance.pushSerial serial) =
      if allowance.serialNumbers.isSome = true
      then entryGrants allowance + {grantOf allowance (.serial serial)}
      else entryGrants allowance := by
  obtain ⟨tokenId, spender, owner, serials, allSerials, delegating⟩ := allowance
  cases serials with
  | none => rfl
  | some serials =>
      rw [entryGrants_eq, entryGrants_eq]
      simp [TokenNftAllowance.pushSerial, grantOf]
      rfl

theorem eq_grantOf {nftId : NftId} {spender owner : AccountId} {delegatingSpender : Option AccountId}
    {allowance : TokenNftAllowance} (found : allowance.isFor nftId spender = true) :
    grantOf allowance (.serial nftId.serial) =
        ⟨nftId.tokenId.numbers, some owner.identity, some spender.identity,
          delegatingSpender.map AccountId.identity, .serial nftId.serial⟩ ↔
      allowance.ownerAccountId.map AccountId.identity = some owner.identity ∧
        allowance.spenderAccountId.map AccountId.identity = some spender.identity ∧
        allowance.delegatingSpender.map AccountId.identity =
          delegatingSpender.map AccountId.identity := by
  have token : allowance.tokenId.numbers = nftId.tokenId.numbers := by
    rw [TokenNftAllowance.isFor, Bool.and_eq_true, beq_iff_eq] at found
    exact TokenId.compare_eq_zero.mp found.1
  simp [grantOf, token]

/-- A serial number is granted as it was asked for when it is merged alike, and not
otherwise. -/
theorem grants_upsert (nftApprovals : List TokenNftAllowance) (nftId : NftId)
    (owner spender : AccountId) (delegatingSpender : Option AccountId) :
    MergesAlike nftApprovals nftId owner spender delegatingSpender ↔
      ((upsert (TokenNftAllowance.isFor nftId spender) (TokenNftAllowance.pushSerial nftId.serial)
          { tokenId := nftId.tokenId
            spenderAccountId := some spender
            ownerAccountId := some owner
            serialNumbers := some [nftId.serial]
            allSerials := some false
            delegatingSpender } nftApprovals).map entryGrants).sum =
        (nftApprovals.map entryGrants).sum +
          {⟨nftId.tokenId.numbers, some owner.identity, some spender.identity,
            delegatingSpender.map AccountId.identity, .serial nftId.serial⟩} := by
  rw [sum_upsert_iff (by rw [entryGrants_eq]; rfl)]
  refine forall_congr' fun allowance => forall_congr' fun found => ?_
  have isFor : allowance.isFor nftId spender = true := List.find?_some found
  rw [entryGrants_pushSerial, ← eq_grantOf isFor]
  by_cases some : allowance.serialNumbers.isSome = true
  · simp [some]
  · simp [some]

theorem run_approveNftSerial {tx : AccountAllowanceApproveTransaction}
    (unfrozen : tx.transaction.isFrozenOrOnDemand = false) (nftId : NftId)
    (owner : Option AccountId) (spender : AccountId) (delegatingSpender : Option AccountId) :
    (approveNftSerial nftId owner spender delegatingSpender).run tx =
      (.ok (), { tx with
        nftApprovals := upsert (TokenNftAllowance.isFor nftId spender)
          (TokenNftAllowance.pushSerial nftId.serial)
          { tokenId := nftId.tokenId
            spenderAccountId := some spender
            ownerAccountId := owner
            serialNumbers := some [nftId.serial]
            allSerials := some false
            delegatingSpender } tx.nftApprovals }) := by
  rw [approveNftSerial, Method.run_bind_ok (run_requireNotFrozen unfrozen)]
  rfl

theorem run_approveAllNfts {tx : AccountAllowanceApproveTransaction}
    (unfrozen : tx.transaction.isFrozenOrOnDemand = false) (tokenId : TokenId)
    (owner : Option AccountId) (spender : AccountId) (allSerials : Bool) :
    (approveAllNfts tokenId owner spender allSerials).run tx =
      (.ok (), { tx with
        nftApprovals := tx.nftApprovals ++
          [{ tokenId
             spenderAccountId := some spender
             ownerAccountId := owner
             serialNumbers := none
             allSerials := some allSerials
             delegatingSpender := none }] }) := by
  rw [approveAllNfts, Method.run_bind_ok (run_requireNotFrozen unfrozen)]
  rfl

theorem run_call {tx : AccountAllowanceApproveTransaction}
    (unfrozen : tx.transaction.isFrozenOrOnDemand = false) (call : Call) :
    (call.method.run tx).1 = .ok () ∧ (step tx call).transaction = tx.transaction := by
  cases call with
  | approveTokenNftAllowance nftId owner spender =>
      exact ⟨congrArg Prod.fst (run_approveNftSerial unfrozen nftId owner spender none),
        congrArg (·.2.transaction) (run_approveNftSerial unfrozen nftId owner spender none)⟩
  | approveTokenNftAllowanceWithDelegatingSpender nftId owner spender delegating =>
      exact ⟨congrArg Prod.fst (run_approveNftSerial unfrozen nftId owner spender delegating),
        congrArg (·.2.transaction) (run_approveNftSerial unfrozen nftId owner spender delegating)⟩
  | approveTokenNftAllowanceAllSerials tokenId owner spender =>
      exact ⟨congrArg Prod.fst (run_approveAllNfts unfrozen tokenId owner spender true),
        congrArg (·.2.transaction) (run_approveAllNfts unfrozen tokenId owner spender true)⟩
  | deleteTokenNftAllowanceAllSerials tokenId owner spender =>
      exact ⟨congrArg Prod.fst (run_approveAllNfts unfrozen tokenId owner spender false),
        congrArg (·.2.transaction) (run_approveAllNfts unfrozen tokenId owner spender false)⟩

/-- A call adds its grant, and nothing else, exactly when it agrees. -/
theorem agrees_iff {tx : AccountAllowanceApproveTransaction}
    (unfrozen : tx.transaction.isFrozenOrOnDemand = false) (call : Call) :
    Agrees tx call ↔ (step tx call).grants = tx.grants + {call.grant} := by
  rw [grants_eq, grants_eq]
  cases call with
  | approveTokenNftAllowance nftId owner spender =>
      have stepped : (step tx (.approveTokenNftAllowance nftId owner spender)) = _ :=
        congrArg Prod.snd (run_approveNftSerial unfrozen nftId owner spender none)
      rw [stepped]
      exact grants_upsert tx.nftApprovals nftId owner spender none
  | approveTokenNftAllowanceWithDelegatingSpender nftId owner spender delegating =>
      have stepped : (step tx (.approveTokenNftAllowanceWithDelegatingSpender nftId owner spender
          delegating)) = _ :=
        congrArg Prod.snd (run_approveNftSerial unfrozen nftId owner spender delegating)
      rw [stepped]
      exact grants_upsert tx.nftApprovals nftId owner spender delegating
  | approveTokenNftAllowanceAllSerials tokenId owner spender =>
      have stepped : (step tx (.approveTokenNftAllowanceAllSerials tokenId owner spender)) = _ :=
        congrArg Prod.snd (run_approveAllNfts unfrozen tokenId owner spender true)
      rw [stepped]
      simp [Agrees, entryGrants_eq, grantOf, Call.grant]
  | deleteTokenNftAllowanceAllSerials tokenId owner spender =>
      have stepped : (step tx (.deleteTokenNftAllowanceAllSerials tokenId owner spender)) = _ :=
        congrArg Prod.snd (run_approveAllNfts unfrozen tokenId owner spender false)
      rw [stepped]
      simp [Agrees, entryGrants_eq, grantOf, Call.grant]

/-! ## Runs -/

/-- The built list grants, after every call, what the calls so far have asked for and
nothing else, exactly when every call agrees. -/
theorem grants_what_was_asked {tx : AccountAllowanceApproveTransaction}
    (unfrozen : tx.transaction.isFrozenOrOnDemand = false) (calls : List Call) :
    Guarded step Agrees tx calls ↔
      ∀ first, first <+: calls →
        (runAll step tx first).grants = tx.grants + (first.map fun call => {call.grant}).sum := by
  apply guarded_iff_adds (I := fun tx => tx.transaction.isFrozenOrOnDemand = false)
  · intro tx call unfrozen
    rw [(run_call unfrozen call).2]
    exact unfrozen
  · exact fun tx call unfrozen => agrees_iff unfrozen call
  · exact unfrozen

def noApprovals : AccountAllowanceApproveTransaction where
  transaction := { data := .plain .cryptoApproveAllowance (.object .nil) }

def sampleToken : TokenId := { shard := 0, realm := 0, num := 7 }

/-- Two serial numbers of one owner and, by another owner, all of them. -/
def sampleCalls : List Call :=
  [.approveTokenNftAllowance ⟨sampleToken, 1⟩ (.ofNum 2) (.ofNum 4),
    .approveTokenNftAllowance ⟨sampleToken, 5⟩ (.ofNum 2) (.ofNum 4),
    .approveTokenNftAllowanceAllSerials sampleToken (.ofNum 3) (.ofNum 4)]

theorem agrees_sampleCalls : Guarded step Agrees noApprovals sampleCalls := by
  refine ⟨?_, ?_, trivial, trivial⟩
  · intro allowance found
    cases found
  · intro allowance found
    have merged : some allowance = some _ := found.symm
    cases merged
    decide

theorem sampleCalls_granted :
    noApprovals.transaction.isFrozenOrOnDemand = false ∧ ∀ first, first <+: sampleCalls →
      (runAll step noApprovals first).grants =
        noApprovals.grants + (first.map fun call => {call.grant}).sum := by
  have unfrozen : noApprovals.transaction.isFrozenOrOnDemand = false := by decide
  exact ⟨unfrozen, (grants_what_was_asked unfrozen sampleCalls).mp agrees_sampleCalls⟩

/-- Serial number 5 of account 3 is granted as one of account 2, and a serial number
behind an allowance of all of them is not granted at all. -/
theorem grant_of_another_owner :
    ¬ (∀ calls call, call ∈ calls → call.grant ∈ (runAll step noApprovals calls).grants) := by
  intro all
  have granted := all
    [.approveTokenNftAllowance ⟨sampleToken, 1⟩ (.ofNum 2) (.ofNum 4),
      .approveTokenNftAllowance ⟨sampleToken, 5⟩ (.ofNum 3) (.ofNum 4)]
    (.approveTokenNftAllowance ⟨sampleToken, 5⟩ (.ofNum 3) (.ofNum 4)) (by simp)
  revert granted
  decide

end AccountAllowanceApproveTransaction

/-! ## Copies -/

namespace TokenNftAllowance

/-- `_fromProtobuf` -/
def fromProtobuf (allowance : NftAllowance) : TokenNftAllowance :=
  let allSerials := allowance.approvedForAll == some (some true)
  { tokenId := allowance.tokenId
    spenderAccountId := allowance.spender
    ownerAccountId := allowance.owner
    serialNumbers := if allSerials then none else some (allowance.serialNumbers.getD [])
    allSerials := some allSerials
    delegatingSpender := allowance.delegatingSpender }

/-- The allowance takes back what was granted of all serial numbers. -/
def RevokesAll (allowance : TokenNftAllowance) : Prop :=
  allowance.serialNumbers = none ∧ allowance.allSerials ≠ some true

instance decidableRevokesAll (allowance : TokenNftAllowance) : Decidable allowance.RevokesAll :=
  inferInstanceAs (Decidable (_ ∧ _))

end TokenNftAllowance

namespace AccountAllowanceApproveTransaction

/-- The transaction with the allowances that `_fromProtobuf` reads of its body. -/
def copy (tx : AccountAllowanceApproveTransaction) : AccountAllowanceApproveTransaction :=
  { tx with nftApprovals := tx.nftAllowances.map TokenNftAllowance.fromProtobuf }

inductive Use where
  | call (call : Call)
  | copy

def use (tx : AccountAllowanceApproveTransaction) : Use → AccountAllowanceApproveTransaction
  | .call call => step tx call
  | .copy => tx.copy

/-- A copy asks for nothing. -/
def Use.grants : Use → Multiset Grant
  | .call c => {c.grant}
  | .copy => 0

/-- A call agrees, and nothing is revoked when a copy is made. -/
def AgreesInUse (tx : AccountAllowanceApproveTransaction) : Use → Prop
  | .call call => Agrees tx call
  | .copy => ∀ allowance ∈ tx.nftApprovals, ¬allowance.RevokesAll

/-- An entry that revokes is read as one that grants nothing. -/
theorem entryGrants_fromProtobuf (allowance : TokenNftAllowance) :
    entryGrants (.fromProtobuf allowance.toProtobuf) =
      if allowance.RevokesAll then 0 else entryGrants allowance := by
  obtain ⟨tokenId, spender, owner, serials, allSerials, delegating⟩ := allowance
  have identities (id : Option AccountId) :
      (id.map AccountId.onWire).map AccountId.identity = id.map AccountId.identity := by
    cases id <;> simp [AccountId.identity_onWire]
  cases serials with
  | some serials =>
      rw [if_neg fun revokes => Option.some_ne_none _ revokes.1, entryGrants_eq, entryGrants_eq]
      simp only [TokenNftAllowance.fromProtobuf, TokenNftAllowance.toProtobuf, grantOf, identities]
      rfl
  | none =>
      by_cases all : allSerials = some true
      · rw [if_neg fun revokes => revokes.2 all, entryGrants_eq, entryGrants_eq, all]
        simp only [TokenNftAllowance.fromProtobuf, TokenNftAllowance.toProtobuf, grantOf, identities]
        rfl
      · rw [if_pos ⟨rfl, all⟩, entryGrants_eq]
        simp [TokenNftAllowance.fromProtobuf, TokenNftAllowance.toProtobuf, all]

theorem entryGrants_of_revokesAll {allowance : TokenNftAllowance} (revokes : allowance.RevokesAll) :
    entryGrants allowance ≠ 0 := by
  rw [entryGrants_eq, revokes.1]
  exact Multiset.singleton_ne_zero _

/-- A copy grants the same exactly when nothing is revoked. -/
theorem grants_copy_iff (tx : AccountAllowanceApproveTransaction) :
    (∀ allowance ∈ tx.nftApprovals, ¬allowance.RevokesAll) ↔ tx.copy.grants = tx.grants := by
  have entries : tx.copy.grants =
      (tx.nftApprovals.map fun allowance => if allowance.RevokesAll then 0 else entryGrants allowance).sum := by
    rw [grants_eq, copy, nftAllowances, List.map_map, List.map_map]
    exact congrArg List.sum (List.map_congr_left fun allowance _ => entryGrants_fromProtobuf allowance)
  rw [entries, grants_eq]
  generalize tx.nftApprovals = nftApprovals
  constructor
  · intro none
    exact congrArg List.sum (List.map_congr_left fun allowance member => if_neg (none allowance member))
  · intro same
    induction nftApprovals with
    | nil => simp
    | cons allowance rest inductionHypothesis =>
        rw [List.map_cons, List.map_cons, List.sum_cons, List.sum_cons] at same
        have fewer : (rest.map fun allowance =>
            if allowance.RevokesAll then 0 else entryGrants allowance).sum ≤ (rest.map entryGrants).sum :=
          List.sum_le_sum fun allowance _ => by
            split_ifs
            · exact Multiset.zero_le _
            · exact le_rfl
        by_cases revokes : allowance.RevokesAll
        · rw [if_pos revokes, zero_add] at same
          rw [same] at fewer
          have none : entryGrants allowance ≤ 0 := by
            have sum := fewer.trans_eq (zero_add (rest.map entryGrants).sum).symm
            exact (add_le_add_iff_right _).mp sum
          exact absurd (Multiset.le_zero.mp none) (entryGrants_of_revokesAll revokes)
        · rw [if_neg revokes] at same
          exact List.forall_mem_cons.mpr ⟨revokes, inductionHypothesis (add_left_cancel same)⟩

theorem agreesInUse_iff {tx : AccountAllowanceApproveTransaction}
    (unfrozen : tx.transaction.isFrozenOrOnDemand = false) (u : Use) :
    AgreesInUse tx u ↔ (use tx u).grants = tx.grants + u.grants := by
  cases u with
  | call call => exact agrees_iff unfrozen call
  | copy =>
      rw [Use.grants, add_zero]
      exact grants_copy_iff tx

/-- However calls and copies follow each other, the built list grants, behind each of them, what the calls so
far have asked for and nothing else, exactly when every call agrees and every copy is made while nothing is
revoked. -/
theorem grants_through_copies {tx : AccountAllowanceApproveTransaction}
    (unfrozen : tx.transaction.isFrozenOrOnDemand = false) (uses : List Use) :
    Guarded use AgreesInUse tx uses ↔
      ∀ first, first <+: uses → (runAll use tx first).grants = tx.grants + (first.map Use.grants).sum := by
  apply guarded_iff_adds (I := fun tx => tx.transaction.isFrozenOrOnDemand = false)
  · intro tx u unfrozen
    cases u with
    | call call =>
        rw [use, (run_call unfrozen call).2]
        exact unfrozen
    | copy => exact unfrozen
  · exact fun tx u unfrozen => agreesInUse_iff unfrozen u
  · exact unfrozen

/-- A copy is made behind a revocation. -/
def revokedUses : List Use :=
  [.call (.approveTokenNftAllowance ⟨sampleToken, 1⟩ (.ofNum 2) (.ofNum 4)), .copy,
    .call (.deleteTokenNftAllowanceAllSerials sampleToken (.ofNum 2) (.ofNum 4)), .copy]

/-- The revocation is gone. -/
theorem revocation_is_not_copied :
    ¬ (∀ first, first <+: revokedUses →
      (runAll use noApprovals first).grants = noApprovals.grants + (first.map Use.grants).sum) := by
  have unfrozen : noApprovals.transaction.isFrozenOrOnDemand = false := by decide
  rw [← grants_through_copies unfrozen revokedUses]
  rintro ⟨_, _, _, copied, _⟩
  exact copied _ (List.mem_cons_of_mem _ List.mem_cons_self) ⟨rfl, by decide⟩

end AccountAllowanceApproveTransaction

/-! ## Deletions -/

structure AccountAllowanceDeleteTransaction where
  transaction : Transaction
  nftAllowances : List TokenNftAllowance := []

/-- The message of a deletion, which has no spender. -/
structure NftRemoveAllowance where
  tokenId : TokenId
  owner : Option AccountId
  serialNumbers : List Int

namespace AccountAllowanceDeleteTransaction

def requireNotFrozen : Method JsError AccountAllowanceDeleteTransaction Unit :=
  Method.zoom AccountAllowanceDeleteTransaction.transaction
    (fun transaction tx => { tx with transaction }) Transaction.requireNotFrozen

/-- The allowance of the token is looked for, whoever owns it. -/
def isOf (tokenId : TokenId) (allowance : TokenNftAllowance) : Bool := allowance.tokenId.compare tokenId == 0

def deleteAllTokenNftAllowances (nftId : NftId) (ownerAccountId : AccountId) :
    Method JsError AccountAllowanceDeleteTransaction Unit := do
  requireNotFrozen
  let fresh : TokenNftAllowance :=
    { tokenId := nftId.tokenId
      spenderAccountId := none
      ownerAccountId := some ownerAccountId
      serialNumbers := some [nftId.serial]
      allSerials := some false
      delegatingSpender := none }
  Method.update fun tx =>
    { tx with
      nftAllowances := upsert (isOf nftId.tokenId) (TokenNftAllowance.pushSerial nftId.serial) fresh
        tx.nftAllowances }

/-- What the encoder takes of an allowance. -/
def toMessage (allowance : NftAllowance) : NftRemoveAllowance where
  tokenId := allowance.tokenId
  owner := allowance.owner
  serialNumbers := allowance.serialNumbers.getD []

/-- A deletion is read like an allowance that has neither a spender nor an approval. -/
def ofMessage (allowance : NftRemoveAllowance) : NftAllowance where
  tokenId := allowance.tokenId
  spender := none
  owner := allowance.owner
  approvedForAll := none
  serialNumbers := some allowance.serialNumbers
  delegatingSpender := none

def makeTransactionData (tx : AccountAllowanceDeleteTransaction) : List NftRemoveAllowance :=
  tx.nftAllowances.map fun allowance => toMessage allowance.toProtobuf

/-- The transaction with the allowances that `_fromProtobuf` reads of its body. -/
def copy (tx : AccountAllowanceDeleteTransaction) : AccountAllowanceDeleteTransaction :=
  { tx with nftAllowances := tx.makeTransactionData.map fun allowance => .fromProtobuf (ofMessage allowance) }

inductive Use where
  | deleteAllTokenNftAllowances (nftId : NftId) (owner : AccountId)
  | copy

def use (tx : AccountAllowanceDeleteTransaction) : Use → AccountAllowanceDeleteTransaction
  | .deleteAllTokenNftAllowances nftId owner =>
      ((AccountAllowanceDeleteTransaction.deleteAllTokenNftAllowances nftId owner).run tx).2
  | .copy => tx.copy

/-- A serial number whose allowances are taken back. -/
structure Removal where
  token : Int × Int × Int
  owner : Option (Int × Int × AccountName)
  serial : Int
  deriving DecidableEq

def removalsOf (allowance : NftRemoveAllowance) : Multiset Removal :=
  ↑(allowance.serialNumbers.map fun serial =>
    Removal.mk allowance.tokenId.numbers (allowance.owner.map AccountId.identity) serial)

def removals (tx : AccountAllowanceDeleteTransaction) : Multiset Removal :=
  (tx.makeTransactionData.map removalsOf).sum

def Use.removals : Use → Multiset Removal
  | .deleteAllTokenNftAllowances nftId owner => {⟨nftId.tokenId.numbers, some owner.identity, nftId.serial⟩}
  | .copy => 0

/-- The first allowance of the token has the owner of the call. -/
def OwnedAlike (tx : AccountAllowanceDeleteTransaction) : Use → Prop
  | .deleteAllTokenNftAllowances nftId owner =>
      ∀ allowance, tx.nftAllowances.find? (isOf nftId.tokenId) = some allowance →
        allowance.ownerAccountId.map AccountId.identity = some owner.identity
  | .copy => True

/-- Every allowance has a list of serial numbers. -/
structure Usable (tx : AccountAllowanceDeleteTransaction) : Prop where
  unfrozen : tx.transaction.isFrozenOrOnDemand = false
  serials : ∀ allowance ∈ tx.nftAllowances, allowance.serialNumbers.isSome = true

/-- What an entry takes back when it is built. -/
def entryRemovals (allowance : TokenNftAllowance) : Multiset Removal := removalsOf (toMessage allowance.toProtobuf)

theorem removals_eq (tx : AccountAllowanceDeleteTransaction) :
    tx.removals = (tx.nftAllowances.map entryRemovals).sum := by
  rw [removals, makeTransactionData, List.map_map]
  rfl

theorem entryRemovals_pushSerial {allowance : TokenNftAllowance} (listed : allowance.serialNumbers.isSome = true)
    (serial : Int) : entryRemovals (allowance.pushSerial serial) = entryRemovals allowance +
      {⟨allowance.tokenId.numbers, allowance.ownerAccountId.map AccountId.identity, serial⟩} := by
  obtain ⟨tokenId, spender, owner, serials, allSerials, delegating⟩ := allowance
  obtain ⟨serials, rfl⟩ := Option.isSome_iff_exists.mp listed
  simp [entryRemovals, removalsOf, toMessage, TokenNftAllowance.toProtobuf, TokenNftAllowance.pushSerial,
    AccountId.identity_onWire, Function.comp_def]
  rfl

theorem entryRemovals_copy (allowance : TokenNftAllowance) :
    entryRemovals (.fromProtobuf (ofMessage (toMessage allowance.toProtobuf))) = entryRemovals allowance := by
  have identities (id : Option AccountId) :
      (id.map AccountId.onWire).map AccountId.identity = id.map AccountId.identity := by
    cases id <;> simp [AccountId.identity_onWire]
  simp only [entryRemovals, removalsOf, toMessage, ofMessage, TokenNftAllowance.toProtobuf,
    TokenNftAllowance.fromProtobuf, identities]
  rfl

theorem run_deleteAllTokenNftAllowances {tx : AccountAllowanceDeleteTransaction}
    (unfrozen : tx.transaction.isFrozenOrOnDemand = false) (nftId : NftId) (owner : AccountId) :
    (deleteAllTokenNftAllowances nftId owner).run tx =
      (.ok (), { tx with
        nftAllowances := upsert (isOf nftId.tokenId) (TokenNftAllowance.pushSerial nftId.serial)
          { tokenId := nftId.tokenId
            spenderAccountId := none
            ownerAccountId := some owner
            serialNumbers := some [nftId.serial]
            allSerials := some false
            delegatingSpender := none } tx.nftAllowances }) := by
  have allowed : requireNotFrozen.run tx = (.ok (), tx) := by
    rw [requireNotFrozen, Method.run_zoom, Transaction.requireNotFrozen, Method.run_this_bind]
    simp [unfrozen]
  rw [deleteAllTokenNftAllowances, Method.run_bind_ok allowed]
  rfl

theorem Usable.use {tx : AccountAllowanceDeleteTransaction} (usable : tx.Usable) (u : Use) :
    (use tx u).Usable := by
  cases u with
  | copy => exact ⟨usable.unfrozen, by simp [AccountAllowanceDeleteTransaction.use, copy, ofMessage,
      TokenNftAllowance.fromProtobuf]⟩
  | deleteAllTokenNftAllowances nftId owner =>
      rw [AccountAllowanceDeleteTransaction.use, run_deleteAllTokenNftAllowances usable.unfrozen]
      refine ⟨usable.unfrozen, ?_⟩
      cases found : tx.nftAllowances.find? (isOf nftId.tokenId) with
      | none =>
          rw [upsert_of_none found]
          exact List.forall_mem_append.mpr ⟨usable.serials, by simp⟩
      | some allowance =>
          obtain ⟨before, after, items, changed⟩ :=
            upsert_of_some (TokenNftAllowance.pushSerial nftId.serial) _ found
          have serials := usable.serials
          rw [changed]
          rw [items] at serials
          simp only [List.forall_mem_append, List.forall_mem_cons] at serials ⊢
          exact ⟨serials.1, by simpa [TokenNftAllowance.pushSerial] using serials.2.1, serials.2.2⟩

theorem ownedAlike_iff {tx : AccountAllowanceDeleteTransaction} (usable : tx.Usable) (u : Use) :
    OwnedAlike tx u ↔ (use tx u).removals = tx.removals + u.removals := by
  rw [removals_eq, removals_eq]
  cases u with
  | copy =>
      have same : (tx.copy.nftAllowances.map entryRemovals).sum = (tx.nftAllowances.map entryRemovals).sum := by
        rw [copy, makeTransactionData, List.map_map, List.map_map]
        exact congrArg List.sum (List.map_congr_left fun allowance _ => entryRemovals_copy allowance)
      exact iff_of_true trivial (same.trans (add_zero _).symm)
  | deleteAllTokenNftAllowances nftId owner =>
      rw [use, run_deleteAllTokenNftAllowances usable.unfrozen, Use.removals]
      refine Iff.trans ?_ (sum_upsert_iff (by simp [entryRemovals, removalsOf, toMessage,
        TokenNftAllowance.toProtobuf, AccountId.identity_onWire])).symm
      refine forall_congr' fun allowance => forall_congr' fun found => ?_
      have token : allowance.tokenId.numbers = nftId.tokenId.numbers := by
        have own := List.find?_some found
        exact TokenId.compare_eq_zero.mp (beq_iff_eq.mp own)
      rw [entryRemovals_pushSerial (usable.serials allowance (List.mem_of_find?_eq_some found)), token,
        add_right_inj, Multiset.singleton_inj, Removal.mk.injEq]
      simp

/-- However calls and copies follow each other, the built list takes back what the calls so far have asked for
and nothing else exactly when the first allowance of a token always has the owner that is named with it. -/
theorem removes_what_was_asked {tx : AccountAllowanceDeleteTransaction} (usable : tx.Usable) (uses : List Use) :
    Guarded use OwnedAlike tx uses ↔
      ∀ first, first <+: uses → (runAll use tx first).removals = tx.removals + (first.map Use.removals).sum := by
  apply guarded_iff_adds (I := Usable)
  · exact fun tx u usable => usable.use u
  · exact fun tx u usable => ownedAlike_iff usable u
  · exact usable

def noDeletions : AccountAllowanceDeleteTransaction where
  transaction := { data := .plain .cryptoDeleteAllowance (.object .nil) }

/-- Two owners of one token. -/
def sampleDeletions : List Use :=
  [.deleteAllTokenNftAllowances ⟨AccountAllowanceApproveTransaction.sampleToken, 1⟩ (.ofNum 2), .copy,
    .deleteAllTokenNftAllowances ⟨AccountAllowanceApproveTransaction.sampleToken, 5⟩ (.ofNum 3)]

/-- The second serial number is taken back from the first owner. -/
theorem other_owner_is_taken :
    ¬ (∀ first, first <+: sampleDeletions →
      (runAll use noDeletions first).removals = noDeletions.removals + (first.map Use.removals).sum) := by
  have usable : noDeletions.Usable := ⟨by decide, by simp [noDeletions]⟩
  rw [← removes_what_was_asked usable sampleDeletions]
  rintro ⟨_, _, alike, _⟩
  have owner := alike _ rfl
  revert owner
  decide

end AccountAllowanceDeleteTransaction

end HederaSdk
