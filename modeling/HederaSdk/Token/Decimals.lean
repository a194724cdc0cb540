import HederaSdk.Token.Grouping

/-!
# Expected decimals

The decimals that are expected of a token stand at each of its entries. A transfer with
decimals sets them at all entries there are, a plain transfer takes them back at its own
entry, and the body reads them at the entry that comes first when the entries are sorted.

What the entries are named depends on the tokens and accounts of the calls alone, so the
decimals of an entry are those of the last call that concerns it.
-/

namespace HederaSdk

open Library

/-! ## The decimals of a list -/

namespace TransferGroup

/-- The decimals of the first transfer of a token. -/
def firstDecimals (transfers : List TokenTransfer) (k : ℤ ×ₗ ℤ ×ₗ ℤ) : Option Nat :=
  (transfers.find? fun transfer => transfer.tokenId.key = k).bind TokenTransfer.expectedDecimals

theorem mem_key_foldl_file {transfers : List TokenTransfer} {k : ℤ ×ₗ ℤ ×ₗ ℤ} :
    k ∈ (transfers.foldl file []).map key ↔ ∃ transfer ∈ transfers, transfer.tokenId.key = k := by
  rw [map_key_foldl_file, List.map_nil, mem_foldl_addKey, List.mem_map]
  simp

/-- A later transfer does not change the decimals of a token. -/
theorem firstDecimals_concat_of_mem {transfers : List TokenTransfer} {k : ℤ ×ₗ ℤ ×ₗ ℤ}
    (occurs : ∃ transfer ∈ transfers, transfer.tokenId.key = k) (transfer : TokenTransfer) :
    firstDecimals (transfers ++ [transfer]) k = firstDecimals transfers k := by
  have found : (transfers.find? fun transfer => transfer.tokenId.key = k).isSome = true := by
    rw [List.find?_isSome]
    simpa using occurs
  obtain ⟨first, found⟩ := Option.isSome_iff_exists.mp found
  rw [firstDecimals, firstDecimals, List.find?_append, found, Option.some_or]

theorem firstDecimals_concat_of_new {transfers : List TokenTransfer} {transfer : TokenTransfer}
    (new : ¬∃ earlier ∈ transfers, earlier.tokenId.key = transfer.tokenId.key) :
    firstDecimals (transfers ++ [transfer]) transfer.tokenId.key = transfer.expectedDecimals := by
  have none : (transfers.find? fun earlier => earlier.tokenId.key = transfer.tokenId.key) = none := by
    rw [List.find?_eq_none]
    simpa using new
  rw [firstDecimals, List.find?_append, none, Option.none_or,
    List.find?_cons_of_pos (by simp), Option.bind_some]

/-- A list has the decimals of the first transfer in it. -/
theorem expectedDecimals_foldl_file (transfers : List TokenTransfer) :
    ∀ group ∈ transfers.foldl file [],
      group.expectedDecimals = firstDecimals transfers group.key := by
  induction transfers using List.reverseRecOn with
  | nil => simp
  | append_singleton transfers transfer inductionHypothesis =>
      have old (group : TransferGroup) (member : group ∈ transfers.foldl file []) :
          group.expectedDecimals = firstDecimals (transfers ++ [transfer]) group.key := by
        rw [firstDecimals_concat_of_mem (mem_key_foldl_file.mp (List.mem_map_of_mem member))]
        exact inductionHypothesis group member
      rw [List.foldl_concat, file]
      cases change : changeOf transfer.tokenId (push transfer) (transfers.foldl file []) with
      | none =>
          intro group member
          rcases List.mem_append.mp member with earlier | new
          · exact old group earlier
          · obtain rfl := List.mem_singleton.mp new
            apply Eq.symm
            apply firstDecimals_concat_of_new
            intro occurs
            obtain ⟨group, member, same⟩ := List.mem_map.mp (mem_key_foldl_file.mpr occurs)
            exact changeOf_none.mp change group member (isOf_iff.mpr same)
      | some changed =>
          obtain ⟨before, filed, after, shape, _, rfl⟩ := changeOf_some change
          rw [shape] at old
          intro group member
          rw [Option.getD_some, List.mem_append, List.mem_cons] at member
          rcases member with earlier | rfl | later
          · exact old group (by simp [earlier])
          · exact old filed (by simp)
          · exact old group (by simp [later])

theorem groupTransfers_of_no_nfts (transfers : List TokenTransfer) :
    groupTransfers transfers [] [] = transfers.foldl file [] := by
  cases transfers <;> rfl

end TransferGroup

/-! ## The calls that concern an entry -/

/-- What an entry is called: its token and its account. -/
abbrev EntryName := TokenId × AccountId

namespace EntryName

/-- The entry that a transfer is merged into. -/
def isFor (token : TokenId) (account : AccountId) (name : EntryName) : Bool :=
  name.1.compare token == 0 && name.2.compare account == 0

def compare (a b : EntryName) : Int :=
  if a.1.compare b.1 ≠ 0 then a.1.compare b.1 else a.2.compare b.2

/-- An entry is found under its own name. -/
theorem isFor_self (name : EntryName) : name.isFor name.1 name.2 = true := by
  obtain ⟨token, shard, realm, num, aliasKey, evmAddress, _⟩ := name
  have ofToken : token.compare token = 0 := TokenId.compare_eq_zero.mpr rfl
  cases aliasKey <;> cases evmAddress <;>
    simp [isFor, ofToken, AccountId.compare_eq_zero, AccountId.equals, PublicKey.equals_iff]

end EntryName

def TokenTransfer.name (transfer : TokenTransfer) : EntryName := (transfer.tokenId, transfer.accountId)

namespace AbstractTokenTransferTransaction

namespace Call

/-- A call that adds a fungible transfer. -/
def IsFungible : Call → Prop
  | addTokenTransfer .. | addApprovedTokenTransfer .. | addTokenTransferWithDecimals .. => True
  | _ => False

/-- The token and the account of a fungible transfer. -/
def name : Call → Option EntryName
  | addTokenTransfer token account _ => some (token, account)
  | addApprovedTokenTransfer token account _ => some (token, account)
  | addTokenTransferWithDecimals token account _ _ => some (token, account)
  | _ => none

/-- The token of a transfer with decimals, and the decimals. -/
def expects : Call → Option (TokenId × Nat)
  | addTokenTransferWithDecimals token _ _ decimals => some (token, decimals)
  | _ => none

/-- A call that is told an account: the entry gets its name when there is none for it. -/
def addName (names : List EntryName) (call : Call) : List EntryName :=
  match call.name with
  | some (token, account) =>
      if names.any (EntryName.isFor token account) then names else names ++ [(token, account)]
  | none => names

/-- The decimals that a call gives an entry, if it concerns it. -/
def word (names : List EntryName) (name : EntryName) : Call → Option (Option Nat)
  | addTokenTransfer token account _ | addApprovedTokenTransfer token account _ =>
      if names.find? (EntryName.isFor token account) = some name then some none else none
  | addTokenTransferWithDecimals token _ _ decimals =>
      if name.1.compare token = 0 then some (some decimals) else none
  | _ => none

end Call

/-- The names of the entries, in the order in which they were first used. -/
def namesOf (calls : List Call) : List EntryName := calls.foldl Call.addName []

/-- The decimals that the last call that concerns an entry gives it. -/
def lastWord (names : List EntryName) (name : EntryName) (calls : List Call) : Option Nat :=
  (calls.filterMap (Call.word names name)).getLast?.join

/-- The name of the entry of a token that comes first when the entries are sorted. -/
def firstName (calls : List Call) (token : TokenId) : Option EntryName :=
  (Js.sort EntryName.compare (namesOf calls)).find? fun name => name.1.key = token.key

/-! ## Names -/

theorem find?_name (entries : List TokenTransfer) (token : TokenId) (account : AccountId) :
    (entries.map TokenTransfer.name).find? (EntryName.isFor token account) =
      (entries.find? (TokenTransfer.isFor token account)).map TokenTransfer.name := by
  rw [List.find?_map]
  rfl

theorem any_name (entries : List TokenTransfer) (token : TokenId) (account : AccountId) :
    (entries.map TokenTransfer.name).any (EntryName.isFor token account) =
      entries.any (TokenTransfer.isFor token account) := by
  rw [List.any_map]
  rfl

@[simp] theorem name_withDecimals (token : TokenId) (account : AccountId) (value : Int) (decimals : Nat)
    (entry : TokenTransfer) :
    (entry.withDecimals token account value decimals).name = entry.name := by
  rw [TokenTransfer.withDecimals]
  split
  · split <;> rfl
  · rfl

theorem lastWord_concat (names : List EntryName) (name : EntryName) (calls : List Call) (call : Call) :
    lastWord names name (calls ++ [call]) =
      (call.word names name).getD (lastWord names name calls) := by
  rw [lastWord, List.filterMap_append, List.getLast?_append]
  cases word : call.word names name with
  | none =>
      rw [List.filterMap_cons_none word]
      rfl
  | some decimals =>
      rw [List.filterMap_cons_some word]
      cases decimals <;> rfl

/-- Every fungible transfer has an entry. -/
def Named (calls : List Call) (names : List EntryName) : Prop :=
  ∀ call ∈ calls, ∀ name, call.name = some name → (names.find? (EntryName.isFor name.1 name.2)).isSome

/-- A later entry has no part in what was said of the others. -/
theorem lastWord_of_prefix {calls : List Call} {names more : List EntryName}
    (named : Named calls names) (name : EntryName) :
    lastWord (names ++ more) name calls = lastWord names name calls := by
  have same : calls.filterMap (Call.word (names ++ more) name) =
      calls.filterMap (Call.word names name) := by
    apply List.filterMap_congr
    intro call member
    have target (token : TokenId) (account : AccountId) (told : call.name = some (token, account)) :
        (names ++ more).find? (EntryName.isFor token account) =
          names.find? (EntryName.isFor token account) := by
      obtain ⟨first, found⟩ := Option.isSome_iff_exists.mp (named call member _ told)
      rw [List.find?_append, found, Option.some_or]
    cases call with
    | addTokenTransfer token account value => rw [Call.word, Call.word, target token account rfl]
    | addApprovedTokenTransfer token account value =>
        rw [Call.word, Call.word, target token account rfl]
    | _ => rfl
  rw [lastWord, lastWord, same]

theorem namesOf_concat (calls : List Call) (call : Call) :
    namesOf (calls ++ [call]) = call.addName (namesOf calls) := List.foldl_concat ..

/-! ## What the calls leave -/

/-- The entries have the names of the calls, and the decimals of the last call that concerns
them. -/
structure Traced (calls : List Call) (tx : AbstractTokenTransferTransaction) : Prop where
  noNfts : tx.nftTransfers = []
  names : tx.tokenTransfers.map TokenTransfer.name = namesOf calls
  nodup : (namesOf calls).Nodup
  named : Named calls (namesOf calls)
  decimals : ∀ entry ∈ tx.tokenTransfers,
    entry.expectedDecimals = lastWord (namesOf calls) entry.name calls

theorem traced_nil (transaction : Transaction) : Traced [] { transaction } where
  noNfts := rfl
  names := rfl
  nodup := List.nodup_nil
  named := fun _ member => by cases member
  decimals := fun _ member => by cases member

section Step

variable {calls : List Call} {tx tx' : AbstractTokenTransferTransaction} {call : Call}
  {token : TokenId} {account : AccountId}

/-- The names behind a call: an entry that is there, or a new one at the end. -/
theorem namesOf_of_name (traced : Traced calls tx) (told : call.name = some (token, account)) :
    (namesOf (calls ++ [call])).Nodup ∧ Named (calls ++ [call]) (namesOf (calls ++ [call])) ∧
      namesOf (calls ++ [call]) =
        if tx.tokenTransfers.any (TokenTransfer.isFor token account) then namesOf calls
        else namesOf calls ++ [(token, account)] := by
  have shape : namesOf (calls ++ [call]) =
      if tx.tokenTransfers.any (TokenTransfer.isFor token account) then namesOf calls
      else namesOf calls ++ [(token, account)] := by
    rw [namesOf_concat, Call.addName, told, ← any_name, traced.names]
  refine ⟨?_, ?_, shape⟩
  · rw [shape]
    split
    · exact traced.nodup
    · rename_i new
      rw [← any_name, traced.names, Bool.not_eq_true, List.any_eq_false] at new
      refine List.nodup_append.mpr ⟨traced.nodup, List.nodup_singleton _, ?_⟩
      rintro name member _ single rfl
      obtain rfl := List.mem_singleton.mp single
      exact new _ member (EntryName.isFor_self _)
  · have earlier : Named calls (namesOf (calls ++ [call])) := by
      intro call member name told
      rw [shape]
      split
      · exact traced.named call member name told
      · rw [List.find?_append, Option.isSome_or, traced.named call member name told, Bool.true_or]
    intro call' member name told'
    rcases List.mem_append.mp member with old | new
    · exact earlier call' old name told'
    · obtain rfl := List.mem_singleton.mp new
      obtain rfl : (token, account) = name := Option.some.inj (told.symm.trans told')
      rw [List.find?_isSome, shape]
      split
      · rename_i found
        rw [← any_name, traced.names, List.any_eq_true] at found
        exact found
      · exact ⟨(token, account), by simp, EntryName.isFor_self _⟩

/-- What was said of an entry that is there. -/
theorem lastWord_before (traced : Traced calls tx) (told : call.name = some (token, account))
    (name : EntryName) :
    lastWord (namesOf (calls ++ [call])) name calls = lastWord (namesOf calls) name calls := by
  rw [(namesOf_of_name traced told).2.2]
  split
  · rfl
  · exact lastWord_of_prefix traced.named name

/-- A call that returns was made before the transaction was frozen. -/
theorem unfrozen_of_ok {α : Type} {a : α}
    {m : Method JsError AbstractTokenTransferTransaction α}
    (ran : (requireNotFrozen >>= fun _ => m).run tx = (.ok a, tx')) :
    tx.transaction.isFrozenOrOnDemand = false := by
  by_contra frozen
  rw [Method.run_bind, requireNotFrozen, Method.run_zoom, Transaction.requireNotFrozen,
    Method.run_this_bind, if_pos (Bool.eq_true_of_not_eq_false frozen)] at ran
  cases ran

/-- A plain transfer says that its own entry has no decimals, and nothing else. -/
theorem lastWord_plain (traced : Traced calls tx) (told : call.name = some (token, account))
    (word : ∀ names name, call.word names name =
      if names.find? (EntryName.isFor token account) = some name then some none else none)
    {own : EntryName}
    (target : (namesOf (calls ++ [call])).find? (EntryName.isFor token account) = some own)
    (name : EntryName) :
    lastWord (namesOf (calls ++ [call])) name (calls ++ [call]) =
      if own = name then none else lastWord (namesOf calls) name calls := by
  rw [lastWord_concat, word, target, lastWord_before traced told]
  simp only [Option.some_inj]
  split <;> rfl

/-- A plain transfer takes the decimals of its own entry back. -/
theorem Traced.plain (traced : Traced calls tx) (told : call.name = some (token, account))
    (word : ∀ names name, call.word names name =
      if names.find? (EntryName.isFor token account) = some name then some none else none)
    {value : Int} {isApproved : Bool}
    (ran : (mergeTokenTransfer token account value isApproved none).run tx = (.ok (), tx')) :
    Traced (calls ++ [call]) tx' := by
  obtain ⟨nodup, named, shape⟩ := namesOf_of_name traced told
  rw [run_mergeTokenTransfer (unfrozen_of_ok ran)] at ran
  cases ran
  cases found : tx.tokenTransfers.find? (TokenTransfer.isFor token account) with
  | none =>
      have new : tx.tokenTransfers.any (TokenTransfer.isFor token account) = false := by
        rw [List.any_eq_false]
        exact List.find?_eq_none.mp found
      rw [new, if_neg Bool.false_ne_true] at shape
      have target : (namesOf (calls ++ [call])).find? (EntryName.isFor token account) =
          some (token, account) := by
        rw [shape, List.find?_append, ← traced.names, find?_name, found, Option.map_none,
          Option.none_or]
        exact List.find?_cons_of_pos (EntryName.isFor_self _)
      rw [upsert_of_none found]
      refine ⟨traced.noNfts, ?_, nodup, named, fun entry member => ?_⟩
      · rw [List.map_append, traced.names, shape]
        rfl
      · rw [lastWord_plain traced told word target]
        rcases List.mem_append.mp member with old | fresh
        · have other : (token, account) ≠ entry.name := by
            intro own
            have isNew : ¬entry.name.isFor token account = true := List.find?_eq_none.mp found entry old
            rw [← own] at isNew
            exact isNew (EntryName.isFor_self (token, account))
          rw [if_neg other]
          exact traced.decimals entry old
        · obtain rfl := List.mem_singleton.mp fresh
          exact (if_pos rfl).symm
  | some own =>
      have there : tx.tokenTransfers.any (TokenTransfer.isFor token account) = true := by
        rw [List.any_eq_true]
        exact ⟨own, List.mem_of_find?_eq_some found, List.find?_some found⟩
      rw [there, if_pos rfl] at shape
      have target : (namesOf (calls ++ [call])).find? (EntryName.isFor token account) =
          some own.name := by
        rw [shape, ← traced.names, find?_name, found, Option.map_some]
      obtain ⟨first, rest, entries, changed⟩ := upsert_of_some
        (fun entry => { entry with amount := addLong entry.amount value, expectedDecimals := none })
        { tokenId := token, accountId := account, expectedDecimals := none, amount := value, isApproved }
        found
      rw [changed]
      have names := traced.names
      rw [entries, List.map_append, List.map_cons] at names
      refine ⟨traced.noNfts, ?_, nodup, named, fun entry member => ?_⟩
      · rw [List.map_append, List.map_cons, shape, ← names]
        rfl
      · rw [lastWord_plain traced told word target]
        have distinct := traced.nodup
        rw [← names, List.nodup_middle, List.nodup_cons, List.mem_append] at distinct
        rcases List.mem_append.mp member with earlier | behind
        · have other : own.name ≠ entry.name :=
            fun same => distinct.1 (.inl (same ▸ List.mem_map_of_mem earlier))
          rw [if_neg other]
          exact traced.decimals entry (by simp [entries, earlier])
        · rcases List.mem_cons.mp behind with rfl | later
          · exact (if_pos rfl).symm
          · have other : own.name ≠ entry.name :=
              fun same => distinct.1 (.inr (same ▸ List.mem_map_of_mem later))
            rw [if_neg other]
            exact traced.decimals entry (by simp [entries, later])

/-- A transfer with decimals sets them at all entries of its token. -/
theorem Traced.withDecimals {value : Int} {decimals : Nat} (traced : Traced calls tx)
    (ran : (AbstractTokenTransferTransaction.addTokenTransferWithDecimals token account value
      decimals).run tx = (.ok (), tx')) :
    Traced (calls ++ [.addTokenTransferWithDecimals token account value decimals]) tx' := by
  let call : Call := .addTokenTransferWithDecimals token account value decimals
  have told : call.name = some (token, account) := rfl
  obtain ⟨nodup, named, shape⟩ := namesOf_of_name traced told
  have unfrozen := unfrozen_of_ok ran
  have agree : tx.tokenTransfers.any (TokenTransfer.contradicts token decimals) = false := by
    by_contra other
    rw [run_addTokenTransferWithDecimals_of_contradicts token account value decimals unfrozen
      (Bool.eq_true_of_not_eq_false other)] at ran
    cases ran
  have names : (tx.tokenTransfers.map (TokenTransfer.withDecimals token account value decimals)).map
      TokenTransfer.name = namesOf calls := by
    rw [List.map_map, ← traced.names]
    exact List.map_congr_left fun entry _ => name_withDecimals ..
  have old : ∀ entry ∈ tx.tokenTransfers.map
      (TokenTransfer.withDecimals token account value decimals),
      entry.expectedDecimals = lastWord (namesOf (calls ++ [call])) entry.name (calls ++ [call]) := by
    intro changed member
    obtain ⟨entry, inEntries, rfl⟩ := List.mem_map.mp member
    rw [lastWord_concat, lastWord_before traced told, name_withDecimals]
    change _ = Option.getD (if entry.tokenId.compare token = 0 then _ else _) _
    by_cases ofToken : entry.tokenId.compare token = 0
    · rw [if_pos ofToken, TokenTransfer.withDecimals, if_pos ofToken]
      split <;> rfl
    · rw [if_neg ofToken, TokenTransfer.withDecimals, if_neg ofToken]
      exact traced.decimals entry inEntries
  cases found : tx.tokenTransfers.any (TokenTransfer.isFor token account) with
  | true =>
      rw [run_addTokenTransferWithDecimals_of_found token account value decimals unfrozen agree
        found] at ran
      cases ran
      rw [found, if_pos rfl] at shape
      exact ⟨traced.noNfts, names.trans shape.symm, nodup, named, old⟩
  | false =>
      rw [run_addTokenTransferWithDecimals_of_new token account value decimals unfrozen agree
        found] at ran
      cases ran
      rw [found, if_neg Bool.false_ne_true] at shape
      refine ⟨traced.noNfts, ?_, nodup, named, fun entry member => ?_⟩
      · rw [List.map_append, names, shape]
        rfl
      · rcases List.mem_append.mp member with earlier | fresh
        · exact old entry earlier
        · obtain rfl := List.mem_singleton.mp fresh
          rw [lastWord_concat]
          change _ = Option.getD (if token.compare token = 0 then _ else _) _
          rw [if_pos (TokenId.compare_eq_zero.mpr rfl)]
          rfl

theorem Traced.step (traced : Traced calls tx) (fungible : call.IsFungible)
    (ran : call.method.run tx = (.ok (), tx')) : Traced (calls ++ [call]) tx' := by
  cases call with
  | addTokenTransfer token account value => exact traced.plain rfl (fun _ _ => rfl) ran
  | addApprovedTokenTransfer token account value => exact traced.plain rfl (fun _ _ => rfl) ran
  | addTokenTransferWithDecimals token account value decimals => exact traced.withDecimals ran
  | _ => cases fungible

end Step

/-- Calls none of which throws. -/
theorem Traced.forEach {calls more : List Call} {tx tx' : AbstractTokenTransferTransaction}
    (traced : Traced calls tx) (fungible : ∀ call ∈ more, call.IsFungible)
    (ran : (Method.forEach Call.method more).run tx = (.ok (), tx')) : Traced (calls ++ more) tx' := by
  induction more generalizing calls tx with
  | nil =>
      cases ran
      rwa [List.append_nil]
  | cons call rest inductionHypothesis =>
      obtain ⟨_, next, first, others⟩ := Method.run_bind_eq_ok.mp ran
      have stepped := traced.step (fungible call List.mem_cons_self) first
      rw [List.append_cons]
      exact inductionHypothesis stepped (fun call member => fungible call (.tail _ member)) others

/-- Without NFT transfers a token has the decimals of its first transfer, as they are sorted. -/
theorem carries_iff {tx : AbstractTokenTransferTransaction} (noNfts : tx.nftTransfers = [])
    (token : TokenId) (decimals : Nat) :
    (∃ list ∈ tx.tokenTransferLists,
        list.token = token.onWire ∧ list.expectedDecimals = some decimals) ↔
      TransferGroup.firstDecimals tx.sortTransfers.tokenTransfers token.key = some decimals := by
  have groups : tx.groups = tx.sortTransfers.tokenTransfers.foldl TransferGroup.file [] := by
    have sorted : tx.sortTransfers.nftTransfers = [] := by
      rw [sortTransfers, noNfts]
      rfl
    rw [AbstractTokenTransferTransaction.groups, sorted, TransferGroup.groupTransfers_of_no_nfts]
  rw [tokenTransferLists_eq, groups]
  constructor
  · rintro ⟨list, member, ofToken, carried⟩
    obtain ⟨group, inGroups, rfl⟩ := List.mem_map.mp member
    have same : group.key = token.key := TokenId.onWire_eq_iff.mp ofToken
    rw [← same, ← TransferGroup.expectedDecimals_foldl_file _ group inGroups]
    exact carried
  · intro first
    obtain ⟨transfer, found, _⟩ := Option.bind_eq_some_iff.mp first
    have ofToken : transfer.tokenId.key = token.key := by simpa using List.find?_some found
    have occurs : token.key ∈
        (tx.sortTransfers.tokenTransfers.foldl TransferGroup.file []).map TransferGroup.key :=
      TransferGroup.mem_key_foldl_file.mpr ⟨transfer, List.mem_of_find?_eq_some found, ofToken⟩
    obtain ⟨group, member, same⟩ := List.mem_map.mp occurs
    refine ⟨group.toProtobuf, List.mem_map_of_mem member, TokenId.onWire_eq_iff.mpr same, ?_⟩
    rw [← same, ← TransferGroup.expectedDecimals_foldl_file _ group member] at first
    exact first

/-! ## Decimals in the body -/

/-- What is expected of calls none of which throws: a token has decimals in the body when
they were given with it, and two calls that disagree on them are not both accepted. -/
structure Carries (calls : List Call) (lists : List TokenTransferList) : Prop where
  carried : ∀ (token : TokenId) (decimals : Nat),
    (∃ list ∈ lists, list.token = token.onWire ∧ list.expectedDecimals = some decimals) ↔
      ∃ expected ∈ calls.filterMap Call.expects,
        expected.1.key = token.key ∧ expected.2 = decimals
  rejected : ∀ expected ∈ calls.filterMap Call.expects, ∀ other ∈ calls.filterMap Call.expects,
    expected.1.key = other.1.key → expected.2 = other.2

/-- The calls agree on the decimals of a token, and the last one that concerns its first
entry is one with decimals. -/
structure KeepsDecimals (calls : List Call) : Prop where
  agree : ∀ expected ∈ calls.filterMap Call.expects, ∀ other ∈ calls.filterMap Call.expects,
    expected.1.key = other.1.key → expected.2 = other.2
  last : ∀ expected ∈ calls.filterMap Call.expects, ∀ name, firstName calls expected.1 = some name →
    (lastWord (namesOf calls) name calls).isSome

section Body

variable {calls : List Call} {tx : AbstractTokenTransferTransaction}

/-- The decimals of a token are the last that were said of the entry that comes first. -/
theorem firstDecimals_of_traced (traced : Traced calls tx) (token : TokenId) :
    TransferGroup.firstDecimals tx.sortTransfers.tokenTransfers token.key =
      (firstName calls token).bind fun name => lastWord (namesOf calls) name calls := by
  have sorted : tx.sortTransfers.tokenTransfers.map TokenTransfer.name =
      Js.sort EntryName.compare (namesOf calls) := by
    rw [← traced.names]
    exact List.map_insertionSort _ _ _ _ fun _ _ _ _ => Iff.rfl
  rw [TransferGroup.firstDecimals, firstName, ← sorted, List.find?_map, Function.comp_def]
  change Option.bind (tx.sortTransfers.tokenTransfers.find? fun transfer =>
    transfer.tokenId.key = token.key) _ = Option.bind (Option.map _ (tx.sortTransfers.tokenTransfers.find?
      fun transfer => transfer.tokenId.key = token.key)) _
  cases found : tx.sortTransfers.tokenTransfers.find? fun transfer =>
      transfer.tokenId.key = token.key with
  | none => rfl
  | some entry =>
      have member := tx.perm_sortTransfers.mem_iff.mp (List.mem_of_find?_eq_some found)
      exact traced.decimals entry member

theorem exists_of_lastWord {names : List EntryName} {name : EntryName} {decimals : Nat}
    (last : lastWord names name calls = some decimals) :
    ∃ expected ∈ calls.filterMap Call.expects,
      expected.1.key = name.1.key ∧ expected.2 = decimals := by
  rw [lastWord, Option.join_eq_some_iff] at last
  obtain ⟨call, member, word⟩ := List.mem_filterMap.mp (List.mem_of_getLast? last)
  cases call with
  | addTokenTransferWithDecimals token account value given =>
      rw [Call.word] at word
      split at word
      · rename_i ofToken
        cases word
        exact ⟨(token, decimals), List.mem_filterMap.mpr ⟨_, member, rfl⟩,
          (TokenId.compare_eq_zero_iff_key.mp ofToken).symm, rfl⟩
      · cases word
  | addTokenTransfer token account value =>
      rw [Call.word] at word
      split at word <;> cases word
  | addApprovedTokenTransfer token account value =>
      rw [Call.word] at word
      split at word <;> cases word
  | _ => cases word

/-- A token that decimals were given with has an entry. -/
theorem exists_firstName (traced : Traced calls tx) {expected : TokenId × Nat}
    (given : expected ∈ calls.filterMap Call.expects) {token : TokenId}
    (same : expected.1.key = token.key) :
    ∃ name, firstName calls token = some name ∧ name.1.key = token.key := by
  obtain ⟨call, member, expects⟩ := List.mem_filterMap.mp given
  have told : ∃ account, call.name = some (expected.1, account) := by
    cases call with
    | addTokenTransferWithDecimals token account value decimals =>
        cases expects
        exact ⟨account, rfl⟩
    | _ => cases expects
  obtain ⟨account, told⟩ := told
  obtain ⟨own, found⟩ := Option.isSome_iff_exists.mp (traced.named call member _ told)
  have ofToken : own.1.key = token.key := by
    have named := List.find?_some found
    rw [EntryName.isFor, Bool.and_eq_true, beq_iff_eq] at named
    exact (TokenId.compare_eq_zero_iff_key.mp named.1).trans same
  have isSome : (firstName calls token).isSome = true := by
    rw [firstName, List.find?_isSome]
    exact ⟨own, (Js.sort_perm _ _).mem_iff.mpr (List.mem_of_find?_eq_some found), by simpa using ofToken⟩
  obtain ⟨name, first⟩ := Option.isSome_iff_exists.mp isSome
  refine ⟨name, first, ?_⟩
  rw [firstName] at first
  simpa using List.find?_some first

theorem firstName_congr {token other : TokenId} (same : token.key = other.key) :
    firstName calls token = firstName calls other := by rw [firstName, firstName, same]

theorem carries_tokenTransferLists_iff (traced : Traced calls tx) :
    Carries calls tx.tokenTransferLists ↔ KeepsDecimals calls := by
  have inBody (token : TokenId) (decimals : Nat) := carries_iff traced.noNfts token decimals
  simp only [firstDecimals_of_traced traced] at inBody
  constructor
  · intro carries
    refine ⟨carries.rejected, fun expected given name first => ?_⟩
    have carried := (carries.carried expected.1 expected.2).mpr ⟨expected, given, rfl, rfl⟩
    rw [inBody, first, Option.bind_some] at carried
    rw [carried, Option.isSome_some]
  · intro keeps
    refine ⟨fun token decimals => ?_, keeps.agree⟩
    rw [inBody]
    constructor
    · intro said
      obtain ⟨name, first, last⟩ := Option.bind_eq_some_iff.mp said
      obtain ⟨expected, given, same, own⟩ := exists_of_lastWord last
      have ofToken : name.1.key = token.key := by
        rw [firstName] at first
        simpa using List.find?_some first
      exact ⟨expected, given, same.trans ofToken, own⟩
    · rintro ⟨expected, given, same, rfl⟩
      obtain ⟨name, first, ofToken⟩ := exists_firstName traced given same
      obtain ⟨decimals, last⟩ := Option.isSome_iff_exists.mp
        (keeps.last expected given name ((firstName_congr same).trans first))
      obtain ⟨other, givenToo, named, rfl⟩ := exists_of_lastWord last
      rw [first, Option.bind_some, last]
      exact congrArg some (keeps.agree other givenToo expected given (named.trans (ofToken.trans same.symm)))

end Body

/-- A transaction without entries. -/
def blankTransfer : AbstractTokenTransferTransaction where
  transaction := { data := .plain .cryptoTransfer (.object .nil) }

/-- A plain transfer before the one with decimals. -/
def plainFirst : List Call :=
  [.addTokenTransfer (.ofNum 1) (.ofNum 7) 5, .addTokenTransferWithDecimals (.ofNum 1) (.ofNum 8) 3 2]

/-- A plain transfer behind one with decimals, and then one with others. -/
def plainBetween : List Call :=
  [.addTokenTransferWithDecimals (.ofNum 1) (.ofNum 7) 5 2,
    .addTokenTransfer (.ofNum 1) (.ofNum 7) 4,
    .addTokenTransferWithDecimals (.ofNum 1) (.ofNum 8) 3 3]

end AbstractTokenTransferTransaction

end HederaSdk
