import HederaSdk.Token.Walk

/-!
# Grouping again

All fungible transfers of a token end in one list, however often the NFT transfers list the token. So
its expected decimals can be put down to the token, and the walk over the same transfers, each with
the decimals of its list, gives the same lists again.
-/

namespace HederaSdk

open Library

namespace TransferGroup

/-- The group has fungible transfers. -/
def HasTransfers (group : TransferGroup) : Prop := group.transfers ≠ []

theorem hasTransfers_push (transfer : TokenTransfer) (group : TransferGroup) :
    (group.push transfer).HasTransfers := List.append_ne_nil_of_right_ne_nil _ (List.cons_ne_nil _ _)

/-! ## What a step does to the groups -/

/-- The last group of a token is changed. -/
theorem changeOf_some_last {id : TokenId} {f : TransferGroup → TransferGroup} {groups changed : List TransferGroup}
    (change : changeOf id f groups = some changed) :
    ∃ before group after, groups = before ++ group :: after ∧ group.key = id.key ∧
      (∀ other ∈ after, other.key ≠ id.key) ∧ changed = before ++ f group :: after := by
  induction groups generalizing changed with
  | nil => cases change
  | cons first rest inductionHypothesis =>
      rw [changeOf] at change
      cases later : changeOf id f rest with
      | some rest' =>
          rw [later] at change
          cases change
          obtain ⟨before, group, after, shape, isOf, last, changed⟩ := inductionHypothesis later
          refine ⟨first :: before, group, after, ?_, isOf, last, ?_⟩
          · rw [shape, List.cons_append]
          · rw [changed, List.cons_append]
      | none =>
          simp only [later] at change
          split at change
          · rename_i isOf
            cases change
            exact ⟨[], first, rest, rfl, isOf_iff.mp isOf,
              fun other member same => changeOf_none.mp later other member (isOf_iff.mpr same), rfl⟩
          · cases change

/-- What a change that keeps the token and the fungible transfers leaves alone. -/
def owned (group : TransferGroup) : (ℤ ×ₗ ℤ ×ₗ ℤ) × List TokenTransfer := (group.key, group.transfers)

theorem owned_pushNft (nft : TokenNftTransfer) (group : TransferGroup) :
    (group.pushNft nft).owned = group.owned := rfl

theorem map_changeLast {β : Type} {look : TransferGroup → β} {f : TransferGroup → TransferGroup}
    (keeps : ∀ group, look (f group) = look group) (groups : List TransferGroup) :
    (changeLast f groups).map look = groups.map look := by
  rcases groups.eq_nil_or_concat with rfl | ⟨before, group, rfl⟩
  · rfl
  · rw [List.concat_eq_append, changeLast_concat]
    simp [keeps]

theorem map_changeOf {β : Type} {look : TransferGroup → β} {f : TransferGroup → TransferGroup}
    (keeps : ∀ group, look (f group) = look group) {id : TokenId} {groups changed : List TransferGroup}
    (change : changeOf id f groups = some changed) : changed.map look = groups.map look := by
  obtain ⟨before, group, after, rfl, _, rfl⟩ := changeOf_some change
  simp [keeps]

/-! ## One list with transfers -/

/-- A group that has transfers is before another of its token only when that one has none. -/
def Once (groups : List TransferGroup) : Prop :=
  groups.Pairwise fun group later => group.HasTransfers → group.key = later.key → ¬later.HasTransfers

/-- The same while transfers of a token, or of a later one, are still to come: its group is not
followed by another one. -/
structure OnceUpTo (k : ℤ ×ₗ ℤ ×ₗ ℤ) (groups : List TransferGroup) : Prop where
  once : groups.Pairwise fun group later => group.HasTransfers → group.key = later.key →
    ¬later.HasTransfers ∧ group.key < k
  below : ∀ group ∈ groups, group.HasTransfers → group.key ≤ k

/-- While NFT transfers are left as well, the group of the token is the last one. -/
structure WalkedTo (k : ℤ ×ₗ ℤ ×ₗ ℤ) (groups : List TransferGroup) : Prop extends OnceUpTo k groups where
  last : ∀ group ∈ groups, group.HasTransfers → group.key = k → (groups.map key).getLast? = some k

section Steps

variable {k k' : ℤ ×ₗ ℤ ×ₗ ℤ} {groups : List TransferGroup} {transfer : TokenTransfer} {nft : TokenNftTransfer}

theorem OnceUpTo.toOnce (upTo : OnceUpTo k groups) : Once groups :=
  upTo.once.imp fun both some same => (both some same).1

theorem OnceUpTo.mono (upTo : OnceUpTo k groups) (le : k ≤ k') : OnceUpTo k' groups where
  once := upTo.once.imp fun both some same => ⟨(both some same).1, (both some same).2.trans_le le⟩
  below group member some := (upTo.below group member some).trans le

/-- The last group of the token takes a transfer. -/
theorem OnceUpTo.push {before after : List TransferGroup} {group : TransferGroup}
    (upTo : OnceUpTo k (before ++ group :: after)) (own : group.key = k)
    (last : ∀ other ∈ after, other.key ≠ k) : OnceUpTo k (before ++ group.push transfer :: after) := by
  obtain ⟨once, below⟩ := upTo
  obtain ⟨first, second, across⟩ := List.pairwise_append.mp once
  obtain ⟨behind, rest⟩ := List.pairwise_cons.mp second
  refine ⟨List.pairwise_append.mpr ⟨first, List.pairwise_cons.mpr ⟨?_, rest⟩, ?_⟩, ?_⟩
  · intro other member _ same
    exact absurd (same.symm.trans own) (last other member)
  · intro early member other inSecond some same
    rcases List.mem_cons.mp inSecond with rfl | later
    · have strict := (across early member group List.mem_cons_self some same).2
      exact absurd (same.trans own) strict.ne
    · exact across early member other (List.mem_cons_of_mem _ later) some same
  · intro other member some
    rcases List.mem_append.mp member with early | late
    · exact below other (List.mem_append_left _ early) some
    · rcases List.mem_cons.mp late with rfl | later
      · exact own.le
      · exact below other (List.mem_append_right _ (List.mem_cons_of_mem _ later)) some

/-- A group of the token is opened when there is none with transfers. -/
theorem OnceUpTo.open_ (upTo : OnceUpTo k groups) {group : TransferGroup} (own : group.key = k)
    (new : ∀ other ∈ groups, other.HasTransfers → other.key ≠ k) : OnceUpTo k (groups ++ [group]) where
  once := by
    refine List.pairwise_append.mpr ⟨upTo.once, List.pairwise_singleton _ _, ?_⟩
    intro early member other inLast some same
    obtain rfl := List.mem_singleton.mp inLast
    exact absurd (same.trans own) (new early member some)
  below other member some := by
    rcases List.mem_append.mp member with early | last
    · exact upTo.below other early some
    · obtain rfl := List.mem_singleton.mp last
      exact own.le

theorem OnceUpTo.openNft (upTo : OnceUpTo k groups)
    (new : ∀ other ∈ groups, other.HasTransfers → other.key ≠ k) : OnceUpTo k (groups ++ [ofNft nft]) where
  once := by
    refine List.pairwise_append.mpr ⟨upTo.once, List.pairwise_singleton _ _, ?_⟩
    intro early member other inLast some same
    obtain rfl := List.mem_singleton.mp inLast
    exact ⟨fun none => none rfl, (upTo.below early member some).lt_of_ne (new early member some)⟩
  below other member some := by
    rcases List.mem_append.mp member with early | last
    · exact upTo.below other early some
    · obtain rfl := List.mem_singleton.mp last
      exact absurd rfl some

theorem OnceUpTo.file (upTo : OnceUpTo transfer.tokenId.key groups) :
    OnceUpTo transfer.tokenId.key (file groups transfer) := by
  rw [TransferGroup.file]
  cases change : changeOf transfer.tokenId (TransferGroup.push transfer) groups with
  | some changed =>
      obtain ⟨before, group, after, rfl, own, last, rfl⟩ := changeOf_some_last change
      exact upTo.push own last
  | none =>
      refine upTo.open_ rfl fun other member _ same => ?_
      exact changeOf_none.mp change other member (isOf_iff.mpr same)

/-- Of the groups only the tokens and the fungible transfers count. -/
theorem OnceUpTo.congr {groups' : List TransferGroup} (upTo : OnceUpTo k groups)
    (same : groups'.map owned = groups.map owned) : OnceUpTo k groups' := by
  obtain ⟨once, below⟩ := upTo
  constructor
  · have pairs (l : List TransferGroup) := List.pairwise_map (l := l) (f := owned)
      (R := fun p q => p.2 ≠ [] → p.1 = q.1 → ¬q.2 ≠ [] ∧ p.1 < k)
    refine (pairs groups').mp ?_
    rw [same]
    exact (pairs groups).mpr once
  · have all (l : List TransferGroup) := List.forall_mem_map (l := l) (f := owned) (P := fun p => p.2 ≠ [] → p.1 ≤ k)
    refine (all groups').mp ?_
    rw [same]
    exact (all groups).mpr below

theorem WalkedTo.congr {groups' : List TransferGroup} (walked : WalkedTo k groups)
    (same : groups'.map owned = groups.map owned) : WalkedTo k groups' := by
  refine ⟨walked.toOnceUpTo.congr same, ?_⟩
  have keys : groups'.map key = groups.map key := by
    have firsts := congrArg (List.map Prod.fst) same
    rwa [List.map_map, List.map_map] at firsts
  have all (l : List TransferGroup) := List.forall_mem_map (l := l) (f := owned)
    (P := fun p => p.2 ≠ [] → p.1 = k → (groups'.map key).getLast? = some k)
  refine (all groups').mp ?_
  rw [same, keys]
  rw [keys] at all
  exact (all groups).mpr walked.last

theorem Once.congr {groups' : List TransferGroup} (once : Once groups)
    (same : groups'.map owned = groups.map owned) : Once groups' := by
  have pairs (l : List TransferGroup) := List.pairwise_map (l := l) (f := owned)
    (R := fun p q => p.2 ≠ [] → p.1 = q.1 → ¬q.2 ≠ [])
  refine (pairs groups').mp ?_
  rw [same]
  exact (pairs groups).mpr once

end Steps

/-! ## The walk -/

section Walk

variable {transfers : List TokenTransfer} {nfts : List TokenNftTransfer} {groups : List TransferGroup}

theorem once_foldl_fileNft (once : Once groups) : Once (nfts.foldl fileNft groups) := by
  induction nfts generalizing groups with
  | nil => exact once
  | cons nft rest inductionHypothesis =>
      apply inductionHypothesis
      rw [fileNft]
      cases change : changeOf nft.tokenId (pushNft nft) groups with
      | some changed =>
          have kept : changed.map owned = groups.map owned := map_changeOf (owned_pushNft nft) change
          exact once.congr kept
      | none =>
          refine List.pairwise_append.mpr ⟨once, List.pairwise_singleton _ _, ?_⟩
          intro early _ other inLast _ _ some
          obtain rfl := List.mem_singleton.mp inLast
          exact some rfl

theorem once_foldl_file {transfer : TokenTransfer}
    (sorted : (transfer :: transfers).Pairwise fun a b => a.tokenId.key ≤ b.tokenId.key)
    (upTo : OnceUpTo transfer.tokenId.key groups) : Once ((transfer :: transfers).foldl file groups) := by
  induction transfers generalizing transfer groups with
  | nil => exact upTo.file.toOnce
  | cons next rest inductionHypothesis =>
      obtain ⟨least, later⟩ := List.pairwise_cons.mp sorted
      exact inductionHypothesis later (upTo.file.mono (least next List.mem_cons_self))

/-- Where the walk can go on with some transfers. -/
def Ready : List TokenTransfer → List TransferGroup → Prop
  | [], groups => Once groups
  | transfer :: _, groups => WalkedTo transfer.tokenId.key groups

theorem WalkedTo.ready {transfer : TokenTransfer}
    (sorted : (transfer :: transfers).Pairwise fun a b => a.tokenId.key ≤ b.tokenId.key)
    (walked : WalkedTo transfer.tokenId.key groups) : Ready transfers groups := by
  cases transfers with
  | nil => exact walked.toOnce
  | cons next rest =>
      have le := (List.pairwise_cons.mp sorted).1 next List.mem_cons_self
      refine ⟨walked.toOnceUpTo.mono le, fun group member some same => ?_⟩
      have own := le_antisymm le (same ▸ walked.below group member some)
      rw [← own] at same ⊢
      exact walked.last group member some same

theorem WalkedTo.new {k : ℤ ×ₗ ℤ ×ₗ ℤ} (walked : WalkedTo k groups) (other : (groups.map key).getLast? ≠ some k) :
    ∀ group ∈ groups, group.HasTransfers → group.key ≠ k :=
  fun group member some same => other (walked.last group member some same)

/-- A group of the token is opened. -/
theorem WalkedTo.open_ {k : ℤ ×ₗ ℤ ×ₗ ℤ} (walked : WalkedTo k groups) (other : (groups.map key).getLast? ≠ some k)
    {group : TransferGroup} (own : group.key = k) : WalkedTo k (groups ++ [group]) where
  toOnceUpTo := walked.toOnceUpTo.open_ own (walked.new other)
  last _ _ _ _ := by rw [List.map_append, List.map_singleton, List.getLast?_concat, own]

/-- The fungible transfers of a token end in one group. -/
theorem once_groupTransfers (sorted : transfers.Pairwise fun a b => a.tokenId.key ≤ b.tokenId.key)
    (ready : Ready transfers groups) : Once (groupTransfers transfers nfts groups) := by
  induction transfers generalizing nfts groups with
  | nil => exact once_foldl_fileNft ready
  | cons transfer rest outer =>
      have later := (List.pairwise_cons.mp sorted).2
      have walked : WalkedTo transfer.tokenId.key groups := ready
      clear ready
      rw [groupTransfers]
      induction nfts generalizing groups with
      | nil => exact once_foldl_file sorted walked.toOnceUpTo
      | cons nft nfts inner =>
          rw [groupAt]
          split_ifs with joins joinsNft same less
          · refine outer later (WalkedTo.ready sorted ?_)
            obtain ⟨before, group, rfl, isOf, changed⟩ := changeLast_of_lastIsOf (push transfer) joins
            have own := isOf_iff.mp isOf
            rw [changed]
            refine ⟨walked.toOnceUpTo.push own (by simp), fun _ _ _ _ => ?_⟩
            rw [List.map_append, List.map_singleton, List.getLast?_concat, key_push, own]
          · exact inner (walked.congr (map_changeLast (owned_pushNft nft) groups))
          · exact outer later (WalkedTo.ready sorted (walked.open_ (fun last => joins (lastIsOf_iff.mpr last)) rfl))
          · exact outer later (WalkedTo.ready sorted (walked.open_ (fun last => joins (lastIsOf_iff.mpr last)) rfl))
          · have new := walked.new fun last => joins (lastIsOf_iff.mpr last)
            refine inner ⟨walked.toOnceUpTo.openNft new, fun group member some same => ?_⟩
            rcases List.mem_append.mp member with early | last
            · exact absurd same (new group early some)
            · obtain rfl := List.mem_singleton.mp last
              exact absurd rfl some

/-! ## Groups that are there stay -/

/-- The group is still there, with more transfers. -/
structure Grows (group later : TransferGroup) : Prop where
  key : later.key = group.key
  decimals : later.expectedDecimals = group.expectedDecimals
  transfers : group.HasTransfers → later.HasTransfers

def Grown (groups later : List TransferGroup) : Prop := ∀ group ∈ groups, ∃ other ∈ later, Grows group other

theorem grows_push (transfer : TokenTransfer) (group : TransferGroup) : Grows group (group.push transfer) :=
  ⟨rfl, rfl, fun _ => hasTransfers_push transfer group⟩

theorem grows_pushNft (nft : TokenNftTransfer) (group : TransferGroup) : Grows group (group.pushNft nft) :=
  ⟨rfl, rfl, id⟩

theorem Grown.trans {first second third : List TransferGroup} (one : Grown first second)
    (other : Grown second third) : Grown first third := by
  intro group member
  obtain ⟨next, here, grows⟩ := one group member
  obtain ⟨last, there, more⟩ := other next here
  exact ⟨last, there, more.key.trans grows.key, more.decimals.trans grows.decimals,
    fun some => more.transfers (grows.transfers some)⟩

theorem grown_append (groups more : List TransferGroup) : Grown groups (groups ++ more) :=
  fun group member => ⟨group, List.mem_append_left _ member, rfl, rfl, id⟩

theorem grown_change {f : TransferGroup → TransferGroup} (grows : ∀ group, Grows group (f group))
    (before after : List TransferGroup) (group : TransferGroup) :
    Grown (before ++ group :: after) (before ++ f group :: after) := by
  intro other member
  simp only [List.mem_append, List.mem_cons] at member ⊢
  rcases member with early | rfl | late
  · exact ⟨other, .inl early, rfl, rfl, id⟩
  · exact ⟨f other, .inr (.inl rfl), grows other⟩
  · exact ⟨other, .inr (.inr late), rfl, rfl, id⟩

theorem grown_changeLast {f : TransferGroup → TransferGroup} (grows : ∀ group, Grows group (f group))
    (groups : List TransferGroup) : Grown groups (changeLast f groups) := by
  rcases groups.eq_nil_or_concat with rfl | ⟨before, group, rfl⟩
  · exact fun _ member => absurd member List.not_mem_nil
  · rw [List.concat_eq_append, changeLast_concat]
    exact grown_change grows before [] group

theorem grown_changeOf {f : TransferGroup → TransferGroup} (grows : ∀ group, Grows group (f group))
    (id : TokenId) (groups more : List TransferGroup) :
    Grown groups ((changeOf id f groups).getD (groups ++ more)) := by
  cases change : changeOf id f groups with
  | none => exact grown_append groups more
  | some changed =>
      obtain ⟨before, group, after, rfl, _, rfl⟩ := changeOf_some change
      exact grown_change grows before after group

theorem grown_foldl_file (transfers : List TokenTransfer) (groups : List TransferGroup) :
    Grown groups (transfers.foldl file groups) := by
  induction transfers generalizing groups with
  | nil => exact fun group member => ⟨group, member, rfl, rfl, id⟩
  | cons transfer rest inductionHypothesis =>
      exact (grown_changeOf (grows_push transfer) transfer.tokenId groups _).trans (inductionHypothesis _)

theorem grown_foldl_fileNft (nfts : List TokenNftTransfer) (groups : List TransferGroup) :
    Grown groups (nfts.foldl fileNft groups) := by
  induction nfts generalizing groups with
  | nil => exact fun group member => ⟨group, member, rfl, rfl, id⟩
  | cons nft rest inductionHypothesis =>
      exact (grown_changeOf (grows_pushNft nft) nft.tokenId groups _).trans (inductionHypothesis _)

theorem grown_groupTransfers (transfers : List TokenTransfer) (nfts : List TokenNftTransfer)
    (groups : List TransferGroup) : Grown groups (groupTransfers transfers nfts groups) := by
  induction transfers generalizing nfts groups with
  | nil => exact grown_foldl_fileNft nfts groups
  | cons transfer rest outer =>
      rw [groupTransfers]
      induction nfts generalizing groups with
      | nil => exact grown_foldl_file (transfer :: rest) groups
      | cons nft nfts inner =>
          rw [groupAt]
          split_ifs
          · exact (grown_changeLast (grows_push transfer) groups).trans (outer _ _)
          · exact (grown_changeLast (grows_pushNft nft) groups).trans (inner _)
          · exact (grown_append groups _).trans (outer _ _)
          · exact (grown_append groups _).trans (outer _ _)
          · exact (grown_append groups _).trans (inner _)

/-! ## Decimals by token -/

section

variable {P : Option Nat → Prop} (before : ∀ group ∈ groups, P group.expectedDecimals)
include before

theorem decimals_concat {group : TransferGroup} (new : P group.expectedDecimals) :
    ∀ other ∈ groups ++ [group], P other.expectedDecimals :=
  List.forall_mem_append.mpr ⟨before, List.forall_mem_singleton.mpr new⟩

theorem decimals_foldl_file (all : ∀ transfer ∈ transfers, P transfer.expectedDecimals) :
    ∀ group ∈ transfers.foldl file groups, P group.expectedDecimals := by
  induction transfers generalizing groups with
  | nil => exact before
  | cons transfer rest inductionHypothesis =>
      obtain ⟨own, others⟩ := List.forall_mem_cons.mp all
      exact inductionHypothesis (forall_changeOf before own (fun _ => id) fun _ _ => id) others

theorem decimals_foldl_fileNft (unset : P none) :
    ∀ group ∈ nfts.foldl fileNft groups, P group.expectedDecimals := by
  induction nfts generalizing groups with
  | nil => exact before
  | cons nft rest inductionHypothesis =>
      exact inductionHypothesis (forall_changeOf before unset (fun _ => id) fun _ _ => id)

/-- The decimals of a group are none, or those of one of its transfers. -/
theorem decimals_groupTransfers (unset : P none) (all : ∀ transfer ∈ transfers, P transfer.expectedDecimals) :
    ∀ group ∈ groupTransfers transfers nfts groups, P group.expectedDecimals := by
  induction transfers generalizing nfts groups with
  | nil => exact decimals_foldl_fileNft before unset
  | cons transfer rest outer =>
      obtain ⟨own, others⟩ := List.forall_mem_cons.mp all
      rw [groupTransfers]
      induction nfts generalizing groups with
      | nil => exact decimals_foldl_file before all
      | cons nft nfts inner =>
          rw [groupAt]
          split_ifs with joins joinsNft
          · exact outer (forall_changeLast before joins (fun _ => id) fun _ _ => id) others
          · exact inner (forall_changeLast before joinsNft (fun _ => id) fun _ _ => id)
          · exact outer (decimals_concat before own) others
          · exact outer (decimals_concat before own) others
          · exact inner (decimals_concat before unset)

end

/-- A group with fungible transfers expects the decimals of its token. -/
def Expects (decimals : ℤ ×ₗ ℤ ×ₗ ℤ → Option Nat) (groups : List TransferGroup) : Prop :=
  ∀ group ∈ groups, group.HasTransfers → group.expectedDecimals = decimals group.key

theorem Expects.of_grown {decimals : ℤ ×ₗ ℤ ×ₗ ℤ → Option Nat} {groups later : List TransferGroup}
    (expects : Expects decimals later) (grown : Grown groups later) : Expects decimals groups := by
  intro group member some
  obtain ⟨other, there, grows⟩ := grown group member
  rw [← grows.decimals, expects other there (grows.transfers some), grows.key]

/-- Where one group of a token has fungible transfers, its decimals are those of the token. -/
theorem Once.exists_expects (once : Once groups) : ∃ decimals, Expects decimals groups := by
  classical
  refine ⟨fun k => (groups.find? fun group => group.key = k ∧ group.HasTransfers).bind (·.expectedDecimals), ?_⟩
  intro group member some
  obtain ⟨before, after, rfl⟩ := List.append_of_mem member
  have none : before.find? (fun other => other.key = group.key ∧ other.HasTransfers) = none := by
    refine List.find?_eq_none.mpr fun other early is => ?_
    obtain ⟨same, has⟩ := of_decide_eq_true is
    exact (List.pairwise_append.mp once).2.2 other early group List.mem_cons_self has same some
  show _ = ((before ++ group :: after).find? fun other => other.key = group.key ∧ other.HasTransfers).bind _
  rw [List.find?_append, none, List.find?_cons_of_pos (by simpa using some)]
  rfl

end Walk

/-! ## The same lists again -/

section Again

variable {decimals : ℤ ×ₗ ℤ ×ₗ ℤ → Option Nat} {groups groups' : List TransferGroup}

/-- The same transfers, each with the decimals of its token. -/
def Retold (decimals : ℤ ×ₗ ℤ ×ₗ ℤ → Option Nat) (a b : TokenTransfer) : Prop :=
  TokenTransfer.SameMessage a b ∧ b.expectedDecimals = decimals b.tokenId.key

/-- A group that is opened by a transfer has the decimals of its token. -/
theorem decimals_of_opened {transfer transfer' : TokenTransfer} (retold : Retold decimals transfer transfer')
    {group : TransferGroup} (member : group ∈ groups) (expects : Expects decimals groups)
    (some : group.HasTransfers) (own : group.key = transfer.tokenId.key)
    (opens : group.expectedDecimals = transfer.expectedDecimals) :
    transfer.expectedDecimals = transfer'.expectedDecimals := by
  rw [← opens, expects group member some, own, retold.1.token, retold.2]

theorem SameMessages.file_again (same : SameMessages groups groups') {transfer transfer' : TokenTransfer}
    (retold : Retold decimals transfer transfer') (expects : Expects decimals (TransferGroup.file groups transfer)) :
    SameMessages (TransferGroup.file groups transfer) (TransferGroup.file groups' transfer') := by
  by_cases member : transfer.tokenId.key ∈ groups.map key
  · exact same.file retold.1 (.inl member)
  · have new : TransferGroup.file groups transfer = groups ++ [ofTransfer transfer] := by
      rw [TransferGroup.file, changeOf_none.mpr fun group inGroups isOf => member
        (isOf_iff.mp isOf ▸ List.mem_map_of_mem inGroups)]
      rfl
    rw [new] at expects
    exact same.file retold.1 (.inr (decimals_of_opened retold (List.mem_append_right _ (List.mem_singleton_self _))
      expects (List.cons_ne_nil _ _) rfl rfl))

theorem SameMessages.foldl_file_again {transfers transfers' : List TokenTransfer} (same : SameMessages groups groups')
    (retold : List.Forall₂ (Retold decimals) transfers transfers')
    (expects : Expects decimals (transfers.foldl TransferGroup.file groups)) :
    SameMessages (transfers.foldl TransferGroup.file groups) (transfers'.foldl TransferGroup.file groups') := by
  induction retold generalizing groups groups' with
  | nil => exact same
  | @cons transfer transfer' rest rest' here _ inductionHypothesis =>
      have first := expects.of_grown (grown_foldl_file rest _)
      exact inductionHypothesis (same.file_again here first) expects

/-- The walk over the transfers with the decimals of their lists gives the lists again. -/
theorem SameMessages.groupTransfers_again {transfers transfers' : List TokenTransfer}
    (retold : List.Forall₂ (Retold decimals) transfers transfers') {nfts nfts' : List TokenNftTransfer}
    (sameNfts : List.Forall₂ TokenNftTransfer.SameMessage nfts nfts') (same : SameMessages groups groups')
    (expects : Expects decimals (TransferGroup.groupTransfers transfers nfts groups)) :
    SameMessages (TransferGroup.groupTransfers transfers nfts groups)
      (TransferGroup.groupTransfers transfers' nfts' groups') := by
  induction retold generalizing nfts nfts' groups groups' with
  | nil => exact same.foldl_fileNft sameNfts
  | @cons transfer transfer' rest rest' here later outer =>
      rw [TransferGroup.groupTransfers] at expects ⊢
      rw [TransferGroup.groupTransfers]
      induction sameNfts generalizing groups groups' with
      | nil => exact same.foldl_file_again (.cons here later) expects
      | @cons nft nft' nfts nfts' sameNft sameRest inner =>
          have tokens := here.1.token
          have nftTokens := sameNft.token
          have opened {group : TransferGroup} (more : Expects decimals (groups ++ [group]))
              (some : group.HasTransfers) (own : group.key = transfer.tokenId.key)
              (opens : group.expectedDecimals = transfer.expectedDecimals) :
              transfer.expectedDecimals = transfer'.expectedDecimals :=
            decimals_of_opened here (List.mem_append_right _ (List.mem_singleton_self _)) more some own opens
          rw [groupAt] at expects ⊢
          rw [groupAt, ← same.lastIsOf_eq tokens, ← same.lastIsOf_eq nftTokens]
          simp only [TokenId.compare_eq_zero_iff_key, TokenId.compare_lt_iff, ← tokens, ← nftTokens] at expects ⊢
          split_ifs at expects ⊢ with joins joinsNft equal less
          · exact outer (.cons sameNft sameRest) (same.changeLast fun _ _ group => group.push here.1) expects
          · exact inner (same.changeLast fun _ _ group => group.pushNft sameNft) expects
          · have decimals := opened (expects.of_grown (grown_groupTransfers _ _ _)) (List.cons_ne_nil _ _) rfl rfl
            exact outer sameRest (same.concat (sameMessage_ofBoth here.1 decimals sameNft)) expects
          · have decimals := opened (expects.of_grown (grown_groupTransfers _ _ _)) (List.cons_ne_nil _ _) rfl rfl
            exact outer (.cons sameNft sameRest) (same.concat (sameMessage_ofTransfer here.1 decimals)) expects
          · exact inner (same.concat (sameMessage_ofNft sameNft)) expects

end Again

end TransferGroup

end HederaSdk
