import HederaSdk.Token.Grouping

/-!
# What the walk looks at

Of a transfer the walk only looks at the token, and of the expected decimals only at those
of the first transfer of a token: transfers that have the same messages and these decimals
give lists with the same messages. When the transfers of a token all expect the same, so
does their list.
-/

namespace HederaSdk

open Library

/-- The transfers stand for the same message under the same token. -/
structure TokenTransfer.SameMessage (a b : TokenTransfer) : Prop where
  token : a.tokenId.key = b.tokenId.key
  message : a.toProtobuf = b.toProtobuf

structure TokenNftTransfer.SameMessage (a b : TokenNftTransfer) : Prop where
  token : a.tokenId.key = b.tokenId.key
  message : a.toProtobuf = b.toProtobuf

namespace TransferGroup

/-- The same messages one by one, and the same decimals wherever the token is another than
that of the transfer before it. -/
inductive Alike : Option (ℤ ×ₗ ℤ ×ₗ ℤ) → List TokenTransfer → List TokenTransfer → Prop
  | nil {before} : Alike before [] []
  | cons {before a b rest rest'} (same : TokenTransfer.SameMessage a b)
      (decimals : before = some a.tokenId.key ∨ a.expectedDecimals = b.expectedDecimals)
      (later : Alike (some a.tokenId.key) rest rest') : Alike before (a :: rest) (b :: rest')

theorem alike_of_forall₂ {first second : List TokenTransfer}
    (same : List.Forall₂ (fun a b => TokenTransfer.SameMessage a b ∧
      a.expectedDecimals = b.expectedDecimals) first second) (before : Option (ℤ ×ₗ ℤ ×ₗ ℤ)) :
    Alike before first second := by
  induction same generalizing before with
  | nil => exact .nil
  | cons here _ inductionHypothesis => exact .cons here.1 (.inr here.2) (inductionHypothesis _)

def SameMessage (a b : TransferGroup) : Prop := a.toProtobuf = b.toProtobuf

def SameMessages : List TransferGroup → List TransferGroup → Prop := List.Forall₂ SameMessage

section Same

variable {a b : TransferGroup} {groups groups' : List TransferGroup} {id id' : TokenId}
variable {f f' : TransferGroup → TransferGroup}

theorem SameMessage.key_eq (same : SameMessage a b) : a.key = b.key :=
  TokenId.onWire_eq_iff.mp (congrArg TokenTransferList.token same)

theorem SameMessages.map_key_eq (same : SameMessages groups groups') : groups.map key = groups'.map key := by
  induction same with
  | nil => rfl
  | cons here _ inductionHypothesis => rw [List.map_cons, List.map_cons, here.key_eq, inductionHypothesis]

theorem SameMessages.lastIsOf_eq (same : SameMessages groups groups') (token : id.key = id'.key) :
    lastIsOf id groups = lastIsOf id' groups' := by
  rw [Bool.eq_iff_iff, lastIsOf_iff, lastIsOf_iff, same.map_key_eq, token]

theorem SameMessage.push (same : SameMessage a b) {transfer transfer' : TokenTransfer}
    (sameTransfer : TokenTransfer.SameMessage transfer transfer') :
    SameMessage (a.push transfer) (b.push transfer') := by
  injection same with token decimals transfers nfts
  simp only [SameMessage, toProtobuf, TransferGroup.push, List.map_append, List.map_singleton, token,
    decimals, transfers, nfts, sameTransfer.message]

theorem SameMessage.pushNft (same : SameMessage a b) {nft nft' : TokenNftTransfer}
    (sameNft : TokenNftTransfer.SameMessage nft nft') : SameMessage (a.pushNft nft) (b.pushNft nft') := by
  injection same with token decimals transfers nfts
  simp only [SameMessage, toProtobuf, TransferGroup.pushNft, List.map_append, List.map_singleton, token,
    decimals, transfers, nfts, sameNft.message]

theorem sameMessage_ofTransfer {transfer transfer' : TokenTransfer}
    (same : TokenTransfer.SameMessage transfer transfer')
    (decimals : transfer.expectedDecimals = transfer'.expectedDecimals) :
    SameMessage (ofTransfer transfer) (ofTransfer transfer') := by
  simp only [SameMessage, toProtobuf, ofTransfer, List.map_singleton, List.map_nil,
    TokenId.onWire_eq_iff.mpr same.token, decimals, same.message]

theorem sameMessage_ofNft {nft nft' : TokenNftTransfer} (same : TokenNftTransfer.SameMessage nft nft') :
    SameMessage (ofNft nft) (ofNft nft') := by
  simp only [SameMessage, toProtobuf, ofNft, List.map_singleton, List.map_nil,
    TokenId.onWire_eq_iff.mpr same.token, same.message]

theorem sameMessage_ofBoth {transfer transfer' : TokenTransfer} {nft nft' : TokenNftTransfer}
    (same : TokenTransfer.SameMessage transfer transfer')
    (decimals : transfer.expectedDecimals = transfer'.expectedDecimals)
    (sameNft : TokenNftTransfer.SameMessage nft nft') :
    SameMessage (ofBoth transfer nft) (ofBoth transfer' nft') := by
  simp only [SameMessage, toProtobuf, ofBoth, List.map_singleton,
    TokenId.onWire_eq_iff.mpr same.token, decimals, same.message, sameNft.message]

theorem SameMessages.concat (same : SameMessages groups groups') (last : SameMessage a b) :
    SameMessages (groups ++ [a]) (groups' ++ [b]) := List.rel_append same (.cons last .nil)

theorem SameMessages.changeLast (same : SameMessages groups groups')
    (changes : ∀ a b, SameMessage a b → SameMessage (f a) (f' b)) :
    SameMessages (changeLast f groups) (changeLast f' groups') := by
  induction same with
  | nil => exact .nil
  | cons here later inductionHypothesis =>
      cases later with
      | nil => exact .cons (changes _ _ here) .nil
      | cons second rest => exact .cons here inductionHypothesis

theorem SameMessages.changeOf (same : SameMessages groups groups') (token : id.key = id'.key)
    (changes : ∀ a b, SameMessage a b → SameMessage (f a) (f' b)) :
    (changeOf id f groups = none ∧ changeOf id' f' groups' = none) ∨
      ∃ changed changed', changeOf id f groups = some changed ∧ changeOf id' f' groups' = some changed' ∧
        SameMessages changed changed' := by
  induction same with
  | nil => exact .inl ⟨rfl, rfl⟩
  | @cons a b rest rest' here later inductionHypothesis =>
      rcases inductionHypothesis with ⟨none, none'⟩ | ⟨changed, changed', some, some', sameRest⟩
      · have isOf : a.isOf id = b.isOf id' := by
          rw [Bool.eq_iff_iff, isOf_iff, isOf_iff, here.key_eq, token]
        simp only [TransferGroup.changeOf, none, none', isOf]
        cases b.isOf id' with
        | false => exact .inl ⟨rfl, rfl⟩
        | true => exact .inr ⟨_, _, rfl, rfl, .cons (changes a b here) later⟩
      · simp only [TransferGroup.changeOf, some, some']
        exact .inr ⟨_, _, rfl, rfl, .cons here sameRest⟩

theorem SameMessages.fileNft (same : SameMessages groups groups') {nft nft' : TokenNftTransfer}
    (sameNft : TokenNftTransfer.SameMessage nft nft') :
    SameMessages (fileNft groups nft) (fileNft groups' nft') := by
  rw [TransferGroup.fileNft, TransferGroup.fileNft]
  rcases same.changeOf sameNft.token fun _ _ here => here.pushNft sameNft with
    ⟨none, none'⟩ | ⟨changed, changed', some, some', sameChanged⟩
  · rw [none, none']
    exact same.concat (sameMessage_ofNft sameNft)
  · rw [some, some']
    exact sameChanged

theorem SameMessages.file (same : SameMessages groups groups') {transfer transfer' : TokenTransfer}
    (sameTransfer : TokenTransfer.SameMessage transfer transfer')
    (decimals : transfer.tokenId.key ∈ groups.map key ∨
      transfer.expectedDecimals = transfer'.expectedDecimals) :
    SameMessages (file groups transfer) (file groups' transfer') := by
  rw [TransferGroup.file, TransferGroup.file]
  rcases same.changeOf sameTransfer.token fun _ _ here => here.push sameTransfer with
    ⟨none, none'⟩ | ⟨changed, changed', some, some', sameChanged⟩
  · rw [none, none']
    rcases decimals with member | decimals
    · obtain ⟨group, isOld, ofToken⟩ := List.mem_map.mp member
      exact absurd (isOf_iff.mpr ofToken) (changeOf_none.mp none group isOld)
    · exact same.concat (sameMessage_ofTransfer sameTransfer decimals)
  · rw [some, some']
    exact sameChanged

theorem SameMessages.foldl_fileNft (same : SameMessages groups groups')
    {nfts nfts' : List TokenNftTransfer}
    (sameNfts : List.Forall₂ TokenNftTransfer.SameMessage nfts nfts') :
    SameMessages (nfts.foldl TransferGroup.fileNft groups) (nfts'.foldl TransferGroup.fileNft groups') := by
  induction sameNfts generalizing groups groups' with
  | nil => exact same
  | cons here _ inductionHypothesis => exact inductionHypothesis (same.fileNft here)

theorem SameMessages.foldl_file (same : SameMessages groups groups')
    {before : Option (ℤ ×ₗ ℤ ×ₗ ℤ)} {transfers transfers' : List TokenTransfer}
    (alike : Alike before transfers transfers') (opened : ∀ k, before = some k → k ∈ groups.map key) :
    SameMessages (transfers.foldl TransferGroup.file groups)
      (transfers'.foldl TransferGroup.file groups') := by
  induction alike generalizing groups groups' with
  | nil => exact same
  | cons here decimals _ inductionHypothesis =>
      apply inductionHypothesis
      · exact same.file here (decimals.imp_left fun before => opened _ before)
      · rintro k ⟨⟩
        rw [map_key_file, mem_addKey]
        exact .inr rfl

/-- The walk gives the same messages. -/
theorem SameMessages.groupTransfers {before : Option (ℤ ×ₗ ℤ ×ₗ ℤ)}
    {transfers transfers' : List TokenTransfer} (alike : Alike before transfers transfers')
    {nfts nfts' : List TokenNftTransfer}
    (sameNfts : List.Forall₂ TokenNftTransfer.SameMessage nfts nfts')
    (same : SameMessages groups groups')
    (opened : ∀ k, before = some k → (groups.map key).getLast? = some k) :
    SameMessages (groupTransfers transfers nfts groups) (groupTransfers transfers' nfts' groups') := by
  induction alike generalizing nfts nfts' groups groups' with
  | nil => exact same.foldl_fileNft sameNfts
  | @cons before transfer transfer' rest rest' here decimals later outer =>
      rw [TransferGroup.groupTransfers, TransferGroup.groupTransfers]
      -- once an NFT transfer was taken, the token is another than before
      have leads : lastIsOf transfer.tokenId groups = true ∨
          transfer.expectedDecimals = transfer'.expectedDecimals :=
        decimals.imp_left fun before => lastIsOf_iff.mpr (opened _ before)
      clear decimals opened
      induction sameNfts generalizing groups groups' with
      | nil =>
          rw [groupAt, groupAt]
          rcases leads with last | decimals
          · have begun : Alike (some transfer.tokenId.key) (transfer :: rest) (transfer' :: rest') :=
              .cons here (.inl rfl) later
            apply same.foldl_file begun
            rintro k ⟨⟩
            exact List.mem_of_getLast? (lastIsOf_iff.mp last)
          · have begun : Alike none (transfer :: rest) (transfer' :: rest') :=
              .cons here (.inr decimals) later
            apply same.foldl_file begun
            rintro k ⟨⟩
      | @cons nft nft' nfts nfts' sameNft sameRest inner =>
          have tokens := here.token
          have nftTokens := sameNft.token
          rw [groupAt, groupAt, ← same.lastIsOf_eq tokens, ← same.lastIsOf_eq nftTokens]
          simp only [TokenId.compare_eq_zero_iff_key, TokenId.compare_lt_iff, ← tokens, ← nftTokens]
          have opens {groups : List TransferGroup} {group : TransferGroup}
              (ofToken : group.key = transfer.tokenId.key) (k : ℤ ×ₗ ℤ ×ₗ ℤ)
              (own : some transfer.tokenId.key = some k) :
              ((groups ++ [group]).map key).getLast? = some k := by
            rw [List.map_append, List.map_singleton, List.getLast?_concat, ofToken, own]
          split_ifs with joins joinsNft equal less
          · apply outer (.cons sameNft sameRest)
            · exact same.changeLast fun _ _ group => group.push here
            · rintro k ⟨⟩
              rw [map_key_changeLast (key_push transfer)]
              exact lastIsOf_iff.mp joins
          · apply inner
            · exact same.changeLast fun _ _ group => group.pushNft sameNft
            · exact .inr (leads.resolve_left joins)
          · apply outer sameRest
            · exact same.concat (sameMessage_ofBoth here (leads.resolve_left joins) sameNft)
            · exact opens rfl
          · apply outer (.cons sameNft sameRest)
            · exact same.concat (sameMessage_ofTransfer here (leads.resolve_left joins))
            · exact opens rfl
          · apply inner
            · exact same.concat (sameMessage_ofNft sameNft)
            · exact .inr (leads.resolve_left joins)

end Same

/-! ## The decimals of a list -/

section Decimals

variable {decimals : ℤ ×ₗ ℤ ×ₗ ℤ → Option Nat} {id : TokenId} {group : TransferGroup}
variable {groups : List TransferGroup} {f : TransferGroup → TransferGroup} {P Q : TransferGroup → Prop}

theorem forall_changeLast (all : ∀ group ∈ groups, P group) (last : lastIsOf id groups = true)
    (keeps : ∀ group, P group → Q group)
    (changes : ∀ group, group.isOf id = true → P group → Q (f group)) :
    ∀ group ∈ changeLast f groups, Q group := by
  obtain ⟨before, old, rfl, isOf, changed⟩ := changeLast_of_lastIsOf f last
  rw [changed]
  rw [List.forall_mem_append, List.forall_mem_singleton] at all ⊢
  exact ⟨fun group member => keeps group (all.1 group member), changes old isOf all.2⟩

theorem forall_changeOf (all : ∀ group ∈ groups, P group) (fresh : Q group)
    (keeps : ∀ group, P group → Q group)
    (changes : ∀ group, group.isOf id = true → P group → Q (f group)) :
    ∀ other ∈ (changeOf id f groups).getD (groups ++ [group]), Q other := by
  cases change : changeOf id f groups with
  | none =>
      rw [Option.getD_none, List.forall_mem_append, List.forall_mem_singleton]
      exact ⟨fun group member => keeps group (all group member), fresh⟩
  | some changed =>
      obtain ⟨before, old, after, rfl, isOf, rfl⟩ := changeOf_some change
      rw [List.forall_mem_append, List.forall_mem_cons] at all
      rw [Option.getD_some, List.forall_mem_append, List.forall_mem_cons]
      exact ⟨fun group member => keeps group (all.1 group member), changes old isOf all.2.1,
        fun group member => keeps group (all.2.2 group member)⟩

/-- A list with fungible transfers has the decimals of its token. One without has none, and
the transfers that are left are of larger tokens. -/
structure Settled (decimals : ℤ ×ₗ ℤ ×ₗ ℤ → Option Nat) (rest : List TokenTransfer)
    (group : TransferGroup) : Prop where
  fungible : group.transfers ≠ [] → group.expectedDecimals = decimals group.key
  bare : group.transfers = [] →
    group.expectedDecimals = none ∧ ∀ transfer ∈ rest, group.key < transfer.tokenId.key

variable {transfer : TokenTransfer} {rest : List TokenTransfer}

theorem Settled.later (settled : Settled decimals (transfer :: rest) group) :
    Settled decimals rest group where
  fungible := settled.fungible
  bare none := by
    obtain ⟨unset, larger⟩ := settled.bare none
    exact ⟨unset, fun other inRest => larger other (List.mem_cons_of_mem _ inRest)⟩

theorem Settled.push (settled : Settled decimals (transfer :: rest) group)
    (isOf : group.isOf transfer.tokenId = true) : Settled decimals rest (group.push transfer) where
  fungible _ := by
    apply settled.fungible
    intro none
    have larger := (settled.bare none).2 transfer List.mem_cons_self
    rw [isOf_iff.mp isOf] at larger
    exact lt_irrefl _ larger
  bare none := absurd none (List.append_ne_nil_of_right_ne_nil _ (List.cons_ne_nil _ _))

theorem Settled.pushNft (settled : Settled decimals rest group) (nft : TokenNftTransfer) :
    Settled decimals rest (group.pushNft nft) := ⟨settled.fungible, settled.bare⟩

theorem settled_ofTransfer (expected : transfer.expectedDecimals = decimals transfer.tokenId.key) :
    Settled decimals rest (ofTransfer transfer) where
  fungible _ := expected
  bare none := absurd none (List.cons_ne_nil _ _)

theorem settled_ofBoth (expected : transfer.expectedDecimals = decimals transfer.tokenId.key)
    (nft : TokenNftTransfer) : Settled decimals rest (ofBoth transfer nft) where
  fungible _ := expected
  bare none := absurd none (List.cons_ne_nil _ _)

theorem settled_ofNft {nft : TokenNftTransfer}
    (larger : ∀ transfer ∈ rest, nft.tokenId.key < transfer.tokenId.key) :
    Settled decimals rest (ofNft nft) where
  fungible some := absurd rfl some
  bare _ := ⟨rfl, larger⟩

theorem forall_settled_concat (all : ∀ group ∈ groups, Settled decimals rest group)
    (fresh : Settled decimals rest group) : ∀ other ∈ groups ++ [group], Settled decimals rest other :=
  List.forall_mem_append.mpr ⟨all, List.forall_mem_singleton.mpr fresh⟩

theorem settled_foldl_file {transfers : List TokenTransfer}
    (expected : ∀ transfer ∈ transfers, transfer.expectedDecimals = decimals transfer.tokenId.key)
    (all : ∀ group ∈ groups, Settled decimals transfers group) :
    ∀ group ∈ transfers.foldl file groups, Settled decimals [] group := by
  induction transfers generalizing groups with
  | nil => exact all
  | cons transfer rest inductionHypothesis =>
      obtain ⟨own, others⟩ := List.forall_mem_cons.mp expected
      apply inductionHypothesis others
      refine forall_changeOf all (settled_ofTransfer own) (fun _ settled => settled.later) ?_
      exact fun _ isOf settled => settled.push isOf

theorem settled_foldl_fileNft (nfts : List TokenNftTransfer)
    (all : ∀ group ∈ groups, Settled decimals [] group) :
    ∀ group ∈ nfts.foldl fileNft groups, Settled decimals [] group := by
  induction nfts generalizing groups with
  | nil => exact all
  | cons nft rest inductionHypothesis =>
      apply inductionHypothesis
      refine forall_changeOf all ?_ (fun _ settled => settled) fun _ _ settled => settled.pushNft nft
      apply settled_ofNft
      exact fun _ member => absurd member List.not_mem_nil

/-- When the transfers of a token expect the same, so does every list of it that holds some. -/
theorem settled_groupTransfers {transfers : List TokenTransfer} (nfts : List TokenNftTransfer)
    (sorted : transfers.Pairwise fun a b => a.tokenId.key ≤ b.tokenId.key)
    (expected : ∀ transfer ∈ transfers, transfer.expectedDecimals = decimals transfer.tokenId.key)
    (all : ∀ group ∈ groups, Settled decimals transfers group) :
    ∀ group ∈ groupTransfers transfers nfts groups, Settled decimals [] group := by
  induction transfers generalizing nfts groups with
  | nil => exact settled_foldl_fileNft nfts all
  | cons transfer rest outer =>
      obtain ⟨own, others⟩ := List.forall_mem_cons.mp expected
      obtain ⟨first, sorted⟩ := List.pairwise_cons.mp sorted
      have next {groups : List TransferGroup} (nfts : List TokenNftTransfer)
          (all : ∀ group ∈ groups, Settled decimals rest group) :
          ∀ group ∈ groupTransfers rest nfts groups, Settled decimals [] group :=
        outer nfts sorted others all
      rw [groupTransfers]
      induction nfts generalizing groups with
      | nil => exact settled_foldl_file expected all
      | cons nft nfts inner =>
          have kept : ∀ group ∈ groups, Settled decimals rest group :=
            fun group member => (all group member).later
          rw [groupAt]
          split_ifs with joins joinsNft same less
          · apply next
            refine forall_changeLast all joins (fun _ settled => settled.later) ?_
            exact fun _ isOf settled => settled.push isOf
          · apply inner
            refine forall_changeLast all joinsNft (fun _ settled => settled) ?_
            exact fun _ _ settled => settled.pushNft nft
          · exact next _ (forall_settled_concat kept (settled_ofBoth own nft))
          · exact next _ (forall_settled_concat kept (settled_ofTransfer own))
          · apply inner
            apply forall_settled_concat all
            apply settled_ofNft
            have smaller : nft.tokenId.key < transfer.tokenId.key := by
              rw [TokenId.compare_eq_zero_iff_key] at same
              rw [TokenId.compare_lt_iff] at less
              exact lt_of_le_of_ne (not_lt.mp less) (Ne.symm same)
            exact List.forall_mem_cons.mpr ⟨smaller, fun other inRest => smaller.trans_le (first other inRest)⟩

end Decimals

end TransferGroup

end HederaSdk
