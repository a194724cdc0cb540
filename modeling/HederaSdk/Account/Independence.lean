import HederaSdk.Account.TransferOrder
import HederaSdk.Library.Posting
import HederaSdk.Token.Walk

/-!
# The order of the calls

Plain transfers are entered under their token and account, and what stands there when all are
entered does not depend on their order. Nor does the body, as long as sorting puts the entries in
an order of its own: accounts that are compared are of one kind, those that are merged have one
message, and no two NFTs agree in sender, receiver and serial number.
-/

namespace HederaSdk

open Library

theorem toInt64_toInt64_add (a b : Int) : toInt64 (toInt64 a + b) = toInt64 (a + b) :=
  Int.bmod_add_bmod

theorem addLong_comm (a b : Int) : addLong a b = addLong b a := by
  rw [addLong, addLong, Int.add_comm]

theorem addLong_right_comm (a b c : Int) : addLong (addLong a b) c = addLong (addLong a c) b := by
  rw [addLong, addLong, addLong, addLong, toInt64_toInt64_add, toInt64_toInt64_add, Int.add_right_comm]

theorem toInt64_addLong (a b : Int) : toInt64 (addLong a b) = addLong a b := by
  simpa [addLong] using toInt64_toInt64_add (a + b) 0

namespace AccountId

/-- Sorting tells the accounts apart, and merging them loses nothing of their messages. -/
structure MergesWith (id other : AccountId) : Prop where
  comparable : id.Comparable other
  message : id.compare other = 0 → id.onWire = other.onWire

instance MergesWith.decidable (id other : AccountId) : Decidable (id.MergesWith other) :=
  decidable_of_iff (id.Comparable other ∧ (id.compare other = 0 → id.onWire = other.onWire))
    ⟨fun h => ⟨h.1, h.2⟩, fun h => ⟨h.1, h.2⟩⟩

theorem compare_eq_zero_of_onWire {id other : AccountId} (same : id.onWire = other.onWire) :
    id.compare other = 0 := by
  rw [compare_eq_zero]
  obtain ⟨shard, realm, num, aliasKey, evmAddress, checksum⟩ := id
  obtain ⟨shard', realm', num', aliasKey', evmAddress', checksum'⟩ := other
  cases aliasKey <;> cases aliasKey' <;> cases evmAddress <;> cases evmAddress' <;>
    simp_all [onWire, equals, PublicKey.equals_iff]

theorem MergesWith.compare_iff {id other : AccountId} (merges : id.MergesWith other) :
    id.compare other = 0 ↔ id.onWire = other.onWire :=
  ⟨merges.message, compare_eq_zero_of_onWire⟩

end AccountId

/-! ## Posts -/

structure TokenPost where
  token : TokenId
  account : AccountId
  value : Int

structure HbarPost where
  account : AccountId
  hbars : Int

structure NftPost where
  nftId : NftId
  sender : AccountId
  receiver : AccountId

/-- The two posts are of different NFTs. -/
def NftPost.Differs (p q : NftPost) : Prop :=
  p.nftId.tokenId.key = q.nftId.tokenId.key → p.nftId.serial ≠ q.nftId.serial

/-- Sorting tells two NFT transfers apart. -/
structure NftPost.Apart (p q : NftPost) : Prop where
  senders : p.sender.Comparable q.sender
  receivers : p.sender.compare q.sender = 0 → p.receiver.Comparable q.receiver
  serials : p.sender.compare q.sender = 0 → p.receiver.compare q.receiver = 0 →
    p.nftId.serial ≠ q.nftId.serial

instance NftPost.decidableApart (p q : NftPost) : Decidable (NftPost.Apart p q) :=
  decidable_of_iff (p.sender.Comparable q.sender ∧
      (p.sender.compare q.sender = 0 → p.receiver.Comparable q.receiver) ∧
      (p.sender.compare q.sender = 0 → p.receiver.compare q.receiver = 0 →
        p.nftId.serial ≠ q.nftId.serial))
    ⟨fun h => ⟨h.1, h.2.1, h.2.2⟩, fun h => ⟨h.1, h.2, h.3⟩⟩

instance NftPost.decidableDiffers (p q : NftPost) : Decidable (NftPost.Differs p q) :=
  inferInstanceAs (Decidable (_ → _))

namespace TransferTransaction

/-- A call without approval or decimals. -/
def Call.IsPlain : Call → Prop
  | .token (.addTokenTransfer _ _ _) => True
  | .token (.addNftTransfer _ _ _) => True
  | .addHbarTransfer _ _ => True
  | _ => False

def Call.tokenPost : Call → Option TokenPost
  | .token (.addTokenTransfer id account value) => some ⟨id, account, value⟩
  | _ => none

def Call.hbarPost : Call → Option HbarPost
  | .addHbarTransfer account hbars => some ⟨account, hbars⟩
  | _ => none

def Call.nftPost : Call → Option NftPost
  | .token (.addNftTransfer nftId sender receiver) => some ⟨nftId, sender, receiver⟩
  | _ => none

def tokenPosts (calls : List Call) : List TokenPost := calls.filterMap Call.tokenPost
def hbarPosts (calls : List Call) : List HbarPost := calls.filterMap Call.hbarPost
def nftPosts (calls : List Call) : List NftPost := calls.filterMap Call.nftPost

end TransferTransaction

/-- Tokens under token and account. -/
def tokenPosting (posts : List TokenPost)
    (merge : ∀ p ∈ posts, ∀ q ∈ posts, p.token.key = q.token.key → p.account.MergesWith q.account) :
    Posting TokenTransfer TokenPost ((ℤ ×ₗ ℤ ×ₗ ℤ) × AccountId) Int where
  wanted post := TokenTransfer.isFor post.token post.account
  change post entry := { entry with amount := addLong entry.amount post.value, expectedDecimals := none }
  fresh post :=
    { tokenId := post.token
      accountId := post.account
      expectedDecimals := none
      amount := post.value
      isApproved := false }
  key entry := (entry.tokenId.key, entry.accountId.onWire)
  value := TokenTransfer.amount
  target post := (post.token.key, post.account.onWire)
  first := TokenPost.value
  more post amount := addLong amount post.value
  Entry entry := entry.expectedDecimals = none ∧ entry.isApproved = false ∧
    ∃ post ∈ posts, entry.tokenId.key = post.token.key ∧ entry.accountId = post.account
  Post post := post ∈ posts
  entry_fresh post present := ⟨rfl, rfl, post, present, rfl, rfl⟩
  entry_change _ _ _ entry := ⟨rfl, entry.2⟩
  wanted_iff := by
    rintro post entry present ⟨-, -, other, present', tokens, account⟩
    rw [TokenTransfer.isFor, Bool.and_eq_true, beq_iff_eq, beq_iff_eq, TokenId.compare_eq_zero_iff_key,
      Prod.mk_inj]
    refine and_congr_right fun sameToken => ?_
    rw [account]
    exact (merge other present' post present (tokens.symm.trans sameToken)).compare_iff
  key_fresh _ := rfl
  key_change _ _ := rfl
  value_fresh _ := rfl
  value_change _ _ := rfl
  exchange_first post other := addLong_comm post.value other.value
  exchange_more post other amount := addLong_right_comm amount post.value other.value

/-- Hbars under the account. -/
def hbarPosting (posts : List HbarPost)
    (merge : ∀ p ∈ posts, ∀ q ∈ posts, p.account.MergesWith q.account) :
    Posting Transfer HbarPost AccountId Int where
  wanted post := Transfer.isFor post.account
  change post entry := { entry with amount := addLong entry.tinybars (toInt64 post.hbars) }
  fresh post := { accountId := post.account, amount := post.hbars, isApproved := false }
  key entry := entry.accountId.onWire
  value := Transfer.tinybars
  target post := post.account.onWire
  first post := toInt64 post.hbars
  more post tinybars := addLong tinybars (toInt64 post.hbars)
  Entry entry := entry.isApproved = false ∧ ∃ post ∈ posts, entry.accountId = post.account
  Post post := post ∈ posts
  entry_fresh post present := ⟨rfl, post, present, rfl⟩
  entry_change _ _ _ entry := entry
  wanted_iff := by
    rintro post entry present ⟨-, other, present', account⟩
    rw [Transfer.isFor, beq_iff_eq, account]
    exact (merge other present' post present).compare_iff
  key_fresh _ := rfl
  key_change _ _ := rfl
  value_fresh _ := rfl
  value_change _ _ := toInt64_addLong _ _
  exchange_first _ _ := addLong_comm _ _
  exchange_more _ _ _ := addLong_right_comm _ _ _

namespace TransferTransaction

/-! ## What the calls enter -/

def enterToken (entries : List TokenTransfer) (post : TokenPost) : List TokenTransfer :=
  upsert (TokenTransfer.isFor post.token post.account)
    (fun entry => { entry with amount := addLong entry.amount post.value, expectedDecimals := none })
    { tokenId := post.token
      accountId := post.account
      expectedDecimals := none
      amount := post.value
      isApproved := false } entries

def enterHbar (entries : List Transfer) (post : HbarPost) : List Transfer :=
  upsert (Transfer.isFor post.account)
    (fun entry => { entry with amount := addLong entry.tinybars (toInt64 post.hbars) })
    { accountId := post.account, amount := post.hbars, isApproved := false } entries

/-- The entry of an NFT that has none. -/
def nftEntry (post : NftPost) : TokenNftTransfer where
  tokenId := post.nftId.tokenId
  senderAccountId := post.sender
  receiverAccountId := post.receiver
  serialNumber := post.nftId.serial
  isApproved := false

def enterNft (entries : List TokenNftTransfer) (post : NftPost) : List TokenNftTransfer :=
  upsert (TokenNftTransfer.isFor post.nftId)
    (fun entry => { entry with senderAccountId := post.sender, receiverAccountId := post.receiver })
    (nftEntry post) entries

section Runs

variable {tx : TransferTransaction} {calls : List Call}

/-- Each plain call makes one post. -/
structure StepsBy (tx : TransferTransaction) (calls : List Call) (after : TransferTransaction) : Prop where
  transaction : after.transaction = tx.transaction
  tokens : after.tokenTransfers = (tokenPosts calls).foldl enterToken tx.tokenTransfers
  hbars : after.hbarTransfers = (hbarPosts calls).foldl enterHbar tx.hbarTransfers
  nfts : after.nftTransfers = (nftPosts calls).foldl enterNft tx.nftTransfers

theorem stepsBy_step (unfrozen : tx.transaction.isFrozenOrOnDemand = false) {call : Call}
    (plain : call.IsPlain) : StepsBy tx [call] (tx.step call) := by
  cases call with
  | token call =>
      cases call with
      | addTokenTransfer id account value =>
          have ran := AbstractTokenTransferTransaction.run_mergeTokenTransfer unfrozen id account value false none
          rw [step, Call.method, ofSuper, Method.run_zoom, AbstractTokenTransferTransaction.Call.method,
            AbstractTokenTransferTransaction.addTokenTransfer, ran]
          exact ⟨rfl, rfl, rfl, rfl⟩
      | addNftTransfer nftId sender receiver =>
          have ran := AbstractTokenTransferTransaction.run_mergeNftTransfer unfrozen false nftId sender receiver
          rw [step, Call.method, ofSuper, Method.run_zoom, AbstractTokenTransferTransaction.Call.method,
            AbstractTokenTransferTransaction.addNftTransfer, ran]
          exact ⟨rfl, rfl, rfl, rfl⟩
      | _ => exact plain.elim
  | addHbarTransfer account hbars =>
      have ran := run_mergeHbarTransfer unfrozen account hbars false
      rw [step, Call.method, addHbarTransfer, ran]
      exact ⟨rfl, rfl, rfl, rfl⟩
  | addApprovedHbarTransfer account hbars => exact plain.elim

theorem stepsBy_runAll (unfrozen : tx.transaction.isFrozenOrOnDemand = false)
    (plain : ∀ call ∈ calls, call.IsPlain) : StepsBy tx calls (runAll step tx calls) := by
  induction calls generalizing tx with
  | nil => exact ⟨rfl, rfl, rfl, rfl⟩
  | cons call rest inductionHypothesis =>
      obtain ⟨here, others⟩ := List.forall_mem_cons.mp plain
      have one := stepsBy_step unfrozen here
      have more := inductionHypothesis (one.transaction ▸ unfrozen) others
      have split {β : Type} (f : Call → Option β) :
          (call :: rest).filterMap f = [call].filterMap f ++ rest.filterMap f := by
        rw [← List.filterMap_append, List.singleton_append]
      rw [runAll_cons]
      constructor
      · exact more.transaction.trans one.transaction
      · rw [more.tokens, one.tokens, tokenPosts, tokenPosts, tokenPosts, split, List.foldl_append]
      · rw [more.hbars, one.hbars, hbarPosts, hbarPosts, hbarPosts, split, List.foldl_append]
      · rw [more.nfts, one.nfts, nftPosts, nftPosts, nftPosts, split, List.foldl_append]

end Runs

/-! ## When the order does not matter -/

/-- What is compared is told apart, and what is merged has one message. -/
structure Independent (calls : List Call) : Prop where
  tokens : ∀ p ∈ tokenPosts calls, ∀ q ∈ tokenPosts calls, p.token.key = q.token.key →
    p.account.MergesWith q.account
  hbars : ∀ p ∈ hbarPosts calls, ∀ q ∈ hbarPosts calls, p.account.MergesWith q.account
  nfts : (nftPosts calls).Pairwise fun p q => NftPost.Apart p q ∧ NftPost.Apart q p

section Bodies

variable {calls calls' : List Call}

/-- NFTs that differ are entered one behind the other. -/
theorem foldl_enterNft {posts : List NftPost} (differ : posts.Pairwise NftPost.Differs) :
    posts.foldl enterNft [] = posts.map nftEntry := by
  induction posts using List.reverseRecOn with
  | nil => rfl
  | append_singleton posts post inductionHypothesis =>
      obtain ⟨before, -, differs⟩ := List.pairwise_append.mp differ
      have new : (posts.map nftEntry).find? (TokenNftTransfer.isFor post.nftId) = none := by
        refine List.find?_eq_none.mpr (List.forall_mem_map.mpr fun other member isFor => ?_)
        rw [TokenNftTransfer.isFor, Bool.and_eq_true, beq_iff_eq, beq_iff_eq,
          TokenId.compare_eq_zero_iff_key, compareLong_eq_zero] at isFor
        exact differs other member post (List.mem_singleton_self _) isFor.1 isFor.2
      rw [List.foldl_append, inductionHypothesis before, List.foldl_cons, List.foldl_nil, enterNft,
        upsert_of_none new, List.map_append, List.map_singleton]

theorem tokens_sorted (perm : calls.Perm calls')
    (merge : ∀ p ∈ tokenPosts calls, ∀ q ∈ tokenPosts calls, p.token.key = q.token.key →
      p.account.MergesWith q.account) :
    TransferGroup.Alike none
      (Js.sort TokenTransfer.compare ((tokenPosts calls).foldl enterToken []))
      (Js.sort TokenTransfer.compare ((tokenPosts calls').foldl enterToken [])) := by
  have posts : (tokenPosts calls).Perm (tokenPosts calls') := perm.filterMap _
  let posting := tokenPosting (tokenPosts calls) merge
  have none : ∀ e ∈ ([] : List TokenTransfer), posting.Entry e := fun _ member => absurd member List.not_mem_nil
  have one : posting.Posted [] (tokenPosts calls) ((tokenPosts calls).foldl enterToken []) :=
    Posting.posted_postAll none List.nodup_nil fun _ => id
  have other : posting.Posted [] (tokenPosts calls') ((tokenPosts calls').foldl enterToken []) :=
    Posting.posted_postAll none List.nodup_nil fun _ member => posts.mem_iff.mpr member
  have same : (((tokenPosts calls).foldl enterToken []).map fun e => (posting.key e, posting.value e)).Perm
      (((tokenPosts calls').foldl enterToken []).map fun e => (posting.key e, posting.value e)) :=
    Posting.perm_postAll (fun _ => id) posts
  generalize (tokenPosts calls).foldl enterToken [] = entries at one same ⊢
  generalize (tokenPosts calls').foldl enterToken [] = others at other same ⊢
  let look (e : TokenTransfer) := ((e.tokenId.key, e.toProtobuf), e.expectedDecimals)
  let shows (p : ((ℤ ×ₗ ℤ ×ₗ ℤ) × AccountId) × Int) :=
    (toLex (p.1.1, p.1.2.place), ((p.1.1, (⟨p.1.2, p.2, false⟩ : AccountAmount)), (Option.none : Option Nat)))
  have shown {list : List TokenTransfer} (all : ∀ e ∈ list, posting.Entry e) :
      (list.map fun e => (posting.key e, posting.value e)).map shows =
        list.map fun e => (e.sortKey, look e) := by
    rw [List.map_map]
    refine List.map_congr_left fun e member => ?_
    obtain ⟨unset, owner, -⟩ := all e member
    simp only [Function.comp_apply, shows, look, TokenTransfer.sortKey, TokenTransfer.toProtobuf, unset,
      owner, posting, tokenPosting, AccountId.place_onWire]
  have comparable {list : List TokenTransfer} (all : ∀ e ∈ list, posting.Entry e) :
      ∀ a ∈ list, ∀ b ∈ list, a.tokenId.key = b.tokenId.key → a.accountId.MergesWith b.accountId := by
    intro a member b member' tokens
    obtain ⟨-, -, p, present, ofToken, account⟩ := all a member
    obtain ⟨-, -, q, present', ofToken', account'⟩ := all b member'
    rw [account, account']
    exact merge p present q present' (ofToken.symm.trans (tokens.trans ofToken'))
  have looks : (Js.sort TokenTransfer.compare entries).map look =
      (Js.sort TokenTransfer.compare others).map look := by
    apply TokenTransfer.map_sort_eq
    · exact fun a member b member' tokens => (comparable one.all a member b member' tokens).comparable
    · exact fun a member b member' tokens => (comparable other.all a member b member' tokens).comparable
    · rw [← shown one.all, ← shown other.all]
      exact same.map shows
    · intro a member b member' places
      obtain ⟨tokens, accounts⟩ := Prod.mk.inj (toLex_inj.mp places)
      have merges := comparable one.all a member b member' tokens
      have wires := merges.message (AccountId.compare_eq_zero_of_place merges.comparable accounts)
      have keys : posting.key a = posting.key b := Prod.ext tokens wires
      rw [List.inj_on_of_nodup_map one.nodup member member' keys]
  apply TransferGroup.alike_of_forall₂
  refine (forall₂_of_map_eq looks).imp fun a b same => ?_
  obtain ⟨first, decimals⟩ := Prod.mk.inj same
  obtain ⟨token, message⟩ := Prod.mk.inj first
  exact ⟨⟨token, message⟩, decimals⟩

theorem hbars_sorted (perm : calls.Perm calls')
    (merge : ∀ p ∈ hbarPosts calls, ∀ q ∈ hbarPosts calls, p.account.MergesWith q.account) :
    (Js.sort Transfer.compare ((hbarPosts calls).foldl enterHbar [])).map Transfer.toProtobuf =
      (Js.sort Transfer.compare ((hbarPosts calls').foldl enterHbar [])).map Transfer.toProtobuf := by
  have posts : (hbarPosts calls).Perm (hbarPosts calls') := perm.filterMap _
  let posting := hbarPosting (hbarPosts calls) merge
  have none : ∀ e ∈ ([] : List Transfer), posting.Entry e := fun _ member => absurd member List.not_mem_nil
  have one : posting.Posted [] (hbarPosts calls) ((hbarPosts calls).foldl enterHbar []) :=
    Posting.posted_postAll none List.nodup_nil fun _ => id
  have other : posting.Posted [] (hbarPosts calls') ((hbarPosts calls').foldl enterHbar []) :=
    Posting.posted_postAll none List.nodup_nil fun _ member => posts.mem_iff.mpr member
  have same : (((hbarPosts calls).foldl enterHbar []).map fun e => (posting.key e, posting.value e)).Perm
      (((hbarPosts calls').foldl enterHbar []).map fun e => (posting.key e, posting.value e)) :=
    Posting.perm_postAll (fun _ => id) posts
  generalize (hbarPosts calls).foldl enterHbar [] = entries at one same ⊢
  generalize (hbarPosts calls').foldl enterHbar [] = others at other same ⊢
  let shows (p : AccountId × Int) := (p.1.place, (⟨p.1, p.2, false⟩ : AccountAmount))
  have shown {list : List Transfer} (all : ∀ e ∈ list, posting.Entry e) :
      (list.map fun e => (posting.key e, posting.value e)).map shows =
        list.map fun e => (e.accountId.place, e.toProtobuf) := by
    rw [List.map_map]
    refine List.map_congr_left fun e member => ?_
    simp only [Function.comp_apply, shows, Transfer.toProtobuf, (all e member).1, posting, hbarPosting,
      AccountId.place_onWire]
  have comparable {list : List Transfer} (all : ∀ e ∈ list, posting.Entry e) :
      ∀ a ∈ list, ∀ b ∈ list, a.accountId.MergesWith b.accountId := by
    intro a member b member'
    obtain ⟨-, p, present, account⟩ := all a member
    obtain ⟨-, q, present', account'⟩ := all b member'
    rw [account, account']
    exact merge p present q present'
  apply Transfer.map_sort_eq
  · exact fun a member b member' => (comparable one.all a member b member').comparable
  · exact fun a member b member' => (comparable other.all a member b member').comparable
  · rw [← shown one.all, ← shown other.all]
    exact same.map shows
  · intro a member b member' places
    have merges := comparable one.all a member b member'
    have keys := merges.message (AccountId.compare_eq_zero_of_place merges.comparable places)
    rw [List.inj_on_of_nodup_map one.nodup member member' keys]

theorem nfts_sorted (perm : calls.Perm calls') (differ : (nftPosts calls).Pairwise NftPost.Differs)
    (apart : (nftPosts calls).Pairwise fun p q => NftPost.Apart p q ∧ NftPost.Apart q p) :
    List.Forall₂ TokenNftTransfer.SameMessage
      (Js.sort TokenNftTransfer.compare ((nftPosts calls).foldl enterNft []))
      (Js.sort TokenNftTransfer.compare ((nftPosts calls').foldl enterNft [])) := by
  have posts : (nftPosts calls).Perm (nftPosts calls') := perm.filterMap _
  have differ' : (nftPosts calls').Pairwise NftPost.Differs := by
    apply (posts.pairwise_iff _).mp differ
    exact fun differs same serials => differs same.symm serials.symm
  rw [foldl_enterNft differ, foldl_enterNft differ']
  have symmetric : Std.Symm fun p q => NftPost.Apart p q ∧ NftPost.Apart q p :=
    ⟨fun _ _ both => ⟨both.2, both.1⟩⟩
  have comparable (list : List NftPost) (within : ∀ p ∈ list, p ∈ nftPosts calls) :
      ∀ a ∈ list.map nftEntry, ∀ b ∈ list.map nftEntry, TokenNftTransfer.Comparable a b := by
    refine List.forall_mem_map.mpr fun p member => List.forall_mem_map.mpr fun q member' => ?_
    by_cases same : p = q
    · subst same
      exact ⟨AccountId.comparable_self _, fun _ => AccountId.comparable_self _⟩
    · have tells := (apart.forall (within p member) (within q member') same).1
      exact ⟨tells.senders, tells.receivers⟩
  let look (nft : TokenNftTransfer) := (nft.tokenId.key, nft.toProtobuf)
  have looks : (Js.sort TokenNftTransfer.compare ((nftPosts calls).map nftEntry)).map look =
      (Js.sort TokenNftTransfer.compare ((nftPosts calls').map nftEntry)).map look := by
    refine TokenNftTransfer.map_sort_eq (comparable _ fun _ => id)
      (comparable _ fun p member => posts.mem_iff.mpr member)
      ((posts.map nftEntry).map fun a => (a.sortKey, look a)) ?_
    refine List.forall_mem_map.mpr fun p member => List.forall_mem_map.mpr fun q member' places => ?_
    by_cases same : p = q
    · rw [same]
    · have tells := (apart.forall member member' same).1
      obtain ⟨senders, rest⟩ := Prod.mk.inj (toLex_inj.mp places)
      obtain ⟨receivers, serials⟩ := Prod.mk.inj (toLex_inj.mp rest)
      have sameSender := AccountId.compare_eq_zero_of_place tells.senders senders
      have sameReceiver := AccountId.compare_eq_zero_of_place (tells.receivers sameSender) receivers
      exact absurd serials (tells.serials sameSender sameReceiver)
  refine (forall₂_of_map_eq looks).imp fun a b same => ?_
  exact ⟨(Prod.mk.inj same).1, (Prod.mk.inj same).2⟩

/-- In whatever order independent transfers are added, the body is the same. -/
theorem body_order_independent (transaction : Transaction) (perm : calls.Perm calls')
    (plain : ∀ call ∈ calls, call.IsPlain) (differ : (nftPosts calls).Pairwise NftPost.Differs)
    (independent : Independent calls) :
    (makeTransactionData.run (runAll step { transaction } calls)).1 =
      (makeTransactionData.run (runAll step { transaction } calls')).1 := by
  have plain' : ∀ call ∈ calls', call.IsPlain := fun call member => plain call (perm.mem_iff.mpr member)
  cases mode : transaction.isFrozenOrOnDemand with
  | true => rw [runAll_of_frozen mode, runAll_of_frozen mode]
  | false =>
      have one : StepsBy { transaction } calls (runAll step { transaction } calls) :=
        stepsBy_runAll mode plain
      have other : StepsBy { transaction } calls' (runAll step { transaction } calls') :=
        stepsBy_runAll mode plain'
      rw [run_makeTransactionData, run_makeTransactionData]
      have hbars := hbars_sorted perm independent.hbars
      have groups := TransferGroup.SameMessages.groupTransfers (tokens_sorted perm independent.tokens)
        (nfts_sorted perm differ independent.nfts) .nil fun k none => by cases none
      have lists : (runAll step { transaction } calls).tokenTransferLists =
          (runAll step { transaction } calls').tokenTransferLists := by
        rw [AbstractTokenTransferTransaction.tokenTransferLists,
          AbstractTokenTransferTransaction.tokenTransferLists,
          AbstractTokenTransferTransaction.sortTransfers, AbstractTokenTransferTransaction.sortTransfers,
          one.tokens, one.nfts, other.tokens, other.nfts]
        rw [← List.forall₂_eq_eq_eq, List.forall₂_map_left_iff, List.forall₂_map_right_iff]
        exact groups
      rw [body, body, sortHbarTransfers, sortHbarTransfers, one.hbars, other.hbars, lists]
      exact congrArg (fun amounts => Except.ok (CryptoTransferBody.mk amounts _)) hbars

end Bodies

/-- Two accounts exchange hbars and two NFTs of one token. -/
def exchange : List Call :=
  [.addHbarTransfer (.ofNum 8) (-10), .addHbarTransfer (.ofNum 7) 10,
    .token (.addTokenTransfer (.ofNum 2) (.ofNum 7) 5), .token (.addTokenTransfer (.ofNum 1) (.ofNum 7) 5),
    .token (.addNftTransfer ⟨.ofNum 3, 2⟩ (.ofNum 7) (.ofNum 8)),
    .token (.addNftTransfer ⟨.ofNum 3, 1⟩ (.ofNum 7) (.ofNum 8))]

theorem exchange_reversed :
    (makeTransactionData.run (runAll step blank exchange)).1 =
      (makeTransactionData.run (runAll step blank exchange.reverse)).1 := by
  apply body_order_independent _ (List.reverse_perm exchange).symm
  · simp [exchange, Call.IsPlain]
  · decide +kernel
  · constructor
    · decide +kernel
    · decide +kernel
    · decide +kernel

/-- NFTs of two tokens that agree in sender, receiver and serial number. -/
def tiedNfts : List Call :=
  [.token (.addNftTransfer ⟨.ofNum 1, 1⟩ (.ofNum 7) (.ofNum 8)),
    .token (.addNftTransfer ⟨.ofNum 2, 1⟩ (.ofNum 7) (.ofNum 8))]

theorem tied_nfts_keep_their_order :
    ¬ ∀ transaction calls calls', calls.Perm calls' → (∀ call ∈ calls, call.IsPlain) →
      (nftPosts calls).Pairwise NftPost.Differs →
        (makeTransactionData.run (runAll step { transaction } calls)).1 =
          (makeTransactionData.run (runAll step { transaction } calls')).1 := by
  intro all
  have same := all blank.transaction tiedNfts tiedNfts.reverse (List.reverse_perm tiedNfts).symm
    (by simp [tiedNfts, Call.IsPlain]) (by decide +kernel)
  rw [run_makeTransactionData, run_makeTransactionData] at same
  have tokens := congrArg CryptoTransferBody.tokenTransfers (Except.ok.inj same)
  revert tokens
  decide +kernel

end TransferTransaction

end HederaSdk
