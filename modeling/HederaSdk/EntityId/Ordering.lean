import HederaSdk.AccountOrder
import HederaSdk.EntityId.AccountText
import HederaSdk.KeyList
import HederaSdk.Library.Comparator

/-!
# Orders of ids

Ids are compared field by field. Accounts of different kinds in one realm are in no order,
contracts are compared by a number that their text does not show beside an EVM address, and
transaction ids are compared without the flag and the nonce that their text shows.
-/

namespace HederaSdk

open Library

namespace AccountId

/-- An id that was given a number, an alias key or an EVM address, and not two of them. -/
structure OneName (id : AccountId) : Prop extends InRange id where
  single : id.aliasKey = none ∨ id.evmAddress = none

variable {id other : AccountId}

theorem OneName.long (one : id.OneName) : id.name.IsLong := by
  have range := one.toInRange
  obtain ⟨shard, realm, num, aliasKey, evmAddress, checksum⟩ := id
  cases aliasKey <;> cases evmAddress <;> first | exact trivial | exact range.num.2

theorem equals_iff_toString (one : id.OneName) (oneOther : other.OneName) :
    id.equals other = true ↔ id.toString = other.toString := by
  refine ⟨fun same => ?_, equals_of_toString oneOther.toInRange one.toInRange⟩
  rw [toString_inj one.long oneOther.long]
  have single := one.single
  have singleOther := oneOther.single
  obtain ⟨shard, realm, num, aliasKey, evmAddress, checksum⟩ := id
  obtain ⟨shard', realm', num', aliasKey', evmAddress', checksum'⟩ := other
  cases aliasKey <;> cases aliasKey' <;> cases evmAddress <;> cases evmAddress' <;>
    simp_all [equals, identity, name, PublicKey.equals_iff]

theorem compare_of_kinds (one : id.OneName) (oneOther : other.OneName) (apart : ¬ id.Comparable other) :
    id.compare other = 1 := by
  have single := one.single
  have singleOther := oneOther.single
  obtain ⟨shard, realm, num, aliasKey, evmAddress, checksum⟩ := id
  obtain ⟨shard', realm', num', aliasKey', evmAddress', checksum'⟩ := other
  simp only [Comparable, Classical.not_imp] at apart
  obtain ⟨rfl, rfl, kinds⟩ := apart
  rw [compare, if_neg (by simp), if_neg (by simp)]
  cases aliasKey <;> cases aliasKey' <;> cases evmAddress <;> cases evmAddress' <;>
    simp_all [kind, compareName]

variable {ids : Set AccountId}

/-- Accounts are ordered when those of one realm are of one kind. -/
theorem tells_iff (one : ∀ id ∈ ids, id.OneName) :
    Tells compare toString ids ∧ Equates equals compare ids ↔
      ∀ id ∈ ids, ∀ other ∈ ids, id.Comparable other := by
  have texts {id other : AccountId} (first : id ∈ ids) (second : other ∈ ids) :=
    equals_iff_toString (one id first) (one other second)
  constructor
  · rintro ⟨tells, _⟩ id first other second
    by_contra apart
    have forth := compare_of_kinds (one id first) (one other second) apart
    have back := compare_of_kinds (one other second) (one id first) fun comparable => apart comparable.symm
    have swap := tells.swap id first other second
    rw [forth, back] at swap
    cases swap
  · intro comparable
    have orders : Orders compare ids := orders_of_key place
      (fun id first other second => compare_of_lt (comparable id first other second))
      fun id first other second => compare_eq_zero_of_place (comparable id first other second)
    refine ⟨⟨orders, fun id first other second => ?_⟩, ?_, ?_, ?_, ?_⟩
    · rw [compare_eq_zero, texts first second]
    · intro id first
      rw [texts first first]
    · intro id first other second same
      rw [texts first second] at same
      rw [texts second first, same]
    · intro id first other second third member same same'
      rw [texts first second] at same
      rw [texts second member] at same'
      rw [texts first member, same, same']
    · exact fun id _ other _ => compare_eq_zero.symm

end AccountId

/-! ## Contracts -/

namespace ContractId

def toString (id : ContractId) : String :=
  match id.evmAddress with
  | some address => s!"{id.shard}.{id.realm}.{hexEncode address}"
  | none => s!"{id.shard}.{id.realm}.{id.num}"

/-- `entity_id.compare` of the numbers. -/
def compare (id other : ContractId) : Int :=
  if compareLong id.shard other.shard ≠ 0 then compareLong id.shard other.shard
  else if compareLong id.realm other.realm ≠ 0 then compareLong id.realm other.realm
  else compareLong id.num other.num

def equals (id other : ContractId) : Bool :=
  let evmAddresses :=
    match id.evmAddress, other.evmAddress with
    | some address, some otherAddress => decide (address = otherAddress)
    | _, _ => false
  decide (id.shard = other.shard) && decide (id.realm = other.realm) && decide (id.num = other.num) &&
    evmAddresses

/-- The account that prints the same. -/
def account (id : ContractId) : AccountId where
  shard := id.shard
  realm := id.realm
  num := id.num
  evmAddress := id.evmAddress.bind fun data => if h : data.length = 20 then some ⟨data, h⟩ else none

/-- The token that is compared the same. -/
def token (id : ContractId) : TokenId where
  shard := id.shard
  realm := id.realm
  num := id.num

/-- The numbers are those of a `Long`, and an EVM address has 20 bytes. -/
structure Addressed (id : ContractId) : Prop where
  range : id.account.InRange
  length : ∀ data, id.evmAddress = some data → data.length = 20

variable {id other : ContractId}

theorem compare_token (id other : ContractId) : id.token.compare other.token = id.compare other := rfl

theorem compare_eq_zero : id.compare other = 0 ↔
    id.shard = other.shard ∧ id.realm = other.realm ∧ id.num = other.num := by
  rw [← compare_token, TokenId.compare_eq_zero]
  simp [TokenId.numbers, token]

theorem equals_iff (address : id.evmAddress ≠ none) : id.equals other = true ↔
    id.shard = other.shard ∧ id.realm = other.realm ∧ id.num = other.num ∧
      id.evmAddress = other.evmAddress := by
  obtain ⟨data, set⟩ := Option.ne_none_iff_exists'.mp address
  cases setOther : other.evmAddress <;> simp [equals, set, setOther, and_assoc]

theorem toString_account (addressed : id.Addressed) : id.account.toString = id.toString := by
  have length := addressed.length
  obtain ⟨shard, realm, num, evmAddress, checksum⟩ := id
  cases evmAddress with
  | none => rfl
  | some data => simp [account, AccountId.toString, toString, length data rfl]

/-- Ids with an EVM address print it and not the number. -/
theorem toString_iff (addressed : id.Addressed) (addressedOther : other.Addressed)
    (address : id.evmAddress ≠ none) (addressOther : other.evmAddress ≠ none) :
    id.toString = other.toString ↔
      id.shard = other.shard ∧ id.realm = other.realm ∧ id.evmAddress = other.evmAddress := by
  have one {id : ContractId} (addressed : id.Addressed) : id.account.OneName := ⟨addressed.range, .inl rfl⟩
  rw [← toString_account addressed, ← toString_account addressedOther,
    AccountId.toString_inj (one addressed).long (one addressedOther).long]
  obtain ⟨data, set⟩ := Option.ne_none_iff_exists'.mp address
  obtain ⟨data', set'⟩ := Option.ne_none_iff_exists'.mp addressOther
  simp [AccountId.identity, AccountId.name, account, set, set', addressed.length data set,
    addressedOther.length data' set']

/-- Every id has an EVM address, and those of one realm are known by it exactly when they are known
by their number. -/
structure OneNumber (ids : Set ContractId) : Prop where
  address : ∀ id ∈ ids, id.evmAddress ≠ none
  number : ∀ id ∈ ids, ∀ other ∈ ids, id.shard = other.shard → id.realm = other.realm →
    (id.num = other.num ↔ id.evmAddress = other.evmAddress)

theorem tells_iff {ids : Set ContractId} (addressed : ∀ id ∈ ids, id.Addressed) :
    Tells compare toString ids ∧ Equates equals compare ids ↔ OneNumber ids := by
  constructor
  · rintro ⟨tells, equates⟩
    have address : ∀ id ∈ ids, id.evmAddress ≠ none := by
      intro id member unset
      have same := equates.refl id member
      simp [equals, unset] at same
    refine ⟨address, fun id first other second shards realms => ?_⟩
    have zero := tells.zero id first other second
    rw [compare_eq_zero, toString_iff (addressed id first) (addressed other second) (address id first)
      (address other second)] at zero
    simpa [shards, realms] using zero
  · rintro ⟨address, number⟩
    have orders : Orders compare ids := orders_of_key (fun id => id.token.key)
      (fun id _ other _ less => TokenId.compare_of_lt less)
      fun id _ other _ same => TokenId.compare_eq_zero_iff_key.mpr same
    have equal {id other : ContractId} (first : id ∈ ids) (second : other ∈ ids) :
        id.equals other = true ↔ id.compare other = 0 := by
      rw [equals_iff (address id first), compare_eq_zero]
      refine ⟨fun same => ⟨same.1, same.2.1, same.2.2.1⟩, fun same => ⟨same.1, same.2.1, same.2.2, ?_⟩⟩
      exact (number id first other second same.1 same.2.1).mp same.2.2
    refine ⟨⟨orders, fun id first other second => ?_⟩, ⟨?_, ?_, ?_, fun id first other second => equal first second⟩⟩
    · rw [compare_eq_zero, toString_iff (addressed id first) (addressed other second) (address id first)
        (address other second)]
      refine and_congr_right fun shards => and_congr_right fun realms => ?_
      exact number id first other second shards realms
    · intro id first
      rw [equal first first, compare_eq_zero]
      exact ⟨rfl, rfl, rfl⟩
    · intro id first other second same
      rw [equal first second, compare_eq_zero] at same
      rw [equal second first, compare_eq_zero]
      exact ⟨same.1.symm, same.2.1.symm, same.2.2.symm⟩
    · intro id first other second third member same same'
      rw [equal first second, compare_eq_zero] at same
      rw [equal second member, compare_eq_zero] at same'
      rw [equal first member, compare_eq_zero]
      exact ⟨same.1.trans same'.1, same.2.1.trans same'.2.1, same.2.2.trans same'.2.2⟩

end ContractId

/-! ## Transaction ids -/

def Timestamp.compare (t other : Timestamp) : Int :=
  if compareLong t.seconds other.seconds ≠ 0 then compareLong t.seconds other.seconds
  else compareLong t.nanos other.nanos

theorem Timestamp.compare_eq_zero {t other : Timestamp} : t.compare other = 0 ↔ t = other := by
  obtain ⟨seconds, nanos⟩ := t
  obtain ⟨seconds', nanos'⟩ := other
  by_cases same : seconds = seconds' <;> simp [compare, same]

namespace TransactionId

def compare (id other : TransactionId) : Int :=
  if id.accountId.compare other.accountId ≠ 0 then id.accountId.compare other.accountId
  else id.validStart.compare other.validStart

variable {id other : TransactionId}

theorem compare_eq_zero : id.compare other = 0 ↔
    id.accountId.compare other.accountId = 0 ∧ id.validStart = other.validStart := by
  rw [compare, ← Timestamp.compare_eq_zero]
  by_cases accounts : id.accountId.compare other.accountId = 0 <;> simp [accounts]

/-- Where an id stands among those whose accounts are of one kind. -/
def place (id : TransactionId) : (ℤ ×ₗ ℤ ×ₗ String ×ₗ ℤ) ×ₗ ℤ ×ₗ ℤ :=
  toLex (id.accountId.place, toLex (id.validStart.seconds, id.validStart.nanos))

theorem compare_of_lt (comparable : id.accountId.Comparable other.accountId) (less : id.place < other.place) :
    id.compare other < 0 ∧ 0 < other.compare id := by
  rcases Prod.Lex.toLex_lt_toLex.mp less with accounts | ⟨accounts, rest⟩
  · have order := AccountId.compare_of_lt comparable accounts
    rw [compare, compare, if_pos order.1.ne, if_pos order.2.ne']
    exact order
  · have same := AccountId.compare_eq_zero_of_place comparable accounts
    have same' := AccountId.compare_eq_zero_of_place comparable.symm accounts.symm
    rw [compare, compare, if_neg (not_not.mpr same), if_neg (not_not.mpr same'), Timestamp.compare,
      Timestamp.compare]
    rcases Prod.Lex.toLex_lt_toLex.mp rest with seconds | ⟨seconds, nanos⟩
    · have order := compareLong_of_lt seconds
      rw [if_pos order.1.ne, if_pos order.2.ne']
      exact order
    · have zero : compareLong id.validStart.seconds other.validStart.seconds = 0 :=
        compareLong_eq_zero.mpr seconds
      have zero' : compareLong other.validStart.seconds id.validStart.seconds = 0 :=
        compareLong_eq_zero.mpr seconds.symm
      rw [if_neg (not_not.mpr zero), if_neg (not_not.mpr zero')]
      exact compareLong_of_lt nanos

/-- Accounts of one realm are of one kind, and one account and start have one flag and nonce. -/
structure OnePerStart (ids : Set TransactionId) : Prop where
  comparable : ∀ id ∈ ids, ∀ other ∈ ids, id.accountId.Comparable other.accountId
  shown : ∀ id ∈ ids, ∀ other ∈ ids, id.accountId.compare other.accountId = 0 →
    id.validStart = other.validStart → id.scheduled = other.scheduled ∧ id.nonce = other.nonce

theorem tells_iff {ids : Set TransactionId} (one : ∀ id ∈ ids, id.accountId.OneName) :
    Tells compare toString ids ↔ OnePerStart ids := by
  have texts {id other : TransactionId} (first : id ∈ ids) (second : other ∈ ids) :
      id.toString = other.toString ↔ id.accountId.compare other.accountId = 0 ∧
        id.validStart = other.validStart ∧ id.scheduled = other.scheduled ∧ id.nonce = other.nonce := by
    rw [toString_eq_iff, AccountId.compare_eq_zero, AccountId.equals_iff_toString (one id first) (one other second)]
  constructor
  · intro tells
    constructor
    · intro id first other second
      by_contra apart
      have forth := AccountId.compare_of_kinds (one id first) (one other second) apart
      have back := AccountId.compare_of_kinds (one other second) (one id first) fun comparable =>
        apart comparable.symm
      have swap := tells.swap id first other second
      rw [compare, compare, forth, back] at swap
      cases swap
    · intro id first other second accounts starts
      have same := (tells.zero id first other second).mp (compare_eq_zero.mpr ⟨accounts, starts⟩)
      exact ((texts first second).mp same).2.2
  · rintro ⟨comparable, shown⟩
    have orders : Orders compare ids := by
      apply orders_of_key place
      · exact fun id first other second => compare_of_lt (comparable id first other second)
      · intro id first other second same
        obtain ⟨accounts, rest⟩ := Prod.mk.inj (toLex_inj.mp same)
        obtain ⟨seconds, nanos⟩ := Prod.mk.inj (toLex_inj.mp rest)
        rw [compare_eq_zero]
        refine ⟨AccountId.compare_eq_zero_of_place (comparable id first other second) accounts, ?_⟩
        rw [Timestamp.mk.injEq]
        exact ⟨seconds, nanos⟩
    refine ⟨orders, fun id first other second => ?_⟩
    rw [compare_eq_zero, texts first second]
    refine ⟨fun same => ⟨same.1, same.2, ?_⟩, fun same => ⟨same.1, same.2.1⟩⟩
    exact shown id first other second same.1 same.2

end TransactionId

/-! ## The three classes -/

/-- Exactly which ids are in an order that their texts and their equality agree with. -/
theorem ids_are_ordered_iff {accounts : Set AccountId} {contracts : Set ContractId}
    {transactions : Set TransactionId} (oneName : ∀ id ∈ accounts, id.OneName)
    (addressed : ∀ id ∈ contracts, id.Addressed) (paid : ∀ id ∈ transactions, id.accountId.OneName) :
    (Tells AccountId.compare AccountId.toString accounts ∧
        Equates AccountId.equals AccountId.compare accounts ↔
      ∀ id ∈ accounts, ∀ other ∈ accounts, id.Comparable other) ∧
    (Tells ContractId.compare ContractId.toString contracts ∧
        Equates ContractId.equals ContractId.compare contracts ↔ ContractId.OneNumber contracts) ∧
    (Tells TransactionId.compare TransactionId.toString transactions ↔
      TransactionId.OnePerStart transactions) :=
  ⟨AccountId.tells_iff oneName, ContractId.tells_iff addressed, TransactionId.tells_iff paid⟩

section Samples

/-- An EVM address of equal bytes. -/
def sampleAddress (b : UInt8) : EvmAddress := ⟨List.replicate 20 b, List.length_replicate⟩

def sampleContract (num : Int) (b : UInt8) : ContractId where
  shard := 0
  realm := 0
  num := num
  evmAddress := some (sampleAddress b).1

def sampleStart (seconds : Int) : TransactionId := .withValidStart (.ofNum 2) ⟨seconds, 0⟩

theorem ofNum_oneName {num : Int} (range : 0 ≤ num ∧ IsLong num) : (AccountId.ofNum num).OneName := by
  have zero : 0 ≤ (0 : Int) ∧ IsLong 0 := by decide
  exact ⟨⟨zero, zero, range⟩, .inl rfl⟩

theorem numbers_are_ordered :
    (Tells AccountId.compare AccountId.toString {.ofNum 1, .ofNum 2} ∧
        Equates AccountId.equals AccountId.compare {.ofNum 1, .ofNum 2}) ∧
      (Tells ContractId.compare ContractId.toString {sampleContract 1 10, sampleContract 2 20} ∧
        Equates ContractId.equals ContractId.compare {sampleContract 1 10, sampleContract 2 20}) ∧
      Tells TransactionId.compare TransactionId.toString {sampleStart 1, sampleStart 2} := by
  have iffs := @ids_are_ordered_iff {.ofNum 1, .ofNum 2} {sampleContract 1 10, sampleContract 2 20}
    {sampleStart 1, sampleStart 2} ?_ ?_ ?_
  · refine ⟨iffs.1.mpr ?_, iffs.2.1.mpr ⟨?_, ?_⟩, iffs.2.2.mpr ⟨?_, ?_⟩⟩
    · rintro id (rfl | rfl) other (rfl | rfl) <;> decide
    · rintro id (rfl | rfl) <;> decide
    · rintro id (rfl | rfl) other (rfl | rfl) <;> decide
    · rintro id (rfl | rfl) other (rfl | rfl) <;> decide
    · rintro id (rfl | rfl) other (rfl | rfl) <;> decide
  · rintro id (rfl | rfl) <;> exact ofNum_oneName (by decide)
  · rintro id (rfl | rfl) <;> exact ⟨⟨by decide, by decide, by decide⟩, by rintro data ⟨⟩; decide⟩
  · rintro id (rfl | rfl) <;> exact ofNum_oneName (by decide)

/-- A number and an EVM address are each greater than the other, an id of a contract without an
EVM address is not equal to itself, and a nonce does not count. -/
theorem kinds_are_in_no_order :
    ¬ Tells AccountId.compare AccountId.toString
        {.ofNum 5, { AccountId.ofNum 0 with evmAddress := some (sampleAddress 1) }} ∧
      ¬ Equates ContractId.equals ContractId.compare {{ shard := 0, realm := 0, num := 5 }} ∧
      ¬ Tells TransactionId.compare TransactionId.toString
        {sampleStart 1, { sampleStart 1 with nonce := some 1 }} := by
  refine ⟨fun tells => ?_, fun equates => ?_, fun tells => ?_⟩
  · exact absurd (tells.swap _ (.inl rfl) _ (.inr rfl)) (by decide)
  · exact absurd (equates.refl _ rfl) (by decide)
  · have same := (tells.zero _ (.inl rfl) _ (.inr rfl)).mp (by decide)
    exact absurd same (by decide +kernel)

end Samples

end HederaSdk
