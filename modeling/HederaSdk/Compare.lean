import HederaSdk.IdText
import HederaSdk.Js.Sort
import Mathlib.Data.Prod.Lex

/-!
# Comparing ids

Ids are put in order by shard, realm and then the name of the entity. Accounts are
compared by number, alias key or EVM address when both have the same of the three.
An account with a name of another kind is greater on both sides.
-/

namespace HederaSdk

/-- `Long.compare` -/
def compareLong (a b : Int) : Int := if a = b then 0 else if a < b then -1 else 1

@[simp] theorem compareLong_eq_zero {a b : Int} : compareLong a b = 0 ↔ a = b := by
  unfold compareLong
  split
  · simp [*]
  · split <;> simp [*]

theorem compareLong_of_lt {a b : Int} (less : a < b) : compareLong a b < 0 ∧ 0 < compareLong b a := by
  rw [compareLong, compareLong, if_neg less.ne, if_pos less, if_neg less.ne',
    if_neg (not_lt.mpr less.le)]
  decide

/-- The order of texts, as `>` and `<` see it. -/
def compareText (a b : String) : Int := if b < a then 1 else if a < b then -1 else 0

@[simp] theorem compareText_eq_zero {a b : String} : compareText a b = 0 ↔ a = b := by
  unfold compareText
  constructor
  · intro same
    split at same
    · cases same
    · split at same
      · cases same
      · rename_i notAfter notBefore
        exact String.le_antisymm (String.not_lt.mp notAfter) (String.not_lt.mp notBefore)
  · rintro rfl
    simp [String.lt_irrefl]

namespace AccountId

def compareName (id other : AccountId) : Int :=
  match id.aliasKey, other.aliasKey, id.evmAddress, other.evmAddress with
  | some key, some otherKey, _, _ => compareText key.toString otherKey.toString
  | _, _, some address, some otherAddress =>
      compareText (hexEncode address.1) (hexEncode otherAddress.1)
  | none, none, none, none => compareLong id.num other.num
  | _, _, _, _ => 1

def compare (id other : AccountId) : Int :=
  if compareLong id.shard other.shard ≠ 0 then compareLong id.shard other.shard
  else if compareLong id.realm other.realm ≠ 0 then compareLong id.realm other.realm
  else id.compareName other

/-- Ids compare as equal when they are equal. -/
theorem compare_eq_zero {id other : AccountId} : id.compare other = 0 ↔ id.equals other = true := by
  obtain ⟨shard, realm, num, aliasKey, evmAddress, _⟩ := id
  obtain ⟨shard', realm', num', aliasKey', evmAddress', _⟩ := other
  by_cases shards : shard = shard'
  · by_cases realms : realm = realm'
    · cases aliasKey <;> cases aliasKey' <;> cases evmAddress <;> cases evmAddress' <;>
        simp [compare, equals, compareName, shards, realms, PublicKey.equals_iff, Subtype.ext_iff]
    · simp [compare, equals, shards, realms]
  · simp [compare, equals, shards]

theorem compare_self (id : AccountId) : id.compare id = 0 := by
  obtain ⟨shard, realm, num, aliasKey, evmAddress, _⟩ := id
  cases aliasKey <;> cases evmAddress <;> simp [compare_eq_zero, equals, PublicKey.equals_iff]

end AccountId

structure TokenId where
  shard : Int
  realm : Int
  num : Int
  checksum : Option String := none
  deriving DecidableEq

namespace TokenId

/-- `new TokenId(num)` -/
def ofNum (num : Int) : TokenId := { shard := 0, realm := 0, num }

/-- What counts of a token id, and is in its message. -/
def numbers (id : TokenId) : Int × Int × Int := (id.shard, id.realm, id.num)

/-- The id that is read back from the message. -/
def onWire (id : TokenId) : TokenId := { id with checksum := none }

@[simp] theorem numbers_onWire (id : TokenId) : id.onWire.numbers = id.numbers := rfl

/-- `entity_id.compare` -/
def compare (id other : TokenId) : Int :=
  if compareLong id.shard other.shard ≠ 0 then compareLong id.shard other.shard
  else if compareLong id.realm other.realm ≠ 0 then compareLong id.realm other.realm
  else compareLong id.num other.num

theorem compare_eq_zero {id other : TokenId} : id.compare other = 0 ↔ id.numbers = other.numbers := by
  obtain ⟨shard, realm, num, _⟩ := id
  obtain ⟨shard', realm', num', _⟩ := other
  by_cases shards : shard = shard'
  · by_cases realms : realm = realm' <;> simp [compare, numbers, shards, realms]
  · simp [compare, numbers, shards]

/-- Token ids are ordered by shard, realm and number. -/
def key (id : TokenId) : ℤ ×ₗ ℤ ×ₗ ℤ := toLex (id.shard, toLex (id.realm, id.num))

theorem key_inj {id other : TokenId} : id.key = other.key ↔ id.numbers = other.numbers := by
  simp [key, numbers]

theorem compare_eq_zero_iff_key {id other : TokenId} : id.compare other = 0 ↔ id.key = other.key :=
  compare_eq_zero.trans key_inj.symm

theorem compare_of_lt {id other : TokenId} (less : id.key < other.key) :
    id.compare other < 0 ∧ 0 < other.compare id := by
  obtain ⟨shard, realm, num, _⟩ := id
  obtain ⟨shard', realm', num', _⟩ := other
  rcases Prod.Lex.toLex_lt_toLex.mp less with shards | ⟨shards, rest⟩
  · have order := compareLong_of_lt shards
    simp only [compare]
    rw [if_pos order.1.ne, if_pos order.2.ne']
    exact order
  · rcases Prod.Lex.toLex_lt_toLex.mp rest with realms | ⟨realms, nums⟩
    · have order := compareLong_of_lt realms
      simp only at shards
      simp only [compare, shards, compareLong_eq_zero.mpr, ne_eq, not_true_eq_false, if_false]
      rw [if_pos order.1.ne, if_pos order.2.ne']
      exact order
    · simp only at shards realms
      simp only [compare, shards, realms, compareLong_eq_zero.mpr, ne_eq, not_true_eq_false, if_false]
      exact compareLong_of_lt nums

theorem compare_lt_iff {id other : TokenId} : id.compare other < 0 ↔ id.key < other.key := by
  refine ⟨fun less => ?_, fun less => (compare_of_lt less).1⟩
  rcases lt_trichotomy id.key other.key with before | same | behind
  · exact before
  · exact absurd (compare_eq_zero_iff_key.mpr same) less.ne
  · exact absurd less (not_lt.mpr (compare_of_lt behind).2.le)

end TokenId

end HederaSdk
