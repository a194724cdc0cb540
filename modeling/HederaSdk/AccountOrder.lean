import HederaSdk.Compare
import Mathlib.Data.String.Basic

/-!
# The order of accounts

Accounts of one kind are in order: those with an alias key by the text of the key, those
with an EVM address by its digits, the others by their number. Two accounts of the same
shard and realm that differ in kind are in no order, since each is greater than the other.
-/

namespace HederaSdk

theorem compareText_of_lt {a b : String} (less : a < b) : compareText a b < 0 ∧ 0 < compareText b a := by
  have notAfter : ¬ b < a := lt_asymm less
  rw [compareText, compareText, if_neg notAfter, if_pos less, if_pos less]
  decide

namespace AccountId

inductive Kind where
  | key
  | evmAddress
  | num
  deriving DecidableEq

def kind (id : AccountId) : Kind :=
  match id.aliasKey, id.evmAddress with
  | some _, _ => .key
  | none, some _ => .evmAddress
  | none, none => .num

/-- The kinds agree where they are compared. -/
def Comparable (id other : AccountId) : Prop :=
  id.shard = other.shard → id.realm = other.realm → id.kind = other.kind

instance (id other : AccountId) : Decidable (id.Comparable other) :=
  inferInstanceAs (Decidable (_ → _ → _))

/-- What accounts of one kind are compared by. -/
def rank (id : AccountId) : String ×ₗ ℤ :=
  match id.aliasKey, id.evmAddress with
  | some key, _ => toLex (key.toString, 0)
  | none, some address => toLex (hexEncode address.1, 0)
  | none, none => toLex ("", id.num)

/-- The place of an account among the accounts of its kind. -/
def place (id : AccountId) : ℤ ×ₗ ℤ ×ₗ String ×ₗ ℤ := toLex (id.shard, toLex (id.realm, id.rank))

theorem kind_onWire (id : AccountId) : id.onWire.kind = id.kind := by
  obtain ⟨shard, realm, num, aliasKey, evmAddress, checksum⟩ := id
  cases aliasKey <;> rfl

theorem place_onWire (id : AccountId) : id.onWire.place = id.place := by
  obtain ⟨shard, realm, num, aliasKey, evmAddress, checksum⟩ := id
  cases aliasKey <;> rfl

theorem Comparable.symm {id other : AccountId} (comparable : id.Comparable other) :
    other.Comparable id := fun shards realms => (comparable shards.symm realms.symm).symm

theorem comparable_self (id : AccountId) : id.Comparable id := fun _ _ => rfl

theorem comparable_onWire {id other : AccountId} (comparable : id.Comparable other) :
    id.onWire.Comparable other.onWire := by
  intro shards realms
  rw [kind_onWire, kind_onWire]
  obtain ⟨shard, realm, num, aliasKey, evmAddress, checksum⟩ := id
  obtain ⟨shard', realm', num', aliasKey', evmAddress', checksum'⟩ := other
  apply comparable
  · cases aliasKey <;> cases aliasKey' <;> exact shards
  · cases aliasKey <;> cases aliasKey' <;> exact realms

theorem compareName_of_lt {id other : AccountId} (kinds : id.kind = other.kind) (less : id.rank < other.rank) :
    id.compareName other < 0 ∧ 0 < other.compareName id := by
  obtain ⟨shard, realm, num, aliasKey, evmAddress, checksum⟩ := id
  obtain ⟨shard', realm', num', aliasKey', evmAddress', checksum'⟩ := other
  cases aliasKey with
  | some key =>
      cases aliasKey' with
      | none => cases evmAddress' <;> cases kinds
      | some key' =>
          rcases Prod.Lex.toLex_lt_toLex.mp less with texts | ⟨_, nums⟩
          · exact compareText_of_lt texts
          · exact absurd nums (lt_irrefl 0)
  | none =>
      cases aliasKey' with
      | some key' => cases evmAddress <;> cases kinds
      | none =>
          cases evmAddress with
          | some address =>
              cases evmAddress' with
              | none => cases kinds
              | some address' =>
                  rcases Prod.Lex.toLex_lt_toLex.mp less with texts | ⟨_, nums⟩
                  · exact compareText_of_lt texts
                  · exact absurd nums (lt_irrefl 0)
          | none =>
              cases evmAddress' with
              | some address' => cases kinds
              | none =>
                  rcases Prod.Lex.toLex_lt_toLex.mp less with texts | ⟨_, nums⟩
                  · exact absurd texts (lt_irrefl "")
                  · exact compareLong_of_lt nums

theorem compare_of_lt {id other : AccountId} (comparable : id.Comparable other)
    (less : id.place < other.place) : id.compare other < 0 ∧ 0 < other.compare id := by
  rcases Prod.Lex.toLex_lt_toLex.mp less with shards | ⟨shards, rest⟩
  · have order := compareLong_of_lt shards
    rw [compare, compare, if_pos order.1.ne, if_pos order.2.ne']
    exact order
  · have sameShards : compareLong id.shard other.shard = 0 := compareLong_eq_zero.mpr shards
    have sameShards' : compareLong other.shard id.shard = 0 := compareLong_eq_zero.mpr shards.symm
    rw [compare, compare, if_neg (not_not.mpr sameShards), if_neg (not_not.mpr sameShards')]
    rcases Prod.Lex.toLex_lt_toLex.mp rest with realms | ⟨realms, names⟩
    · have order := compareLong_of_lt realms
      rw [if_pos order.1.ne, if_pos order.2.ne']
      exact order
    · have sameRealms : compareLong id.realm other.realm = 0 := compareLong_eq_zero.mpr realms
      have sameRealms' : compareLong other.realm id.realm = 0 := compareLong_eq_zero.mpr realms.symm
      rw [if_neg (not_not.mpr sameRealms), if_neg (not_not.mpr sameRealms')]
      exact compareName_of_lt (comparable shards realms) names

theorem compareName_eq_zero_of_rank {id other : AccountId} (kinds : id.kind = other.kind)
    (same : id.rank = other.rank) : id.compareName other = 0 := by
  obtain ⟨shard, realm, num, aliasKey, evmAddress, checksum⟩ := id
  obtain ⟨shard', realm', num', aliasKey', evmAddress', checksum'⟩ := other
  cases aliasKey with
  | some key =>
      cases aliasKey' with
      | none => cases evmAddress' <;> cases kinds
      | some key' => exact compareText_eq_zero.mpr (Prod.mk.inj (toLex_inj.mp same)).1
  | none =>
      cases aliasKey' with
      | some key' => cases evmAddress <;> cases kinds
      | none =>
          cases evmAddress with
          | some address =>
              cases evmAddress' with
              | none => cases kinds
              | some address' => exact compareText_eq_zero.mpr (Prod.mk.inj (toLex_inj.mp same)).1
          | none =>
              cases evmAddress' with
              | some address' => cases kinds
              | none => exact compareLong_eq_zero.mpr (Prod.mk.inj (toLex_inj.mp same)).2

/-- Comparable accounts at one place are equal. -/
theorem compare_eq_zero_of_place {id other : AccountId} (comparable : id.Comparable other)
    (same : id.place = other.place) : id.compare other = 0 := by
  obtain ⟨shards, rest⟩ := Prod.mk.inj (toLex_inj.mp same)
  obtain ⟨realms, ranks⟩ := Prod.mk.inj (toLex_inj.mp rest)
  rw [compare, if_neg (not_not.mpr (compareLong_eq_zero.mpr shards)),
    if_neg (not_not.mpr (compareLong_eq_zero.mpr realms))]
  exact compareName_eq_zero_of_rank (comparable shards realms) ranks

end AccountId

end HederaSdk
