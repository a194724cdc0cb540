import HederaSdk.Cryptography.EcdsaPrivateKey
import HederaSdk.EntityId.AccountText
import Mathlib.Data.Nat.Log

/-!
# Solidity addresses

An entity is given to contracts as an address of 20 bytes. The writer puts 32 bits of each of
the three numbers there, realm and number 4 bytes behind the end of their field; the reader
takes 64 bits of the realm and of the number. The classes read an address as an entity only
when its first 12 bytes are zeros.
-/

namespace HederaSdk

open Library

/-- The double that is nearest to a number, the even one of two. -/
def toDouble (n : Nat) : Nat :=
  let unit := 2 ^ (n.log2 - 52)
  let quotient := n / unit
  let remainder := n % unit
  if 2 * remainder < unit ∨ 2 * remainder = unit ∧ quotient % 2 = 0 then quotient * unit
  else (quotient + 1) * unit

theorem toDouble_of_lt {n : Nat} (small : n < 9007199254740992) : toDouble n = n := by
  have exponent : n.log2 - 52 = 0 := by
    rcases Nat.eq_zero_or_pos n with rfl | positive
    · rfl
    · have := (Nat.log2_lt (k := 53) positive.ne').mpr small
      omega
  simp [toDouble, exponent, Nat.mod_one]

/-- `util.convertToNumber` of a `Long`. -/
def convertToNumber (n : Int) : Int := if n < 0 then -toDouble n.natAbs else toDouble n.natAbs

/-- `view.setUint32(offset, n)` -/
def setUint32 (target : Bytes) (offset : Nat) (n : Int) : Bytes :=
  setBytes target (BigEndian.encode 4 (n % 4294967296).toNat) offset

/-- `Long.fromBytesBE` -/
def Long.fromBytesBE (data : Bytes) : Int := Long.wrap (BigEndian.value data)

namespace EntityIdHelper

def fromSolidityAddress (address : String) : Except JsError (Int × Int × Int) :=
  let addr := if address.startsWith "0x" then hexDecode (.ofList (address.toList.drop 2))
    else hexDecode address
  if addr.length ≠ 20 then
    .error (.error ("Invalid hex encoded solidity address length:\n                expected length 40" ++
      s!", got length {utf16Length address}"))
  else
    .ok (Long.fromBytesBE ([0, 0, 0, 0] ++ addr.take 4), Long.fromBytesBE ((addr.take 12).drop 4),
      Long.fromBytesBE ((addr.take 20).drop 12))

def toSolidityAddress (shard realm num : Int) : String :=
  let buffer : Bytes := List.replicate 20 0
  let buffer := setUint32 buffer 0 (convertToNumber shard)
  let buffer := setUint32 buffer 8 (convertToNumber realm)
  hexEncode (setUint32 buffer 16 (convertToNumber num))

end EntityIdHelper

/-- `util.isLongZeroAddress` -/
def isLongZeroAddress (address : Bytes) : Bool := decide (address.take 12 = List.replicate 12 0)

namespace AccountId

/-- An address that is not long-zero is handed to `fromEvmAddress`, which finds the same. -/
def fromSolidityAddress (address : String) : Except JsError EntityId :=
  if isLongZeroAddress (hexDecode address) then do
    let (shard, realm, num) ← EntityIdHelper.fromSolidityAddress address
    EntityIdHelper.construct shard realm num
  else do
    let id ← EntityIdHelper.construct 0 0 0
    return { id with evmAddress := some (hexDecode address) }

def fromEvmAddress (shard realm : Int) (evmAddress : String) : Except JsError EntityId :=
  let address := hexDecode evmAddress
  if isLongZeroAddress address then fromSolidityAddress (hexEncode address)
  else do
    let id ← EntityIdHelper.construct shard realm 0
    return { id with evmAddress := some address }

theorem fromSolidityAddress_of_not_longZero {address : String}
    (notZero : isLongZeroAddress (hexDecode address) = false) :
    fromSolidityAddress address = fromEvmAddress 0 0 address := by
  rw [fromSolidityAddress, fromEvmAddress, notZero]
  rfl

/-- The EVM address of a key is computed by another package. -/
def toSolidityAddress (toEvmAddress : PublicKey → String) (id : EntityId) : String :=
  match id.evmAddress, id.aliasKey with
  | some address, _ => hexEncode address
  | none, some key =>
      if key.type = .secp256k1 then toEvmAddress key
      else EntityIdHelper.toSolidityAddress id.shard id.realm id.num
  | none, none => EntityIdHelper.toSolidityAddress id.shard id.realm id.num

end AccountId

namespace ContractId

def fromEvmAddress (shard realm : Int) (evmAddress : String) : Except JsError EntityId :=
  if isLongZeroAddress (hexDecode evmAddress) then do
    let (shard, realm, num) ← EntityIdHelper.fromSolidityAddress evmAddress
    EntityIdHelper.construct shard realm num
  else do
    let id ← EntityIdHelper.construct shard realm 0
    return { id with evmAddress := some (hexDecode evmAddress) }

def fromSolidityAddress (address : String) : Except JsError EntityId :=
  if isLongZeroAddress (hexDecode address) then do
    let (shard, realm, num) ← EntityIdHelper.fromSolidityAddress address
    EntityIdHelper.construct shard realm num
  else fromEvmAddress 0 0 address

def toSolidityAddress (id : EntityId) : String :=
  match id.evmAddress with
  | some address => hexEncode address
  | none => EntityIdHelper.toSolidityAddress id.shard id.realm id.num

end ContractId

/-! ## What is read back -/

/-- What `setUint32` keeps of a number. -/
def low32 (n : Int) : Nat := (convertToNumber n % 4294967296).toNat

theorem low32_lt (n : Int) : low32 n < 4294967296 := by
  rw [low32]
  omega

theorem low32_of_lt {n : Nat} (small : n < 4294967296) : low32 n = n := by
  rw [low32, convertToNumber, if_neg (by omega), Int.natAbs_natCast, toDouble_of_lt (by omega)]
  omega

/-- A number comes back exactly when 32 bits hold it. -/
theorem low32_eq_iff {n : Nat} : low32 n = n ↔ n < 4294967296 :=
  ⟨fun same => same ▸ low32_lt n, low32_of_lt⟩

namespace EntityIdHelper

theorem hexDecode_toSolidityAddress (shard realm num : Int) :
    hexDecode (toSolidityAddress shard realm num) =
      BigEndian.encode 4 (low32 shard) ++ [0, 0, 0, 0] ++ (BigEndian.encode 4 (low32 realm) ++
        ([0, 0, 0, 0] ++ BigEndian.encode 4 (low32 num))) := by
  rw [toSolidityAddress, hexDecode_hexEncode, setUint32, setUint32, setUint32]
  change setBytes (setBytes (setBytes _ (BigEndian.encode 4 (low32 shard)) 0)
    (BigEndian.encode 4 (low32 realm)) 8) (BigEndian.encode 4 (low32 num)) 16 = _
  rfl

theorem not_startsWith_hexEncode (data : Bytes) : (hexEncode data).startsWith "0x" = false := by
  rw [String.startsWith_string_eq_false_iff]
  rintro ⟨rest, same⟩
  have member : 'x' ∈ (hexEncode data).toList := by
    rw [← same]
    simp
  have hex := AccountId.isHex_of_mem_hexEncode member
  cases hex

theorem fromBytesBE_low (zeros : Nat) (n : Int) :
    Long.fromBytesBE (List.replicate zeros 0 ++ BigEndian.encode 4 (low32 n)) = low32 n := by
  have small := low32_lt n
  rw [Long.fromBytesBE, BigEndian.value_replicate_append, BigEndian.value_encode_of_lt small]
  exact Long.wrap_of_small (by omega) (by omega)

/-- The reader finds 32 bits of each number. -/
theorem fromSolidityAddress_toSolidityAddress (shard realm num : Int) :
    fromSolidityAddress (toSolidityAddress shard realm num) =
      .ok ((low32 shard : Int), (low32 realm : Int), (low32 num : Int)) := by
  have plain : (toSolidityAddress shard realm num).startsWith "0x" = false := not_startsWith_hexEncode _
  have bytes : (if (toSolidityAddress shard realm num).startsWith "0x" then
      hexDecode (.ofList ((toSolidityAddress shard realm num).toList.drop 2))
      else hexDecode (toSolidityAddress shard realm num)) = _ :=
    (if_neg (by simp [plain])).trans (hexDecode_toSolidityAddress shard realm num)
  rw [fromSolidityAddress, bytes]
  have first := fromBytesBE_low 4 shard
  have second := fromBytesBE_low 4 realm
  have third := fromBytesBE_low 4 num
  rw [← first, ← second, ← third]
  rfl

end EntityIdHelper

/-- An address is long-zero when nothing of shard and realm is in it. -/
theorem isLongZeroAddress_iff (shard realm num : Int) :
    isLongZeroAddress (hexDecode (EntityIdHelper.toSolidityAddress shard realm num)) = true ↔
      low32 shard = 0 ∧ low32 realm = 0 := by
  have zeros (n : Int) : BigEndian.encode 4 (low32 n) = [0, 0, 0, 0] ↔ low32 n = 0 := by
    have value := @BigEndian.value_encode_of_lt 4 _ (low32_lt n)
    constructor
    · intro none
      rw [← value, none]
      rfl
    · intro zero
      rw [zero]
      rfl
  rw [isLongZeroAddress, decide_eq_true_eq, EntityIdHelper.hexDecode_toSolidityAddress, ← zeros, ← zeros]
  have parts : (BigEndian.encode 4 (low32 shard) ++ [0, 0, 0, 0] ++ (BigEndian.encode 4 (low32 realm) ++
      ([0, 0, 0, 0] ++ BigEndian.encode 4 (low32 num)))).take 12 =
        BigEndian.encode 4 (low32 shard) ++ ([0, 0, 0, 0] ++ BigEndian.encode 4 (low32 realm)) := rfl
  rw [parts]
  constructor
  · intro same
    have apart : BigEndian.encode 4 (low32 shard) ++ ([0, 0, 0, 0] ++ BigEndian.encode 4 (low32 realm)) =
        [0, 0, 0, 0] ++ ([0, 0, 0, 0] ++ [0, 0, 0, 0]) := same
    obtain ⟨shards, rest⟩ := List.append_inj apart rfl
    exact ⟨shards, List.append_cancel_left rest⟩
  · rintro ⟨shards, realms⟩
    rw [shards, realms]
    rfl

section RoundTrip

variable {shard realm num : Nat}

theorem construct_low32 : EntityIdHelper.construct (low32 shard) (low32 realm) (low32 num) =
    .ok { shard := low32 shard, realm := low32 realm, num := low32 num } := by
  rw [EntityIdHelper.construct, if_neg (by omega)]

/-- The classes read the numbers of a long-zero address, and any other address as it stands. -/
theorem readSolidity_eq {read : String → Except JsError EntityId}
    (reads : read = AccountId.fromSolidityAddress ∨ read = ContractId.fromSolidityAddress) :
    read (EntityIdHelper.toSolidityAddress shard realm num) =
      if low32 shard = 0 ∧ low32 realm = 0 then .ok { shard := 0, realm := 0, num := low32 num }
      else
        .ok
          { shard := 0
            realm := 0
            num := 0
            evmAddress := some (hexDecode (EntityIdHelper.toSolidityAddress shard realm num)) } := by
  have numbers := EntityIdHelper.fromSolidityAddress_toSolidityAddress shard realm num
  have longZero := isLongZeroAddress_iff shard realm num
  have made := @construct_low32 shard realm num
  generalize EntityIdHelper.toSolidityAddress shard realm num = address at *
  by_cases zeros : low32 shard = 0 ∧ low32 realm = 0
  · have isZero := longZero.mpr zeros
    rw [zeros.1, zeros.2] at made numbers
    rcases reads with rfl | rfl
    · rw [AccountId.fromSolidityAddress, if_pos isZero, numbers, if_pos zeros]
      exact made
    · rw [ContractId.fromSolidityAddress, if_pos isZero, numbers, if_pos zeros]
      exact made
  · have notZero : ¬ isLongZeroAddress (hexDecode address) = true := fun isZero => zeros (longZero.mp isZero)
    rcases reads with rfl | rfl
    · rw [AccountId.fromSolidityAddress, if_neg notZero, if_neg zeros]
      rfl
    · rw [ContractId.fromSolidityAddress, if_neg notZero, ContractId.fromEvmAddress, if_neg notZero,
        if_neg zeros]
      rfl

/-- A plain id comes back when shard and realm are 0 and 32 bits hold the number. -/
theorem readSolidity_eq_ok_iff {read : String → Except JsError EntityId}
    (reads : read = AccountId.fromSolidityAddress ∨ read = ContractId.fromSolidityAddress) :
    read (EntityIdHelper.toSolidityAddress shard realm num) = .ok { shard, realm, num } ↔
      shard = 0 ∧ realm = 0 ∧ num < 4294967296 := by
  rw [readSolidity_eq reads]
  constructor
  · intro back
    split at back
    · injection back with same
      injection same with shards realms nums
      exact ⟨by omega, by omega, low32_eq_iff.mp (by omega)⟩
    · injection back with same
      injection same with _ _ _ _ evmAddress
      cases evmAddress
  · rintro ⟨rfl, rfl, small⟩
    rw [if_pos ⟨low32_of_lt (by decide), low32_of_lt (by decide)⟩, low32_of_lt small]
    rfl

/-- What comes back of an address: from the helper, three numbers that fit 32 bits; from the classes,
numbers of shard and realm 0. Entities that come back share no address. -/
theorem solidity_address_comes_back_iff (toEvmAddress : PublicKey → String) (checksum : Option String) :
    (EntityIdHelper.fromSolidityAddress (EntityIdHelper.toSolidityAddress shard realm num) =
        .ok ((shard : Int), (realm : Int), (num : Int)) ↔
      shard < 4294967296 ∧ realm < 4294967296 ∧ num < 4294967296) ∧
    (AccountId.fromSolidityAddress
        (AccountId.toSolidityAddress toEvmAddress { shard, realm, num, checksum }) =
        .ok { shard, realm, num } ↔ shard = 0 ∧ realm = 0 ∧ num < 4294967296) ∧
    (ContractId.fromSolidityAddress (ContractId.toSolidityAddress { shard, realm, num, checksum }) =
        .ok { shard, realm, num } ↔ shard = 0 ∧ realm = 0 ∧ num < 4294967296) ∧
    ∀ shard' realm' num' : Nat,
      (shard < 4294967296 ∧ realm < 4294967296 ∧ num < 4294967296) →
      (shard' < 4294967296 ∧ realm' < 4294967296 ∧ num' < 4294967296) →
      EntityIdHelper.toSolidityAddress shard realm num =
        EntityIdHelper.toSolidityAddress shard' realm' num' →
      shard = shard' ∧ realm = realm' ∧ num = num' := by
  have helper (shard realm num : Nat) :
      EntityIdHelper.fromSolidityAddress (EntityIdHelper.toSolidityAddress shard realm num) =
        .ok ((shard : Int), (realm : Int), (num : Int)) ↔
      shard < 4294967296 ∧ realm < 4294967296 ∧ num < 4294967296 := by
    rw [EntityIdHelper.fromSolidityAddress_toSolidityAddress, ← @low32_eq_iff shard,
      ← @low32_eq_iff realm, ← @low32_eq_iff num]
    simp only [Except.ok.injEq, Prod.mk.injEq, Nat.cast_inj]
  refine ⟨helper shard realm num, readSolidity_eq_ok_iff (.inl rfl), readSolidity_eq_ok_iff (.inr rfl), ?_⟩
  intro shard' realm' num' small small' same
  have back := (helper shard realm num).mpr small
  rw [same, (helper shard' realm' num').mpr small'] at back
  simp only [Except.ok.injEq, Prod.mk.injEq, Nat.cast_inj] at back
  exact ⟨back.1.symm, back.2.1.symm, back.2.2.symm⟩

end RoundTrip

/-- The number 2^32 is written as 0. -/
theorem large_numbers_are_cut :
    ¬ ∀ shard realm num : Nat, shard < 4294967296 → realm < 9223372036854775808 →
      num < 9223372036854775808 →
        EntityIdHelper.fromSolidityAddress (EntityIdHelper.toSolidityAddress shard realm num) =
            .ok ((shard : Int), (realm : Int), (num : Int)) ∧
          ContractId.fromSolidityAddress (ContractId.toSolidityAddress { shard, realm, num }) =
            .ok { shard, realm, num } := by
  intro all
  have back := (all 0 0 4294967296 (by decide) (by decide) (by decide)).1
  revert back
  decide +kernel

end HederaSdk
