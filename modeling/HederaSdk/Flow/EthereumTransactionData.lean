import HederaSdk.Cryptography.Hex
import HederaSdk.Flow.RecursiveLengthPrefix

/-!
# Reading Ethereum transactions

The first byte tells the kinds of transactions apart: the typed ones begin with their type, the
encoding of a list with a byte that is no type. The fields are hex text when they are read. An
entry of an access list is a list itself and no text, so that only transactions without entries
are read.
-/

namespace HederaSdk

open Library

/-- `rlp.encode` and `rlp.decode`, with the bytes in place of their hex text. -/
structure RlpCodec where
  encode : RlpTree → Bytes
  decode : Bytes → Except JsError RlpTree

namespace RlpCodec

def rlp (codec : RlpCodec) : Rlp where
  wire items := codec.encode (.list (items.map RlpItem.tree))

/-- The encoding as it is. -/
def standard : RlpCodec where
  encode := RlpTree.encode
  decode bytes :=
    match RlpTree.decode bytes with
    | some item => .ok item
    | none => .error (.error "invalid rlp data")

theorem standard_rlp : standard.rlp = EthereumFlow.recursiveLengthPrefix :=
  congrArg Rlp.mk (funext RlpTree.encode_items)

theorem standard_decode (item : RlpTree) (small : item.encode.length < 256 ^ 8) :
    standard.decode (standard.encode item) = .ok item := by
  change (match RlpTree.decode item.encode with | some item => _ | none => _) = _
  rw [RlpTree.decode_encode item small]

end RlpCodec

/-- `hex.decode(decoded)` -/
def RlpTree.hex : RlpTree → Except JsError Bytes
  | .data bytes => .ok (hexDecode ("0x" ++ hexEncode bytes))
  | .list _ => .error (.typeError "text.startsWith is not a function")

/-- `decoded[index].map((v) => hex.decode(v))` -/
def RlpTree.mapHex (index : Nat) : RlpTree → Except JsError (List Bytes)
  | .data _ => .error (.typeError s!"decoded[{index}].map is not a function")
  | .list items => items.mapM RlpTree.hex

namespace EthereumTransactionData

variable (codec : RlpCodec)

def fromBytesEip1559 (bytes : Bytes) : Except JsError EthereumTransactionData :=
  if bytes.length = 0 then .error (.error "empty bytes")
  else do
    match ← codec.decode (bytes.drop 1) with
    | .data _ => .error (.error "ethereum data is not a list")
    | .list [chainId, nonce, maxPriorityGas, maxGas, gasLimit, toAddress, value, callData, accessList, recId, r, s] =>
        let chainId ← chainId.hex
        let nonce ← nonce.hex
        let maxPriorityGas ← maxPriorityGas.hex
        let maxGas ← maxGas.hex
        let gasLimit ← gasLimit.hex
        let toAddress ← toAddress.hex
        let value ← value.hex
        let callData ← callData.hex
        let accessList ← accessList.mapHex 8
        let recId ← recId.hex
        let r ← r.hex
        let s ← s.hex
        .ok (.eip1559 chainId nonce maxPriorityGas maxGas gasLimit toAddress value callData accessList recId r s)
    | .list _ => .error (.error "invalid ethereum transaction data")

def fromBytesEip2930 (bytes : Bytes) : Except JsError EthereumTransactionData :=
  if bytes.length = 0 then .error (.error "empty bytes")
  else do
    match ← codec.decode (bytes.drop 1) with
    | .data _ => .error (.error "ethereum data is not a list")
    | .list [chainId, nonce, gasPrice, gasLimit, toAddress, value, callData, accessList, recId, r, s] =>
        let chainId ← chainId.hex
        let nonce ← nonce.hex
        let gasPrice ← gasPrice.hex
        let gasLimit ← gasLimit.hex
        let toAddress ← toAddress.hex
        let value ← value.hex
        let callData ← callData.hex
        let accessList ← accessList.mapHex 7
        let recId ← recId.hex
        let r ← r.hex
        let s ← s.hex
        .ok (.eip2930 chainId nonce gasPrice gasLimit toAddress value callData accessList recId r s)
    | .list _ => .error (.error "invalid ethereum transaction data")

/-- The hex text of bytes has no 9 characters, so it is not taken for a list. -/
def fromBytesLegacy (bytes : Bytes) : Except JsError EthereumTransactionData :=
  if bytes.length = 0 then .error (.error "empty bytes")
  else do
    match ← codec.decode bytes with
    | .list [nonce, gasPrice, gasLimit, toAddress, value, callData, v, r, s] =>
        let nonce ← nonce.hex
        let gasPrice ← gasPrice.hex
        let gasLimit ← gasLimit.hex
        let toAddress ← toAddress.hex
        let value ← value.hex
        let callData ← callData.hex
        let v ← v.hex
        let r ← r.hex
        let s ← s.hex
        .ok (.legacy nonce gasPrice gasLimit toAddress value callData v r s)
    | _ => .error (.error "invalid ethereum transaction data")

def fromBytes : Bytes → Except JsError EthereumTransactionData
  | [] => .error (.error "empty bytes")
  | b :: rest =>
      if b = 1 then fromBytesEip2930 codec (b :: rest)
      else if b = 2 then fromBytesEip1559 codec (b :: rest)
      else fromBytesLegacy codec (b :: rest)

/-- Reading the bytes and writing what was read gives them back. -/
def ComesBack (bytes : Bytes) : Prop := ∃ data, fromBytes codec bytes = .ok data ∧ data.toBytes codec.rlp = bytes

end EthereumTransactionData

/-! ## Signed transactions -/

structure AccessEntry where
  address : Bytes
  storageKeys : List Bytes

def AccessEntry.tree (entry : AccessEntry) : RlpTree :=
  .list [.data entry.address, .list (entry.storageKeys.map .data)]

/-- The fields of the transactions as Ethereum has them. -/
inductive SignedEthereumTransaction where
  | legacy (nonce gasPrice gasLimit toAddress value callData v r s : Bytes)
  | eip2930 (chainId nonce gasPrice gasLimit toAddress value callData : Bytes)
      (accessList : List AccessEntry) (recId r s : Bytes)
  | eip1559 (chainId nonce maxPriorityGas maxGas gasLimit toAddress value callData : Bytes)
      (accessList : List AccessEntry) (recId r s : Bytes)

namespace SignedEthereumTransaction

def accessList : SignedEthereumTransaction → List AccessEntry
  | legacy .. => []
  | eip2930 _ _ _ _ _ _ _ accessList _ _ _ => accessList
  | eip1559 _ _ _ _ _ _ _ _ accessList _ _ _ => accessList

def tree : SignedEthereumTransaction → RlpTree
  | legacy nonce gasPrice gasLimit toAddress value callData v r s =>
      .list ([nonce, gasPrice, gasLimit, toAddress, value, callData, v, r, s].map .data)
  | eip2930 chainId nonce gasPrice gasLimit toAddress value callData accessList recId r s =>
      .list ([chainId, nonce, gasPrice, gasLimit, toAddress, value, callData].map .data ++
        .list (accessList.map AccessEntry.tree) :: [recId, r, s].map .data)
  | eip1559 chainId nonce maxPriorityGas maxGas gasLimit toAddress value callData accessList recId r s =>
      .list ([chainId, nonce, maxPriorityGas, maxGas, gasLimit, toAddress, value, callData].map .data ++
        .list (accessList.map AccessEntry.tree) :: [recId, r, s].map .data)

def encoding (codec : RlpCodec) (transaction : SignedEthereumTransaction) : Bytes :=
  match transaction with
  | legacy .. => codec.encode transaction.tree
  | eip2930 .. => 1 :: codec.encode transaction.tree
  | eip1559 .. => 2 :: codec.encode transaction.tree

end SignedEthereumTransaction

/-! ## Fields -/

theorem hexDecode_prefixed (bytes : Bytes) : hexDecode ("0x" ++ hexEncode bytes) = bytes := by
  rw [hexDecode, String.toList_append]
  change decodePairs (hexEncode bytes).toList = bytes
  rw [hexEncode, String.toList_ofList, decodePairs_digits]

@[simp] theorem RlpTree.hex_data (bytes : Bytes) : (RlpTree.data bytes).hex = .ok bytes := by
  rw [hex, hexDecode_prefixed]

/-- An access list is read when it has no entries. -/
theorem RlpTree.mapHex_accessList (index : Nat) (accessList : List AccessEntry) :
    (RlpTree.list (accessList.map AccessEntry.tree)).mapHex index =
      if accessList = [] then .ok [] else .error (.typeError "text.startsWith is not a function") := by
  cases accessList with
  | nil => rfl
  | cons entry rest => rfl

namespace SignedEthereumTransaction

variable {codec : RlpCodec} {transaction : SignedEthereumTransaction}

/-- What is read, if anything is. -/
def data : SignedEthereumTransaction → EthereumTransactionData
  | legacy nonce gasPrice gasLimit toAddress value callData v r s =>
      .legacy nonce gasPrice gasLimit toAddress value callData v r s
  | eip2930 chainId nonce gasPrice gasLimit toAddress value callData _ recId r s =>
      .eip2930 chainId nonce gasPrice gasLimit toAddress value callData [] recId r s
  | eip1559 chainId nonce maxPriorityGas maxGas gasLimit toAddress value callData _ recId r s =>
      .eip1559 chainId nonce maxPriorityGas maxGas gasLimit toAddress value callData [] recId r s

open EthereumTransactionData

theorem fromBytes_encoding (inverse : codec.decode (codec.encode transaction.tree) = .ok transaction.tree)
    (header : ∃ b rest, codec.encode transaction.tree = b :: rest ∧ 0xc0 ≤ b) :
    fromBytes codec (transaction.encoding codec) =
      if transaction.accessList = [] then .ok transaction.data
      else .error (.typeError "text.startsWith is not a function") := by
  cases transaction with
  | legacy nonce gasPrice gasLimit toAddress value callData v r s =>
      obtain ⟨b, rest, written, high⟩ := header
      have notFirst : b ≠ 1 := by rintro rfl; exact absurd high (by decide)
      have notSecond : b ≠ 2 := by rintro rfl; exact absurd high (by decide)
      have present : ¬ (b :: rest).length = 0 := by simp
      change fromBytes codec (codec.encode _) = .ok _
      rw [written] at inverse ⊢
      rw [fromBytes, if_neg notFirst, if_neg notSecond, fromBytesLegacy, if_neg present, inverse]
      simp only [tree, List.map_cons, List.map_nil, bind, Except.bind, RlpTree.hex_data, data]
  | eip2930 chainId nonce gasPrice gasLimit toAddress value callData accessList recId r s =>
      change fromBytes codec (1 :: codec.encode _) = _
      rw [fromBytes, if_pos rfl, fromBytesEip2930, if_neg (by simp), List.drop_one, List.tail_cons, inverse]
      simp only [tree, List.map_cons, List.map_nil, List.cons_append, List.nil_append, bind, Except.bind,
        RlpTree.hex_data, RlpTree.mapHex_accessList, data, SignedEthereumTransaction.accessList]
      cases accessList with
      | nil => rfl
      | cons entry rest => rfl
  | eip1559 chainId nonce maxPriorityGas maxGas gasLimit toAddress value callData accessList recId r s =>
      change fromBytes codec (2 :: codec.encode _) = _
      rw [fromBytes, if_neg (by decide), if_pos rfl, fromBytesEip1559, if_neg (by simp), List.drop_one,
        List.tail_cons, inverse]
      simp only [tree, List.map_cons, List.map_nil, List.cons_append, List.nil_append, bind, Except.bind,
        RlpTree.hex_data, RlpTree.mapHex_accessList, data, SignedEthereumTransaction.accessList]
      cases accessList with
      | nil => rfl
      | cons entry rest => rfl

/-- What is read of a transaction without an access list is written as the transaction is. -/
theorem toBytes_data (codec : RlpCodec) (transaction : SignedEthereumTransaction)
    (without : transaction.accessList = []) :
    transaction.data.toBytes codec.rlp = transaction.encoding codec := by
  cases transaction with
  | legacy nonce gasPrice gasLimit toAddress value callData v r s =>
      exact hexDecode_prefixed _
  | eip2930 chainId nonce gasPrice gasLimit toAddress value callData accessList recId r s =>
      obtain rfl : accessList = [] := without
      exact hexDecode_typed codec.rlp _ 1
  | eip1559 chainId nonce maxPriorityGas maxGas gasLimit toAddress value callData accessList recId r s =>
      obtain rfl : accessList = [] := without
      exact hexDecode_typed codec.rlp _ 2

/-- A transaction comes back exactly when its access list is empty. -/
theorem bytes_comesBack_iff (codec : RlpCodec) (transaction : SignedEthereumTransaction)
    (inverse : codec.decode (codec.encode transaction.tree) = .ok transaction.tree)
    (header : ∃ b rest, codec.encode transaction.tree = b :: rest ∧ 0xc0 ≤ b) :
    ComesBack codec (transaction.encoding codec) ↔ transaction.accessList = [] := by
  have read := fromBytes_encoding inverse header
  constructor
  · rintro ⟨data, same, -⟩
    by_contra entries
    rw [read, if_neg entries] at same
    cases same
  · intro without
    exact ⟨transaction.data, by rw [read, if_pos without], toBytes_data codec transaction without⟩

/-- A list is written with a header that is no type. -/
theorem standard_header (items : List RlpTree) (small : (RlpTree.encodeAll items).length < 256 ^ 8) :
    ∃ b rest, RlpCodec.standard.encode (.list items) = b :: rest ∧ 0xc0 ≤ b := by
  obtain ⟨b, tail, written, least, -, -⟩ :=
    @RlpTree.readPayload_header 0xc0 (by decide) (RlpTree.encodeAll items) small []
  refine ⟨b, tail, ?_, UInt8.le_iff_toNat_le.mpr least⟩
  rw [List.append_nil] at written
  exact written

/-- A transfer of one unit without an access list. -/
def transfer : SignedEthereumTransaction :=
  .eip1559 [1] [] [] [7] [0x52, 0x08] (List.replicate 20 0x61) [1] [] [] [1] [5] [6]

theorem transfer_comes_back :
    ComesBack RlpCodec.standard (transfer.encoding RlpCodec.standard) := by
  have small : (RlpTree.encode transfer.tree).length < 256 ^ 8 := by decide +kernel
  apply (bytes_comesBack_iff RlpCodec.standard transfer (RlpCodec.standard_decode _ small) ?_).mpr rfl
  exact standard_header _ ((RlpTree.length_encodeAll_lt _).trans small)

/-- A transaction with one address in its access list. -/
def listed : SignedEthereumTransaction :=
  .eip2930 [1] [] [7] [0x52, 0x08] (List.replicate 20 0x61) [1] [] [⟨List.replicate 20 0x62, []⟩] [1] [5] [6]

theorem access_list_is_not_read :
    fromBytes RlpCodec.standard (listed.encoding RlpCodec.standard) =
        .error (.typeError "text.startsWith is not a function") ∧
      ¬ ComesBack RlpCodec.standard (listed.encoding RlpCodec.standard) := by
  have small : (RlpTree.encode listed.tree).length < 256 ^ 8 := by decide +kernel
  have read : fromBytes RlpCodec.standard (listed.encoding RlpCodec.standard) =
      .error (.typeError "text.startsWith is not a function") :=
    fromBytes_encoding (RlpCodec.standard_decode _ small)
      (standard_header _ ((RlpTree.length_encodeAll_lt _).trans small))
  refine ⟨read, ?_⟩
  rintro ⟨data, same, -⟩
  rw [read] at same
  cases same

end SignedEthereumTransaction

end HederaSdk
