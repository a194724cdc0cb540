import HederaSdk.Network.Replacing
import HederaSdk.Transaction.PrefixProto
import Mathlib.Data.List.Pairwise

/-!
# The network of an address book

An address book is read into classes that print their endpoints, and the texts that are printed are
the addresses of the nodes. The class of an endpoint has no place for a domain name: its address is
two parts without numbers, and they print as a dot. All endpoints with a name are one address.
-/

namespace HederaSdk.AddressBook

open Library Network
open Js (Value)

/-! ## Messages -/

/-- A `ServiceEndpoint` as it is decoded. -/
structure EndpointMessage where
  ipAddressV4 : Bytes := []
  port : Int := 0
  domainName : String := ""
  deriving DecidableEq

/-- A `NodeAddress` as it is decoded. -/
structure NodeAddressMessage where
  nodeAccountId : Option Value := none
  serviceEndpoint : List EndpointMessage := []

/-! ## The classes -/

structure IPv4AddressPart where
  left : Option UInt8
  right : Option UInt8

def IPv4AddressPart.toString (part : IPv4AddressPart) : String :=
  match part.left, part.right with
  | some left, some right => s!"{left.toNat}.{right.toNat}"
  | _, _ => ""

structure IPv4Address where
  network : IPv4AddressPart
  host : IPv4AddressPart

namespace IPv4Address

/-- A byte that is not there is `undefined`. -/
def fromProtobuf (bytes : Bytes) : IPv4Address where
  network := { left := bytes[0]?, right := bytes[1]? }
  host := { left := bytes[2]?, right := bytes[3]? }

def toString (address : IPv4Address) : String := s!"{address.network.toString}.{address.host.toString}"

end IPv4Address

structure EndPoint where
  address : Option IPv4Address
  port : Option Int

namespace EndPoint

/-- The domain name is not read. -/
def fromProtobuf (endpoint : EndpointMessage) : EndPoint where
  address := some (.fromProtobuf endpoint.ipAddressV4)
  port := some endpoint.port

def toString (endpoint : EndPoint) : String :=
  let address := (endpoint.address.map (·.toString)).getD ""
  let port := (endpoint.port.map ToString.toString).getD ""
  s!"{address}:{port}"

end EndPoint

structure NodeAddress where
  accountId : Option AccountId
  addresses : List EndPoint

def NodeAddress.fromProtobuf (keys : KeyCodec) (nodeAddress : NodeAddressMessage) :
    Except JsError NodeAddress :=
  let addresses := nodeAddress.serviceEndpoint.map EndPoint.fromProtobuf
  match nodeAddress.nodeAccountId with
  | none => .ok { accountId := none, addresses }
  | some id =>
      match AccountId.fromProtobuf keys id with
      | .ok accountId => .ok { accountId := some accountId, addresses }
      | .error message => .error (.error message)

/-- `NodeAddressBook._fromProtobuf` -/
def fromProtobuf (keys : KeyCodec) (nodeAddress : List NodeAddressMessage) :
    Except JsError (List NodeAddress) :=
  nodeAddress.mapM (NodeAddress.fromProtobuf keys)

/-- The port that `setNetworkFromAddressBook` looks for. -/
def portInUse (net : Network) : Int := if net.transportSecurity then 50212 else 50211

/-- The map that `setNetworkFromAddressBook` builds. -/
def toNetwork (port : Int) (nodeAddresses : List NodeAddress) : OrderedMap String AccountId :=
  nodeAddresses.foldl (fun network nodeAddress =>
    nodeAddress.addresses.foldl (fun network endpoint =>
      match nodeAddress.accountId with
      | some accountId =>
          if endpoint.port = some port then network.set endpoint.toString accountId else network
      | none => network) network) .empty

def setNetworkFromAddressBook (nodeAddresses : List NodeAddress) (ω : Nat → Nat) (now : ℚ) :
    NetworkMethod Unit := do
  let net ← Method.this
  setNetwork main (toNetwork (portInUse net) nodeAddresses) ω now

/-! ## Endpoints and their names -/

/-- A name is more than the numbers of an address. -/
def IsDomainName (name : String) : Prop := ∃ c ∈ name.toList, c.isDigit = false ∧ c ≠ '.' ∧ c ≠ ':'

namespace EndpointMessage

/-- An endpoint is given by an IPv4 address or by a domain name. -/
def Given (endpoint : EndpointMessage) : Prop :=
  (endpoint.ipAddressV4.length = 4 ∧ endpoint.domainName = "") ∨
    (endpoint.ipAddressV4 = [] ∧ IsDomainName endpoint.domainName)

/-- What the endpoint is called. -/
def name (endpoint : EndpointMessage) : String :=
  match endpoint.ipAddressV4 with
  | [a, b, c, d] => s!"{a.toNat}.{b.toNat}.{c.toNat}.{d.toNat}:{endpoint.port}"
  | _ => s!"{endpoint.domainName}:{endpoint.port}"

/-- What it is printed as once it is read. -/
def printed (endpoint : EndpointMessage) : String := (EndPoint.fromProtobuf endpoint).toString

end EndpointMessage

namespace NodeAddressMessage

/-- The account id that is read of a node. -/
def accountId (keys : KeyCodec) (nodeAddress : NodeAddressMessage) : Option AccountId :=
  nodeAddress.nodeAccountId.bind fun id => (AccountId.fromProtobuf keys id).toOption

/-- The node has an endpoint on the port. -/
def On (port : Int) (nodeAddress : NodeAddressMessage) : Prop :=
  ∃ endpoint ∈ nodeAddress.serviceEndpoint, endpoint.port = port

/-- The node has an endpoint on the port that is given by an IPv4 address. -/
def OnIPv4 (port : Int) (nodeAddress : NodeAddressMessage) : Prop :=
  ∃ endpoint ∈ nodeAddress.serviceEndpoint, endpoint.port = port ∧ endpoint.ipAddressV4.length = 4

end NodeAddressMessage

/-- Every endpoint is given in one of the two ways, and no two nodes have the same one. -/
structure WellFormed (nodeAddresses : List NodeAddressMessage) : Prop where
  given : ∀ nodeAddress ∈ nodeAddresses, ∀ endpoint ∈ nodeAddress.serviceEndpoint, endpoint.Given
  distinct : nodeAddresses.Pairwise fun nodeAddress other =>
    ∀ endpoint ∈ nodeAddress.serviceEndpoint, endpoint ∉ other.serviceEndpoint

/-- What a call of `setNetworkFromAddressBook` is to do: every node on the port has a node with its
account at an address that is the name of one of its endpoints. -/
structure Lists (keys : KeyCodec) (port : Int) (nodeAddresses : List NodeAddressMessage)
    (outcome : Except JsError Unit × Network) : Prop where
  returned : outcome.1 = .ok ()
  nodes : ∀ nodeAddress ∈ nodeAddresses, ∀ accountId, nodeAddress.accountId keys = some accountId →
    nodeAddress.On port → ∃ r ∈ outcome.2.nodes,
      (outcome.2.heap r).accountId.toString = accountId.toString ∧
        ∃ endpoint ∈ nodeAddress.serviceEndpoint, (outcome.2.heap r).address.toString = endpoint.name

/-! ## Printed endpoints -/

/-- A byte in decimal digits. -/
def byteText (byte : UInt8) : List Char := Text.decimal byte.toNat

theorem isDigit_of_mem_byteText {byte : UInt8} {c : Char} (member : c ∈ byteText byte) : c.isDigit = true :=
  Text.isDigit_of_mem_decimal (Int.natCast_nonneg _) member

theorem byteText_injective : Function.Injective byteText := by
  intro a b same
  have numbers := Int.ofNat.inj (Text.decimal_injective same)
  exact UInt8.toNat_inj.mp numbers

theorem dot_not_mem_byteText (byte : UInt8) : '.' ∉ byteText byte := by
  intro member
  have digit := isDigit_of_mem_byteText member
  exact absurd digit (by decide)

theorem byteText_ne_nil (byte : UInt8) : byteText byte ≠ [] := Text.decimal_ne_nil _

theorem toList_part (left right : UInt8) :
    (IPv4AddressPart.toString ⟨some left, some right⟩).toList = byteText left ++ '.' :: byteText right := by
  have text : IPv4AddressPart.toString ⟨some left, some right⟩ =
      left.toNat.repr ++ "." ++ right.toNat.repr := rfl
  rw [text, String.toList_append, String.toList_append, List.append_assoc]
  rfl

theorem part_char {part : IPv4AddressPart} {c : Char} (member : c ∈ part.toString.toList) :
    c.isDigit = true ∨ c = '.' := by
  obtain ⟨left, right⟩ := part
  cases left with
  | none => cases member
  | some left =>
      cases right with
      | none => cases member
      | some right =>
          rw [toList_part, List.mem_append, List.mem_cons] at member
          rcases member with inLeft | dot | inRight
          · exact .inl (isDigit_of_mem_byteText inLeft)
          · exact .inr dot
          · exact .inl (isDigit_of_mem_byteText inRight)

theorem toList_address (address : IPv4Address) :
    address.toString.toList = address.network.toString.toList ++ '.' :: address.host.toString.toList := by
  have text : address.toString = address.network.toString ++ "." ++ address.host.toString := rfl
  rw [text, String.toList_append, String.toList_append, List.append_assoc]
  rfl

theorem address_char {address : IPv4Address} {c : Char} (member : c ∈ address.toString.toList) :
    c.isDigit = true ∨ c = '.' := by
  rw [toList_address, List.mem_append, List.mem_cons] at member
  rcases member with inNetwork | dot | inHost
  · exact part_char inNetwork
  · exact .inr dot
  · exact part_char inHost

theorem colon_not_mem_address (address : IPv4Address) : ':' ∉ address.toString.toList := by
  intro member
  rcases address_char member with digit | dot
  · exact absurd digit (by decide)
  · exact absurd dot (by decide)

theorem not_whitespace_of_digit {c : Char} (digit : c.isDigit = true) : isJsWhitespace c = false := by
  rw [← Bool.not_eq_true]
  intro white
  rcases Bool.or_eq_true_iff.mp white with listed | high
  · have member := of_decide_eq_true listed
    simp only [List.mem_cons, List.not_mem_nil, or_false] at member
    rcases member with rfl | rfl | rfl | rfl | rfl | rfl | rfl | rfl | rfl | rfl | rfl | rfl | rfl | rfl <;>
      exact absurd digit (by decide)
  · have above : 8192 ≤ c.toNat := of_decide_eq_true (Bool.and_eq_true_iff.mp high).1
    have below : c.toNat ≤ 57 := (Char.isDigit_iff_toNat.mp digit).2
    omega

/-- The address whose numbers are the bytes. -/
theorem toList_of_bytes (a b c d : UInt8) :
    (IPv4Address.fromProtobuf [a, b, c, d]).toString.toList =
      byteText a ++ '.' :: (byteText b ++ '.' :: (byteText c ++ '.' :: byteText d)) := by
  rw [toList_address]
  change (IPv4AddressPart.toString ⟨some a, some b⟩).toList ++
    '.' :: (IPv4AddressPart.toString ⟨some c, some d⟩).toList = _
  rw [toList_part, toList_part, List.append_assoc, List.cons_append]

theorem of_bytes_inj {bytes bytes' : Bytes} (four : bytes.length = 4) (four' : bytes'.length = 4)
    (same : (IPv4Address.fromProtobuf bytes).toString = (IPv4Address.fromProtobuf bytes').toString) :
    bytes = bytes' := by
  obtain ⟨a, b, c, d, rfl⟩ := List.length_eq_four.mp four
  obtain ⟨a', b', c', d', rfl⟩ := List.length_eq_four.mp four'
  have lists := congrArg String.toList same
  rw [toList_of_bytes, toList_of_bytes] at lists
  have noDot := dot_not_mem_byteText
  obtain ⟨first, lists⟩ := Text.separated_unique (noDot a) (noDot a') lists
  obtain ⟨second, lists⟩ := Text.separated_unique (noDot b) (noDot b') lists
  obtain ⟨third, fourth⟩ := Text.separated_unique (noDot c) (noDot c') lists
  rw [byteText_injective first, byteText_injective second, byteText_injective third,
    byteText_injective fourth]

namespace EndpointMessage

theorem toList_printed (endpoint : EndpointMessage) : endpoint.printed.toList =
    (IPv4Address.fromProtobuf endpoint.ipAddressV4).toString.toList ++
      ':' :: Text.decimal endpoint.port := by
  have text : endpoint.printed =
      (IPv4Address.fromProtobuf endpoint.ipAddressV4).toString ++ ":" ++ toString endpoint.port := rfl
  rw [text, String.toList_append, String.toList_append, List.append_assoc]
  rfl

/-- Endpoints that print the same have the same address and the same port. -/
theorem printed_inj {endpoint other : EndpointMessage} (same : endpoint.printed = other.printed) :
    (IPv4Address.fromProtobuf endpoint.ipAddressV4).toString =
        (IPv4Address.fromProtobuf other.ipAddressV4).toString ∧ endpoint.port = other.port := by
  have lists := congrArg String.toList same
  rw [toList_printed, toList_printed] at lists
  obtain ⟨addresses, ports⟩ :=
    Text.separated_unique (colon_not_mem_address _) (colon_not_mem_address _) lists
  exact ⟨String.toList_inj.mp addresses, Text.decimal_injective ports⟩

theorem printed_eq_name {endpoint : EndpointMessage} (ipv4 : endpoint.ipAddressV4.length = 4) :
    endpoint.printed = endpoint.name := by
  obtain ⟨bytes, port, domainName⟩ := endpoint
  obtain ⟨a, b, c, d, rfl⟩ := List.length_eq_four.mp ipv4
  apply String.toList_inj.mp
  rw [toList_printed, toList_of_bytes]
  have text : name ⟨[a, b, c, d], port, domainName⟩ = a.toNat.repr ++ "." ++ b.toNat.repr ++ "." ++
      c.toNat.repr ++ "." ++ d.toNat.repr ++ ":" ++ toString port := rfl
  rw [text]
  simp only [String.toList_append, List.append_assoc, List.cons_append]
  rfl

/-- An IPv4 address is printed for no other endpoint. -/
theorem eq_of_printed {endpoint other : EndpointMessage} (given : endpoint.Given) (otherGiven : other.Given)
    (ipv4 : endpoint.ipAddressV4.length = 4) (same : other.printed = endpoint.printed) : other = endpoint := by
  obtain ⟨addresses, ports⟩ := printed_inj same
  have unnamed : endpoint.domainName = "" := by
    rcases given with ⟨-, unnamed⟩ | ⟨empty, -⟩
    · exact unnamed
    · rw [empty] at ipv4
      cases ipv4
  obtain ⟨bytes, port, domainName⟩ := endpoint
  obtain ⟨otherBytes, otherPort, otherName⟩ := other
  rcases otherGiven with ⟨otherIPv4, otherUnnamed⟩ | ⟨empty, -⟩
  · have bytesSame : otherBytes = bytes := of_bytes_inj otherIPv4 ipv4 addresses
    simp only at ports unnamed otherUnnamed
    rw [bytesSame, ports, unnamed, otherUnnamed]
  · exfalso
    simp only at empty addresses ipv4
    obtain ⟨a, b, c, d, rfl⟩ := List.length_eq_four.mp ipv4
    have lists := congrArg String.toList addresses
    rw [empty, toList_of_bytes] at lists
    have lengths := congrArg List.length lists
    have first := List.length_pos_iff.mpr (byteText_ne_nil a)
    have second := List.length_pos_iff.mpr (byteText_ne_nil b)
    have short : (IPv4Address.fromProtobuf []).toString.toList.length = 1 := rfl
    rw [short] at lengths
    simp only [List.length_append, List.length_cons] at lengths
    omega

/-- A text that is printed names an endpoint on its port that is given by an IPv4 address, and no other. -/
theorem ipv4_of_name {endpoint other : EndpointMessage} (given : endpoint.Given) (positive : 0 ≤ other.port)
    (same : endpoint.name = other.printed) :
    endpoint.port = other.port ∧ endpoint.ipAddressV4.length = 4 := by
  rcases given with ⟨ipv4, -⟩ | ⟨empty, c, inName, notDigit, notDot, notColon⟩
  · rw [← printed_eq_name ipv4] at same
    exact ⟨(printed_inj same).2, ipv4⟩
  · exfalso
    have named : c ∈ endpoint.name.toList := by
      have text : endpoint.name = endpoint.domainName ++ ":" ++ toString endpoint.port := by
        unfold name
        rw [empty]
        rfl
      rw [text, String.toList_append, String.toList_append, List.append_assoc]
      exact List.mem_append_left _ inName
    rw [same, toList_printed, List.mem_append, List.mem_cons] at named
    rcases named with inAddress | colon | inPort
    · rcases address_char inAddress with digit | dot
      · rw [notDigit] at digit
        cases digit
      · exact notDot dot
    · exact notColon colon
    · rw [Text.isDigit_of_mem_decimal positive inPort] at notDigit
      cases notDigit

/-- What is printed is read as an address of a node. -/
theorem readable (endpoint : EndpointMessage) (positive : 0 ≤ endpoint.port) :
    ∃ address, ManagedNodeAddress.fromString endpoint.printed = .ok address ∧
      address.toString = endpoint.printed := by
  have text : ManagedNodeAddress.toString ⟨(IPv4Address.fromProtobuf endpoint.ipAddressV4).toString,
      endpoint.port.toNat⟩ = endpoint.printed := by
    apply String.toList_inj.mp
    rw [toList_printed]
    obtain ⟨n, natural⟩ := Int.eq_ofNat_of_zero_le positive
    rw [natural, Int.toNat_natCast]
    have text : ManagedNodeAddress.toString ⟨(IPv4Address.fromProtobuf endpoint.ipAddressV4).toString, n⟩ =
      (IPv4Address.fromProtobuf endpoint.ipAddressV4).toString ++ ":" ++ n.repr := rfl
    rw [text, String.toList_append, String.toList_append, List.append_assoc]
    rfl
  refine ⟨_, ?_, text⟩
  rw [← text]
  refine ManagedNodeAddress.fromString_toString ⟨fun empty => ?_, fun c member => ?_⟩
  · have lists := congrArg String.toList empty
    rw [toList_address] at lists
    exact absurd lists (by simp)
  · rcases address_char member with digit | rfl
    · exact not_whitespace_of_digit digit
    · decide

end EndpointMessage

/-! ## The map -/

section Map

variable {κ β : Type} [DecidableEq κ]

def setAll (map : OrderedMap κ β) (entries : List (κ × β)) : OrderedMap κ β :=
  entries.foldl (fun map entry => map.set entry.1 entry.2) map

theorem mem_of_setAll {map : OrderedMap κ β} {entries : List (κ × β)} {k : κ} {v : β}
    (found : (setAll map entries).get? k = some v) : (k, v) ∈ entries ∨ map.get? k = some v := by
  induction entries generalizing map with
  | nil => exact .inr found
  | cons entry rest inductionHypothesis =>
      rcases inductionHypothesis found with inRest | before
      · exact .inl (List.mem_cons_of_mem _ inRest)
      · rw [OrderedMap.get?_set] at before
        split at before
        · rename_i same
          cases before
          exact .inl (same ▸ List.mem_cons_self)
        · exact .inr before

/-- An entry stays when all entries of its key have its value. -/
theorem get?_setAll {map : OrderedMap κ β} {entries : List (κ × β)} {k : κ} {v : β}
    (agree : ∀ entry ∈ entries, entry.1 = k → entry.2 = v)
    (member : (k, v) ∈ entries ∨ map.get? k = some v) :
    (setAll map entries).get? k = some v := by
  induction entries generalizing map with
  | nil => exact member.resolve_left List.not_mem_nil
  | cons entry rest inductionHypothesis =>
      obtain ⟨first, others⟩ := List.forall_mem_cons.mp agree
      refine inductionHypothesis others ?_
      rw [OrderedMap.get?_set]
      by_cases same : entry.1 = k
      · rw [if_pos same, first same]
        exact .inr rfl
      · rw [if_neg same]
        rcases member with inEntries | before
        · rcases List.mem_cons.mp inEntries with rfl | inRest
          · exact absurd rfl same
          · exact .inl inRest
        · exact .inr before

end Map

/-- What a node of the book puts into the map. -/
def entries (port : Int) (nodeAddress : NodeAddress) : List (String × AccountId) :=
  match nodeAddress.accountId with
  | some accountId =>
      (nodeAddress.addresses.filter fun endpoint => endpoint.port = some port).map fun endpoint =>
        (endpoint.toString, accountId)
  | none => []

theorem toNetwork_eq (port : Int) (nodeAddresses : List NodeAddress) :
    toNetwork port nodeAddresses = setAll .empty (nodeAddresses.flatMap (entries port)) := by
  unfold toNetwork setAll
  rw [List.foldl_flatMap]
  congr 1
  funext map nodeAddress
  unfold entries
  cases nodeAddress.accountId with
  | none =>
      generalize nodeAddress.addresses = addresses
      induction addresses with
      | nil => rfl
      | cons endpoint rest inductionHypothesis => exact inductionHypothesis
  | some accountId =>
      rw [List.foldl_map, List.foldl_filter]
      congr 1
      funext map endpoint
      by_cases here : endpoint.port = some port
      · simp [here]
      · simp [here]

/-- A node as it is read. -/
def NodeAddressMessage.read (keys : KeyCodec) (nodeAddress : NodeAddressMessage) : NodeAddress where
  accountId := nodeAddress.accountId keys
  addresses := nodeAddress.serviceEndpoint.map EndPoint.fromProtobuf

theorem nodeAddress_eq {keys : KeyCodec} {message : NodeAddressMessage} {nodeAddress : NodeAddress}
    (read : NodeAddress.fromProtobuf keys message = .ok nodeAddress) : nodeAddress = message.read keys := by
  unfold NodeAddress.fromProtobuf at read
  unfold NodeAddressMessage.read NodeAddressMessage.accountId
  cases field : message.nodeAccountId with
  | none =>
      rw [field] at read
      cases read
      rfl
  | some id =>
      rw [field] at read
      simp only at read
      rw [Option.bind_some]
      cases outcome : AccountId.fromProtobuf keys id with
      | error e =>
          rw [outcome] at read
          cases read
      | ok accountId =>
          rw [outcome] at read
          cases read
          rfl

theorem nodeAddresses_eq {keys : KeyCodec} {messages : List NodeAddressMessage}
    {nodeAddresses : List NodeAddress} (read : fromProtobuf keys messages = .ok nodeAddresses) :
    nodeAddresses = messages.map (·.read keys) := by
  unfold fromProtobuf at read
  induction messages generalizing nodeAddresses with
  | nil =>
      cases read
      rfl
  | cons first rest inductionHypothesis =>
      rw [List.mapM_cons] at read
      obtain ⟨nodeAddress, readFirst, read⟩ := except_bind_eq_ok.mp read
      obtain ⟨others, readRest, read⟩ := except_bind_eq_ok.mp read
      cases read
      rw [List.map_cons, nodeAddress_eq readFirst, inductionHypothesis readRest]

variable {keys : KeyCodec} {port : Int} {messages : List NodeAddressMessage}

theorem mem_entries {text : String} {accountId : AccountId} :
    (text, accountId) ∈ (messages.map (·.read keys)).flatMap (entries port) ↔
      ∃ nodeAddress ∈ messages, nodeAddress.accountId keys = some accountId ∧
        ∃ endpoint ∈ nodeAddress.serviceEndpoint, endpoint.port = port ∧ endpoint.printed = text := by
  rw [List.flatMap_map, List.mem_flatMap]
  refine exists_congr fun nodeAddress => and_congr_right fun _ => ?_
  unfold entries NodeAddressMessage.read
  cases nodeAddress.accountId keys with
  | none => simp
  | some id =>
      simp only [List.mem_map, List.mem_filter, decide_eq_true_eq, Prod.mk.injEq, Option.some.injEq]
      constructor
      · rintro ⟨_, ⟨⟨endpoint, member, rfl⟩, onPort⟩, printed, same⟩
        exact ⟨same, endpoint, member, Option.some.inj onPort, printed⟩
      · rintro ⟨same, endpoint, member, onPort, printed⟩
        exact ⟨_, ⟨⟨endpoint, member, rfl⟩, congrArg some onPort⟩, printed, same⟩

/-- Only endpoints that are on the port are in the map. -/
theorem of_get?_toNetwork {text : String} {accountId : AccountId}
    (found : (toNetwork port (messages.map (·.read keys))).get? text = some accountId) :
    ∃ nodeAddress ∈ messages, nodeAddress.accountId keys = some accountId ∧
      ∃ endpoint ∈ nodeAddress.serviceEndpoint, endpoint.port = port ∧ endpoint.printed = text := by
  rw [toNetwork_eq] at found
  rcases mem_of_setAll found with member | empty
  · exact mem_entries.mp member
  · rw [OrderedMap.get?_empty] at empty
    cases empty

theorem WellFormed.same_node (wellFormed : WellFormed messages) {nodeAddress other : NodeAddressMessage}
    (member : nodeAddress ∈ messages) (otherMember : other ∈ messages) {endpoint : EndpointMessage}
    (own : endpoint ∈ nodeAddress.serviceEndpoint) (shared : endpoint ∈ other.serviceEndpoint) :
    other = nodeAddress := by
  by_contra different
  have symmetric : Std.Symm fun (a b : NodeAddressMessage) =>
      ∀ endpoint ∈ a.serviceEndpoint, endpoint ∉ b.serviceEndpoint :=
    ⟨fun _ _ apart endpoint inB inA => apart endpoint inA inB⟩
  exact wellFormed.distinct.forall member otherMember (Ne.symm different) endpoint own shared

/-- No node takes the place of one that has an IPv4 address. -/
theorem WellFormed.get?_toNetwork (wellFormed : WellFormed messages) {nodeAddress : NodeAddressMessage}
    (member : nodeAddress ∈ messages) {accountId : AccountId}
    (account : nodeAddress.accountId keys = some accountId) {endpoint : EndpointMessage}
    (own : endpoint ∈ nodeAddress.serviceEndpoint) (onPort : endpoint.port = port)
    (ipv4 : endpoint.ipAddressV4.length = 4) :
    (toNetwork port (messages.map (·.read keys))).get? endpoint.printed = some accountId := by
  rw [toNetwork_eq]
  refine get?_setAll ?_ (.inl (mem_entries.mpr ⟨nodeAddress, member, account, endpoint, own, onPort, rfl⟩))
  rintro ⟨text, otherId⟩ inEntries same
  obtain ⟨other, otherMember, otherAccount, otherEndpoint, otherOwn, -, printed⟩ := mem_entries.mp inEntries
  have sameEndpoint : otherEndpoint = endpoint :=
    EndpointMessage.eq_of_printed (wellFormed.given _ member _ own)
      (wellFormed.given _ otherMember _ otherOwn) ipv4 (printed.trans same)
  have sameNode := wellFormed.same_node member otherMember own (sameEndpoint ▸ otherOwn)
  rw [sameNode, account] at otherAccount
  exact (Option.some.inj otherAccount).symm

/-! ## The nodes of the network -/

theorem readable_toNetwork (positive : 0 ≤ port) :
    ∀ entry ∈ (toNetwork port (messages.map (·.read keys))).entries, ∃ address,
      ManagedNodeAddress.fromString entry.1 = .ok address ∧ address.toString = entry.1 := by
  rintro ⟨text, accountId⟩ member
  obtain ⟨_, _, _, endpoint, _, rfl, rfl⟩ := of_get?_toNetwork (OrderedMap.mem_entries_iff.mp member)
  exact endpoint.readable positive

/-- What the network is to be able to: close the nodes that the book does not list. -/
def CanClose (port : Int) (nodeAddresses : List NodeAddress) (net : Network) : Prop :=
  Closable main net (fun r => isObsolete (toNetwork port nodeAddresses) (net.heap r)) net.nodes

theorem lists_iff {net : Network} (keyed : Keyed main net) (positive : 0 ≤ port)
    (wellFormed : WellFormed messages) (ω : Nat → Nat) (now : ℚ) :
    Lists keys port messages
        ((setNetwork main (toNetwork port (messages.map (·.read keys))) ω now).run net) ↔
      CanClose port (messages.map (·.read keys)) net ∧
        ∀ nodeAddress ∈ messages, (nodeAddress.accountId keys).isSome → nodeAddress.On port →
          nodeAddress.OnIPv4 port := by
  have listed (closable : CanClose port (messages.map (·.read keys)) net) :=
    run_setNetwork_refreshed keyed (serves_main _) closable
      (fun entry member _ => @readable_toNetwork keys port messages positive entry member)
      (recognizes_main _ net) ω now
  constructor
  · intro lists
    have closable := closable_of_run_setNetwork keyed lists.returned
    refine ⟨closable, fun nodeAddress member hasAccount on => ?_⟩
    obtain ⟨accountId, account⟩ := Option.isSome_iff_exists.mp hasAccount
    obtain ⟨r, inNodes, -, endpoint, own, named⟩ := lists.nodes nodeAddress member accountId account on
    obtain ⟨-, left, refreshed⟩ := listed closable
    have inMap := (refreshed.mem_entries _).mp (List.mem_map.mpr ⟨r, inNodes, rfl⟩)
    obtain ⟨found, inEntries, same⟩ := List.mem_map.mp inMap
    obtain ⟨_, _, _, other, _, onPort, printed⟩ :=
      of_get?_toNetwork (OrderedMap.mem_entries_iff.mp inEntries)
    have text : endpoint.name = other.printed := by
      rw [← named, printed]
      exact (congrArg Prod.fst same).symm
    obtain ⟨ports, ipv4⟩ := EndpointMessage.ipv4_of_name (wellFormed.given _ member _ own)
      (onPort ▸ positive) text
    exact ⟨endpoint, own, ports.trans onPort, ipv4⟩
  · rintro ⟨closable, ipv4⟩
    obtain ⟨returned, left, refreshed⟩ := listed closable
    refine ⟨returned, fun nodeAddress member accountId account on => ?_⟩
    obtain ⟨endpoint, own, onPort, isIPv4⟩ :=
      ipv4 nodeAddress member (Option.isSome_iff_exists.mpr ⟨accountId, account⟩) on
    have found := wellFormed.get?_toNetwork member account own onPort isIPv4
    have inMap : (endpoint.printed, accountId.toString) ∈
        entriesOf main (toNetwork port (messages.map (·.read keys))) :=
      List.mem_map.mpr ⟨_, OrderedMap.mem_entries_iff.mpr found, rfl⟩
    obtain ⟨r, inNodes, same⟩ := List.mem_map.mp ((refreshed.mem_entries _).mpr inMap)
    refine ⟨r, inNodes, congrArg Prod.snd same, endpoint, own, ?_⟩
    rw [← EndpointMessage.printed_eq_name isIPv4]
    exact congrArg Prod.fst same

/-- After any calls, every node of the book that is on the port in use gets a node of the network exactly
when each is there with an IPv4 address and the nodes that the book does not list can be closed. -/
theorem setNetworkFromAddressBook_iff (start : ℚ) (calls : List (Call MainOp)) {nodeAddresses : List NodeAddress}
    (read : fromProtobuf keys messages = .ok nodeAddresses) (wellFormed : WellFormed messages)
    (draws : Nat → Nat) (now : ℚ) :
    Lists keys (portInUse (runAll mainStep (create start) calls)) messages
        ((setNetworkFromAddressBook nodeAddresses draws now).run (runAll mainStep (create start) calls)) ↔
      CanClose (portInUse (runAll mainStep (create start) calls)) nodeAddresses
          (runAll mainStep (create start) calls) ∧
        ∀ nodeAddress ∈ messages, (nodeAddress.accountId keys).isSome →
          nodeAddress.On (portInUse (runAll mainStep (create start) calls)) →
            nodeAddress.OnIPv4 (portInUse (runAll mainStep (create start) calls)) := by
  obtain rfl := nodeAddresses_eq read
  have keyed := (onNodes_runMain wellFormed_kept wellFormed_main wellFormed_copy start calls).1
  have positive (net : Network) : 0 ≤ portInUse net := by
    unfold portInUse
    split <;> decide
  exact lists_iff keyed (positive _) wellFormed draws now

/-! ## Two address books -/

def nodeAt (num : Int) (endpoint : EndpointMessage) : NodeAddressMessage where
  nodeAccountId := some ((AccountId.ofNum num).toProtobuf prefixKeys)
  serviceEndpoint := [endpoint]

/-- Two nodes with domain names. -/
def namedBook : List NodeAddressMessage :=
  [nodeAt 3 { port := 50211, domainName := "three.example" },
    nodeAt 4 { port := 50211, domainName := "four.example" }]

theorem wellFormed_namedBook : WellFormed namedBook where
  given := by
    intro nodeAddress member endpoint own
    simp only [namedBook, List.mem_cons, List.not_mem_nil, or_false] at member
    rcases member with rfl | rfl
    · obtain rfl := List.mem_singleton.mp own
      exact .inr ⟨rfl, 't', by decide, by decide, by decide, by decide⟩
    · obtain rfl := List.mem_singleton.mp own
      exact .inr ⟨rfl, 'f', by decide, by decide, by decide, by decide⟩
  distinct := by
    refine List.pairwise_pair.mpr fun endpoint own => ?_
    obtain rfl := List.mem_singleton.mp own
    decide

/-- The second node takes the place of the first, at an address that is the name of neither. -/
theorem namedBook_not_listed :
    ∃ nodeAddresses, fromProtobuf prefixKeys namedBook = .ok nodeAddresses ∧ WellFormed namedBook ∧
      ¬ Lists prefixKeys (portInUse (create 0)) namedBook
        ((setNetworkFromAddressBook nodeAddresses id 0).run (create 0)) := by
  refine ⟨_, rfl, wellFormed_namedBook, fun lists => ?_⟩
  obtain ⟨r, inNodes, -, endpoint, own, named⟩ := lists.nodes
    (nodeAt 3 { port := 50211, domainName := "three.example" }) List.mem_cons_self (.ofNum 3) rfl
    ⟨_, List.mem_cons_self, rfl⟩
  obtain rfl := List.mem_singleton.mp own
  revert inNodes named
  generalize r = node
  revert node
  decide +kernel

/-- Two nodes with IPv4 addresses, one of them with a domain name too. -/
def numberedBook : List NodeAddressMessage :=
  [nodeAt 3 { ipAddressV4 := [10, 0, 0, 3], port := 50211 },
    { nodeAt 4 { ipAddressV4 := [10, 0, 0, 4], port := 50211 } with
      serviceEndpoint :=
        [{ port := 50211, domainName := "four.example" }, { ipAddressV4 := [10, 0, 0, 4], port := 50211 }] }]

theorem numberedBook_listed :
    ∃ nodeAddresses, fromProtobuf prefixKeys numberedBook = .ok nodeAddresses ∧
      Lists prefixKeys (portInUse (create 0)) numberedBook
        ((setNetworkFromAddressBook nodeAddresses id 0).run (create 0)) := by
  have wellFormed : WellFormed numberedBook := by
    constructor
    · intro nodeAddress member endpoint own
      simp only [numberedBook, List.mem_cons, List.not_mem_nil, or_false] at member
      rcases member with rfl | rfl
      · obtain rfl := List.mem_singleton.mp own
        exact .inl ⟨rfl, rfl⟩
      · rcases List.mem_pair.mp own with rfl | rfl
        · exact .inr ⟨rfl, 'f', by decide, by decide, by decide, by decide⟩
        · exact .inl ⟨rfl, rfl⟩
    · refine List.pairwise_pair.mpr fun endpoint own => ?_
      obtain rfl := List.mem_singleton.mp own
      decide
  refine ⟨_, rfl, (setNetworkFromAddressBook_iff 0 [] rfl wellFormed id 0).mpr ⟨?_, ?_⟩⟩
  · intro before r after listed
    exact absurd listed (by simp [create])
  · intro nodeAddress member _ _
    simp only [numberedBook, List.mem_cons, List.not_mem_nil, or_false] at member
    rcases member with rfl | rfl
    · exact ⟨_, List.mem_cons_self, rfl, rfl⟩
    · exact ⟨_, List.mem_cons_of_mem _ List.mem_cons_self, rfl, rfl⟩

end HederaSdk.AddressBook
