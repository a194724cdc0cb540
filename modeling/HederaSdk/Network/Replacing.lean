import HederaSdk.Network.NodeInvariants

/-!
# Replacing the nodes

`setNetwork` turns the nodes into those of the new map: one node for each entry, the
old object where the entry is known, and every other old node is closed. `Replaces`
says so of one call. The main network does it when the nodes to be closed are filed
and no two nodes share an entry; the mirror network closes every node, so it does it
only when it knows no address of the map.
-/

namespace HederaSdk.Network

open Library

variable {V : Type} {cls : NetworkClass V}

/-- The address and the key of a node. -/
def entryOf (cls : NetworkClass V) (net : Network) (r : NodeRef) : String × String :=
  ((net.heap r).address.toString, keyOf cls net r)

/-- The addresses and keys of a map. -/
def entriesOf (cls : NetworkClass V) (map : OrderedMap String V) : List (String × String) :=
  map.entries.map fun entry => (entry.1, cls.text entry.2)

/-- What a call of `setNetwork` is to do. -/
structure Replaces (cls : NetworkClass V) (map : OrderedMap String V) (net : Network)
    (outcome : Except JsError Unit × Network) : Prop where
  returned : outcome.1 = .ok ()
  /-- One node for each entry, and no other. -/
  entries : (outcome.2.nodes.map (entryOf cls outcome.2)).Perm (entriesOf cls map)
  /-- The same object, as it was. -/
  kept : ∀ r ∈ net.nodes, entryOf cls net r ∈ entriesOf cls map →
    r ∈ outcome.2.nodes ∧ outcome.2.heap r = net.heap r
  closed : ∀ r ∈ net.nodes, entryOf cls net r ∉ entriesOf cls map →
    r ∉ outcome.2.nodes ∧ outcome.2.heap r = (net.heap r).close

/-- The condition on the network and the map. -/
structure Replaceable (cls : NetworkClass V) (map : OrderedMap String V) (net : Network) : Prop where
  /-- The nodes to be closed are found in the index. -/
  closable : Closable cls net (fun r => cls.isObsolete map (net.heap r)) net.nodes
  /-- The addresses that are new are a host and a port, as they are printed. -/
  readable : ∀ entry ∈ map.entries, (entry.1, cls.text entry.2) ∉ net.nodes.map (entryOf cls net) →
    ∃ address, ManagedNodeAddress.fromString entry.1 = .ok address ∧ address.toString = entry.1
  /-- No two nodes have the address and key of one entry. -/
  different : ∀ r ∈ net.nodes, ∀ r' ∈ net.nodes, entryOf cls net r ∈ entriesOf cls map →
    entryOf cls net r' = entryOf cls net r → r' = r

/-- No node with an entry is found obsolete. -/
def Recognizes (cls : NetworkClass V) (map : OrderedMap String V) (net : Network) : Prop :=
  ∀ r ∈ net.nodes, entryOf cls net r ∈ entriesOf cls map → cls.isObsolete map (net.heap r) = false

/-! ## One call -/

theorem nodup_entriesOf (map : OrderedMap String V) : (entriesOf cls map).Nodup := by
  have keys : ((entriesOf cls map).map Prod.fst).Nodup := by
    simpa [entriesOf, Function.comp_def] using map.nodup
  exact List.Nodup.of_map _ keys

theorem mem_entriesOf_inj {map : OrderedMap String V} {address first second : String}
    (inFirst : (address, first) ∈ entriesOf cls map)
    (inSecond : (address, second) ∈ entriesOf cls map) : first = second := by
  obtain ⟨⟨a, v⟩, member, same⟩ := List.mem_map.mp inFirst
  obtain ⟨⟨b, w⟩, member', same'⟩ := List.mem_map.mp inSecond
  cases same
  cases same'
  have found := OrderedMap.mem_entries_iff.mp member
  have found' := OrderedMap.mem_entries_iff.mp member'
  rw [found] at found'
  cases found'
  rfl

/-- The entries that are missing are those that no node left has, when all nodes left
have an entry of the map. -/
theorem mem_missingFrom {map : OrderedMap String V} {left : Network}
    (known : ∀ r ∈ left.nodes, entryOf cls left r ∈ entriesOf cls map) {entry : String × V} :
    entry ∈ missingFrom cls map left ↔
      entry ∈ map.entries ∧ (entry.1, cls.text entry.2) ∉ left.nodes.map (entryOf cls left) := by
  rw [missingFrom, missing, List.mem_filter]
  refine and_congr_right fun member => ?_
  rw [Bool.not_eq_true', ← Bool.not_eq_true, Bool.and_eq_true, not_iff_not]
  simp only [List.any_map, List.any_eq_true, Function.comp_apply, decide_eq_true_eq, List.mem_map]
  constructor
  · rintro ⟨-, r, inNodes, address⟩
    have inMap : (entry.1, cls.text entry.2) ∈ entriesOf cls map :=
      List.mem_map.mpr ⟨entry, member, rfl⟩
    have own := known r inNodes
    rw [entryOf, address] at own
    exact ⟨r, inNodes, Prod.ext address (mem_entriesOf_inj own inMap)⟩
  · rintro ⟨r, inNodes, same⟩
    exact ⟨⟨r, inNodes, congrArg Prod.snd same⟩, r, inNodes, congrArg Prod.fst same⟩

/-- What a class has to do for a map: find every node without an entry obsolete, and make
a node of its own for an entry whose address can be read. -/
structure Serves (cls : NetworkClass V) (map : OrderedMap String V) : Prop where
  obsolete : ∀ node : Node, (node.address.toString, cls.getKey node) ∉ entriesOf cls map →
    cls.isObsolete map node = true
  creates : ∀ entry ∈ map.entries, ∀ address, ManagedNodeAddress.fromString entry.1 = .ok address →
    address.toString = entry.1 → ∀ minBackoff now, ∃ node,
      cls.createNodeFromNetworkEntry minBackoff now entry.1 entry.2 = .ok node ∧
        (node.address.toString, cls.getKey node) = (entry.1, cls.text entry.2)

theorem entryOf_congr {net net' : Network} {r : NodeRef} (same : net'.heap r = net.heap r) :
    entryOf cls net' r = entryOf cls net r := by
  rw [entryOf, entryOf, keyOf, keyOf, same]

/-- The new nodes have the missing entries. -/
theorem MadeFor.entries {now : ℚ} {entries : List (String × V)} {net net' : Network}
    {fresh : List NodeRef} (made : MadeFor cls now entries net net' fresh)
    (creates : ∀ entry ∈ entries, ∀ minBackoff now, ∃ node,
      cls.createNodeFromNetworkEntry minBackoff now entry.1 entry.2 = .ok node ∧
        (node.address.toString, cls.getKey node) = (entry.1, cls.text entry.2)) :
    fresh.map (entryOf cls net') = entries.map fun entry => (entry.1, cls.text entry.2) := by
  have each := made.made
  clear made
  induction each with
  | nil => rfl
  | cons created _ inductionHypothesis =>
      obtain ⟨node, createdAs, same⟩ := creates _ List.mem_cons_self net.minBackoff now
      rw [createdAs] at created
      have own := Except.ok.inj created
      rw [List.map_cons, List.map_cons,
        inductionHypothesis fun entry member => creates entry (List.mem_cons_of_mem _ member)]
      congr 1
      rw [entryOf, keyOf, ← own]
      exact same

/-- The network between the closing of the old nodes and the creation of the new ones. -/
structure Emptied (cls : NetworkClass V) (map : OrderedMap String V) (net left : Network) : Prop where
  trimmed : Trimmed net left
  nodes : ∀ r, r ∈ left.nodes ↔ r ∈ net.nodes ∧ entryOf cls net r ∈ entriesOf cls map
  kept : ∀ r ∈ left.nodes, left.heap r = net.heap r
  closed : ∀ r ∈ net.nodes, entryOf cls net r ∉ entriesOf cls map →
    left.heap r = (net.heap r).close

theorem run_setNetwork_of_recognizes {map : OrderedMap String V} {net : Network}
    (keyed : Keyed cls net) (serves : Serves cls map)
    (closable : Closable cls net (fun r => cls.isObsolete map (net.heap r)) net.nodes)
    (recognizes : Recognizes cls map net) (ω : Nat → Nat) (now : ℚ) :
    ∃ left, Emptied cls map net left ∧
      (setNetwork cls map ω now).run net = (fillNetwork cls map ω now).run left := by
  obtain ⟨left, trimmed, nodes, heap, ran⟩ := run_setNetwork_of_closable keyed closable ω now
  have obsolete : ∀ r ∈ net.nodes,
      (cls.isObsolete map (net.heap r) = true ↔ entryOf cls net r ∉ entriesOf cls map) := by
    intro r member
    refine ⟨fun isObsolete inMap => ?_, serves.obsolete (net.heap r)⟩
    rw [recognizes r member inMap] at isObsolete
    cases isObsolete
  have stays : ∀ r, r ∈ left.nodes ↔ r ∈ net.nodes ∧ entryOf cls net r ∈ entriesOf cls map := by
    intro r
    rw [nodes, List.mem_filter]
    refine and_congr_right fun member => ?_
    rw [Bool.not_eq_true', ← Bool.not_eq_true, obsolete r member, not_not]
  refine ⟨left, ⟨trimmed, stays, fun r member => ?_, fun r member notInMap => ?_⟩, ran⟩
  · obtain ⟨old, inMap⟩ := (stays r).mp member
    rw [heap, if_neg]
    exact fun h => (obsolete r old).mp h.2 inMap
  · rw [heap, if_pos ⟨member, (obsolete r member).mpr notInMap⟩]

theorem Emptied.known {map : OrderedMap String V} {net left : Network}
    (emptied : Emptied cls map net left) :
    ∀ r ∈ left.nodes, entryOf cls left r ∈ entriesOf cls map := by
  intro r member
  rw [entryOf_congr (emptied.kept r member)]
  exact ((emptied.nodes r).mp member).2

/-- An entry is missing when no node of the network had it. -/
theorem Emptied.mem_missingFrom {map : OrderedMap String V} {net left : Network}
    (emptied : Emptied cls map net left) {entry : String × V} (missing : entry ∈ missingFrom cls map left) :
    entry ∈ map.entries ∧ (entry.1, cls.text entry.2) ∉ net.nodes.map (entryOf cls net) := by
  obtain ⟨member, unknown⟩ := (Network.mem_missingFrom emptied.known).mp missing
  refine ⟨member, fun known => unknown ?_⟩
  obtain ⟨r, inNodes, same⟩ := List.mem_map.mp known
  have inMap : entryOf cls net r ∈ entriesOf cls map := same ▸ List.mem_map.mpr ⟨entry, member, rfl⟩
  have inLeft := (emptied.nodes r).mpr ⟨inNodes, inMap⟩
  exact List.mem_map.mpr ⟨r, inLeft, (entryOf_congr (emptied.kept r inLeft)).trans same⟩

theorem Refilled.mem_nodes {map : OrderedMap String V} {now : ℚ} {net left net' : Network}
    {fresh : List NodeRef} (refilled : Refilled cls map now left net' fresh)
    (trimmed : Trimmed net left) (listed : Listed net net.nodes) {r : NodeRef} (old : r ∈ net.nodes) :
    r ∈ net'.nodes ↔ r ∈ left.nodes := by
  have notFresh : r ∉ fresh := fun isFresh =>
    absurd (trimmed.allocated ▸ listed.allocated r old)
      (Nat.not_lt.mpr (refilled.made.new r isFresh).1)
  rw [refilled.nodes.mem_iff, List.mem_append]
  exact ⟨fun h => h.resolve_right notFresh, .inl⟩

/-- The network with the nodes that were left and a node for each entry that was missing. -/
structure Refreshed (cls : NetworkClass V) (map : OrderedMap String V) (net left net' : Network) :
    Prop where
  emptied : Emptied cls map net left
  perm : (net'.nodes.map (entryOf cls net')).Perm
    (left.nodes.map (entryOf cls net) ++
      (missingFrom cls map left).map fun entry => (entry.1, cls.text entry.2))
  mem_nodes : ∀ r ∈ net.nodes, (r ∈ net'.nodes ↔ r ∈ left.nodes)
  heap : ∀ r ∈ net.nodes, net'.heap r = left.heap r

theorem run_setNetwork_refreshed {map : OrderedMap String V} {net : Network} (keyed : Keyed cls net)
    (serves : Serves cls map)
    (closable : Closable cls net (fun r => cls.isObsolete map (net.heap r)) net.nodes)
    (readable : ∀ entry ∈ map.entries, (entry.1, cls.text entry.2) ∉ net.nodes.map (entryOf cls net) →
      ∃ address, ManagedNodeAddress.fromString entry.1 = .ok address ∧ address.toString = entry.1)
    (recognizes : Recognizes cls map net) (ω : Nat → Nat) (now : ℚ) :
    ((setNetwork cls map ω now).run net).1 = .ok () ∧
      ∃ left, Refreshed cls map net left ((setNetwork cls map ω now).run net).2 := by
  obtain ⟨left, emptied, ran⟩ := run_setNetwork_of_recognizes keyed serves closable recognizes ω now
  have creates : ∀ entry ∈ missingFrom cls map left, ∀ minBackoff now, ∃ node,
      cls.createNodeFromNetworkEntry minBackoff now entry.1 entry.2 = .ok node ∧
        (node.address.toString, cls.getKey node) = (entry.1, cls.text entry.2) := by
    intro entry isMissing
    obtain ⟨member, unknown⟩ := emptied.mem_missingFrom isMissing
    obtain ⟨address, read, printed⟩ := readable entry member unknown
    exact serves.creates entry member address read printed
  have filled := run_fillNetwork_refilled cls map ω now left
  rw [ran]
  generalize (fillNetwork cls map ω now).run left = outcome at filled
  obtain ⟨e | _, net'⟩ := outcome
  · obtain ⟨-, entry, isMissing, failed⟩ := filled
    obtain ⟨node, created, -⟩ := creates entry isMissing left.minBackoff now
    rw [created] at failed
    cases failed
  · obtain ⟨fresh, refilled⟩ := filled
    have oldHeap : ∀ r ∈ net.nodes, net'.heap r = left.heap r := fun r member =>
      refilled.made.grown.heap r (emptied.trimmed.allocated ▸ keyed.listed.allocated r member)
    refine ⟨rfl, left, emptied, ?_, fun r => refilled.mem_nodes emptied.trimmed keyed.listed, oldHeap⟩
    have leftEntries : left.nodes.map (entryOf cls net') = left.nodes.map (entryOf cls net) := by
      refine List.map_congr_left fun r member => entryOf_congr ?_
      rw [oldHeap r ((emptied.nodes r).mp member).1, emptied.kept r member]
    have freshEntries : fresh.map (entryOf cls net') =
        (missingFrom cls map left).map fun entry => (entry.1, cls.text entry.2) :=
      refilled.made.entries creates
    rw [← leftEntries, ← freshEntries, ← List.map_append]
    exact refilled.nodes.map _

/-- The nodes have the entries of the map. -/
theorem Refreshed.mem_entries {map : OrderedMap String V} {net left net' : Network}
    (refreshed : Refreshed cls map net left net') (pair : String × String) :
    pair ∈ net'.nodes.map (entryOf cls net') ↔ pair ∈ entriesOf cls map := by
  have emptied := refreshed.emptied
  rw [refreshed.perm.mem_iff, List.mem_append]
  constructor
  · rintro (inLeft | inMissing)
    · obtain ⟨r, member, rfl⟩ := List.mem_map.mp inLeft
      exact ((emptied.nodes r).mp member).2
    · obtain ⟨entry, isMissing, rfl⟩ := List.mem_map.mp inMissing
      exact List.mem_map.mpr ⟨entry, (emptied.mem_missingFrom isMissing).1, rfl⟩
  · intro inMap
    obtain ⟨entry, member, rfl⟩ := List.mem_map.mp inMap
    by_cases inLeft : (entry.1, cls.text entry.2) ∈ left.nodes.map (entryOf cls left)
    · obtain ⟨r, inNodes, same⟩ := List.mem_map.mp inLeft
      exact .inl (List.mem_map.mpr ⟨r, inNodes,
        (entryOf_congr (emptied.kept r inNodes)).symm.trans same⟩)
    · exact .inr (List.mem_map.mpr
        ⟨entry, (mem_missingFrom emptied.known).mpr ⟨member, inLeft⟩, rfl⟩)

theorem replaces_of_replaceable {map : OrderedMap String V} {net : Network} (keyed : Keyed cls net)
    (serves : Serves cls map) (replaceable : Replaceable cls map net)
    (recognizes : Recognizes cls map net) (ω : Nat → Nat) (now : ℚ) :
    Replaces cls map net ((setNetwork cls map ω now).run net) := by
  obtain ⟨returned, left, refreshed⟩ := run_setNetwork_refreshed keyed serves replaceable.closable
    replaceable.readable recognizes ω now
  have emptied := refreshed.emptied
  refine ⟨returned, ?_, ?_, ?_⟩
  · refine (List.perm_ext_iff_of_nodup (refreshed.perm.nodup_iff.mpr ?_) (nodup_entriesOf map)).mpr
      refreshed.mem_entries
    refine List.Nodup.append ?_ ?_ ?_
    · refine List.Nodup.map_on (fun r member r' member' same => ?_)
        (keyed.listed.nodup.sublist emptied.trimmed.nodes)
      obtain ⟨old, inMap⟩ := (emptied.nodes r').mp member'
      exact replaceable.different r' old r ((emptied.nodes r).mp member).1 inMap same
    · have sub : ((missingFrom cls map left).map fun entry =>
          (entry.1, cls.text entry.2)).Sublist (entriesOf cls map) :=
        List.filter_sublist.map _
      exact (nodup_entriesOf map).sublist sub
    · intro pair inLeft inMissing
      obtain ⟨entry, isMissing, rfl⟩ := List.mem_map.mp inMissing
      refine (emptied.mem_missingFrom isMissing).2 ?_
      exact (emptied.trimmed.nodes.map _).mem inLeft
  · intro r member inMap
    have inLeft := (emptied.nodes r).mpr ⟨member, inMap⟩
    exact ⟨(refreshed.mem_nodes r member).mpr inLeft,
      (refreshed.heap r member).trans (emptied.kept r inLeft)⟩
  · intro r member notInMap
    refine ⟨fun stays => ?_, (refreshed.heap r member).trans (emptied.closed r member notInMap)⟩
    have inLeft := (refreshed.mem_nodes r member).mp stays
    exact notInMap ((emptied.nodes r).mp inLeft).2

theorem recognizes_of_replaces {map : OrderedMap String V} {net : Network} (keyed : Keyed cls net)
    {ω : Nat → Nat} {now : ℚ}
    (replaces : Replaces cls map net ((setNetwork cls map ω now).run net)) :
    Recognizes cls map net := by
  intro r member inMap
  obtain ⟨left, trimmed, nodes, -, ran⟩ := run_setNetwork_of_closable keyed
    (closable_of_run_setNetwork keyed replaces.returned) ω now
  have stays := (replaces.kept r member inMap).1
  have returned := replaces.returned
  have filled := run_fillNetwork_refilled cls map ω now left
  rw [ran] at stays returned
  generalize (fillNetwork cls map ω now).run left = outcome at filled stays returned
  obtain ⟨e | _, net'⟩ := outcome
  · cases returned
  · obtain ⟨fresh, refilled⟩ := filled
    have inLeft := (refilled.mem_nodes trimmed keyed.listed member).mp stays
    rw [nodes, List.mem_filter] at inLeft
    simpa using inLeft.2

theorem replaceable_of_replaces {map : OrderedMap String V} {net : Network} (keyed : Keyed cls net)
    (wellFormed : OnNodes (fun node => node.address.WellFormed) net)
    (new : HeldByNew cls fun node => node.address.WellFormed) {ω : Nat → Nat} {now : ℚ}
    (replaces : Replaces cls map net ((setNetwork cls map ω now).run net)) :
    Replaceable cls map net where
  closable := closable_of_run_setNetwork keyed replaces.returned
  readable := by
    intro entry member _
    have inMap : (entry.1, cls.text entry.2) ∈ entriesOf cls map := List.mem_map.mpr ⟨entry, member, rfl⟩
    obtain ⟨r, inNodes, same⟩ := List.mem_map.mp (replaces.entries.mem_iff.mpr inMap)
    have printed : (entryOf cls ((setNetwork cls map ω now).run net).2 r).1 = entry.1 :=
      congrArg Prod.fst same
    refine ⟨_, ?_, printed⟩
    rw [← printed]
    exact ManagedNodeAddress.fromString_toString
      (wellFormed.setNetwork keyed.listed (fun _ => id) new map ω now r inNodes)
  different := by
    intro r member r' member' inMap same
    obtain ⟨stays, sameNode⟩ := replaces.kept r member inMap
    obtain ⟨stays', sameNode'⟩ := replaces.kept r' member' (same ▸ inMap)
    have nodup := replaces.entries.nodup_iff.mpr (nodup_entriesOf map)
    refine List.inj_on_of_nodup_map nodup stays' stays ?_
    rw [entryOf_congr sameNode', entryOf_congr sameNode, same]

/-! ## The main network -/

theorem mem_entriesOf_main {map : OrderedMap String AccountId} {node : Node} :
    (node.address.toString, main.getKey node) ∈ entriesOf main map ↔
      ∃ accountId, map.get? node.address.toString = some accountId ∧
        accountId.toString = node.accountId.toString := by
  rw [entriesOf, List.mem_map]
  constructor
  · rintro ⟨⟨address, accountId⟩, member, same⟩
    have found := OrderedMap.mem_entries_iff.mp member
    rw [show address = node.address.toString from congrArg Prod.fst same] at found
    exact ⟨accountId, found, congrArg Prod.snd same⟩
  · rintro ⟨accountId, found, same⟩
    exact ⟨_, OrderedMap.mem_entries_iff.mpr found, Prod.ext rfl same⟩

theorem isObsolete_iff {map : OrderedMap String AccountId} {node : Node} :
    isObsolete map node = true ↔
      (node.address.toString, main.getKey node) ∉ entriesOf main map := by
  rw [mem_entriesOf_main, isObsolete]
  cases found : map.get? node.address.toString with
  | none => simp
  | some accountId => simp

theorem serves_main (map : OrderedMap String AccountId) : Serves main map where
  obsolete := fun _ => isObsolete_iff.mpr
  creates := by
    intro entry _ address read printed minBackoff now
    refine ⟨(Node.create address entry.2 now).setMinBackoff minBackoff, ?_, Prod.ext printed rfl⟩
    change createNodeFromNetworkEntry minBackoff now entry.1 entry.2 = _
    rw [createNodeFromNetworkEntry, read]

theorem recognizes_main (map : OrderedMap String AccountId) (net : Network) :
    Recognizes main map net := by
  intro r _ inMap
  rw [← Bool.not_eq_true]
  exact fun isObsolete => isObsolete_iff.mp isObsolete inMap

/-! ## The mirror network -/

theorem get?_mirrorMap (network : List String) (key : String) :
    (mirrorMap network).get? key = if key ∈ network then some key else none := by
  have sets (network : List String) (map : OrderedMap String String) :
      (network.foldl (fun map address => map.set address address) map).get? key =
        if key ∈ network then some key else map.get? key := by
    induction network generalizing map with
    | nil => simp
    | cons address rest inductionHypothesis =>
        rw [List.foldl_cons, inductionHypothesis, OrderedMap.get?_set]
        by_cases later : key ∈ rest
        · simp [later]
        · by_cases same : address = key
          · simp [same]
          · simp [later, same, Ne.symm same]
  rw [mirrorMap, sets, OrderedMap.get?_empty]

theorem mem_entriesOf_mirror {network : List String} {node : Node} :
    (node.address.toString, mirror.getKey node) ∈ entriesOf mirror (mirrorMap network) ↔
      node.address.toString ∈ network := by
  rw [entriesOf, List.mem_map]
  constructor
  · rintro ⟨⟨address, value⟩, member, same⟩
    have found := OrderedMap.mem_entries_iff.mp member
    rw [get?_mirrorMap] at found
    split at found
    · rename_i inNetwork
      have own : address = node.address.toString := congrArg Prod.fst same
      exact own ▸ inNetwork
    · cases found
  · intro inNetwork
    have found : (mirrorMap network).get? node.address.toString = some node.address.toString := by
      rw [get?_mirrorMap, if_pos inNetwork]
    exact ⟨_, OrderedMap.mem_entries_iff.mpr found, rfl⟩

theorem serves_mirror (network : List String) : Serves mirror (mirrorMap network) where
  obsolete := fun _ _ => rfl
  creates := by
    intro entry member address read printed minBackoff now
    have same : entry.1 = entry.2 := by
      have found := OrderedMap.mem_entries_iff.mp member
      rw [get?_mirrorMap] at found
      split at found
      · exact Option.some.inj found
      · cases found
    refine ⟨(Node.create address (.ofNum 0) now).setMinBackoff minBackoff, ?_,
      Prod.ext printed (printed.trans same)⟩
    change createMirrorNode minBackoff now entry.1 entry.2 = _
    rw [createMirrorNode, ← same, read]

/-- All nodes are found obsolete. -/
theorem recognizes_mirror_iff {network : List String} {net : Network} :
    Recognizes mirror (mirrorMap network) net ↔
      ∀ r ∈ net.nodes, (net.heap r).address.toString ∉ network := by
  refine forall₂_congr fun r _ => ?_
  rw [entryOf, keyOf, mem_entriesOf_mirror]
  refine ⟨fun h inNetwork => ?_, fun h inNetwork => absurd inNetwork h⟩
  have obsolete : true = false := h inNetwork
  cases obsolete

/-! ## Runs -/

/-- After any calls, a new map replaces the nodes exactly when the network and the map meet
the condition; the mirror network may not know an address of the map. -/
theorem setNetwork_replaces_iff (start : ℚ) (mainCalls : List (Call MainOp))
    (mirrorCalls : List (Call MirrorOp)) (draws : Nat → Nat) (now : ℚ) :
    (∀ map, Replaces main map (runAll mainStep (create start) mainCalls)
          ((setNetwork main map draws now).run (runAll mainStep (create start) mainCalls)) ↔
        Replaceable main map (runAll mainStep (create start) mainCalls)) ∧
    (∀ network, Replaces mirror (mirrorMap network) (runAll mirrorStep (create start) mirrorCalls)
          ((setNetwork mirror (mirrorMap network) draws now).run
            (runAll mirrorStep (create start) mirrorCalls)) ↔
        Replaceable mirror (mirrorMap network) (runAll mirrorStep (create start) mirrorCalls) ∧
          ∀ r ∈ (runAll mirrorStep (create start) mirrorCalls).nodes,
            ((runAll mirrorStep (create start) mirrorCalls).heap r).address.toString ∉ network) := by
  constructor
  · intro map
    obtain ⟨keyed, wellFormed⟩ :=
      onNodes_runMain wellFormed_kept wellFormed_main wellFormed_copy start mainCalls
    refine ⟨replaceable_of_replaces keyed wellFormed wellFormed_main, fun replaceable => ?_⟩
    exact replaces_of_replaceable keyed (serves_main map) replaceable (recognizes_main map _) draws now
  · intro network
    obtain ⟨keyed, wellFormed⟩ := onNodes_runMirror wellFormed_kept wellFormed_mirror start mirrorCalls
    constructor
    · intro replaces
      exact ⟨replaceable_of_replaces keyed wellFormed wellFormed_mirror replaces,
        recognizes_mirror_iff.mp (recognizes_of_replaces keyed replaces)⟩
    · rintro ⟨replaceable, unknown⟩
      exact replaces_of_replaceable keyed (serves_mirror network) replaceable
        (recognizes_mirror_iff.mpr unknown) draws now

/-- A node that was kept while it was unhealthy cannot be replaced later, and the mirror
network replaces the nodes it should keep. -/
theorem nodes_not_replaced :
    (let map : OrderedMap String AccountId := OrderedMap.empty.set "10.0.0.1:50211" (.ofNum 3)
      let calls : List (Call MainOp) := [⟨.setNetwork map, id, 0⟩,
        ⟨.managed (.increaseBackoff 0), id, 0⟩, ⟨.setNetwork map, id, 1⟩]
      ¬ Replaces main .empty (runAll mainStep (create 0) calls)
        ((setNetwork main .empty id 2).run (runAll mainStep (create 0) calls))) ∧
    (let network := ["hedera.example:443"]
      let calls : List (Call MirrorOp) := [⟨.setNetwork network, id, 0⟩]
      ¬ Replaces mirror (mirrorMap network) (runAll mirrorStep (create 0) calls)
        ((setNetwork mirror (mirrorMap network) id 1).run
          (runAll mirrorStep (create 0) calls))) := by
  constructor
  · intro map calls replaces
    have returned := replaces.returned
    revert returned
    decide +kernel
  · intro network calls replaces
    have stays := (replaces.kept 0 (by decide +kernel) (by decide +kernel)).1
    revert stays
    decide +kernel

end HederaSdk.Network
