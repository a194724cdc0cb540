import HederaSdk.Transaction.Execute
import HederaSdk.Transaction.Operations

/-!
# Signatures added, taken away and checked

Three methods walk over the signed transactions of a frozen transaction. `addSignature`
looks each signature up as it goes, so a later one that is missing leaves those before it.
`removeAllSignatures` collects first and clears afterwards, and the first walk can give up
where the second does not. `verifyTransaction` skips what has no signature map, and takes a
pair without a signature for one that has been checked.
-/

namespace HederaSdk.Transaction

open Library

variable {proto : Proto} {key : PublicKey} {signatures : SignatureMap} {generated : Timestamp}
  {tx : Transaction}

/-! ## Adding -/

section Adding

/-- One pair of the key more. -/
structure AddsOne (key : PublicKey) (before after : SignedTransaction) : Prop where
  body : after.bodyBytes = before.bodyBytes
  pair : ∃ signature, after.sigPair = before.sigPair ++ [key.toProtobufSignature signature]

/-- All signatures are added and the key is noted, or there are the pairs there were. -/
def Atomic (key : PublicKey) (tx : Transaction) : Except JsError Unit → Transaction → Prop
  | .ok _, after =>
      List.Forall₂ (AddsOne key) tx.signedTransactions.list after.signedTransactions.list ∧
        key.hex ∈ after.signerPublicKeys ∧ key ∈ after.publicKeys
  | .error _, after =>
      after.signedTransactions.list.map SignedTransaction.sigPair =
        tx.signedTransactions.list.map SignedTransaction.sigPair

variable (proto) in
def HasSignature (key : PublicKey) (signatures : SignatureMap) (signed : SignedTransaction) : Prop :=
  ∃ signature, findSignature proto key signatures signed.bodyBytes = .ok signature

variable (proto) in
/-- A call is atomic, and after a failed one a complete map adds each signature once. -/
structure AddsAtomically (key : PublicKey) (signatures : SignatureMap) (generated : Timestamp)
    (tx : Transaction) : Prop where
  atomic : Atomic key tx ((addSignature proto key signatures generated).run tx).1
    ((addSignature proto key signatures generated).run tx).2
  again : ∀ e failed, (addSignature proto key signatures generated).run tx = (.error e, failed) →
    ∀ complete, (∀ signed ∈ tx.signedTransactions.list, HasSignature proto key complete signed) →
    ∀ later, ∃ added, (addSignature proto key complete later).run failed = (.ok (), added) ∧
      List.Forall₂ (AddsOne key) tx.signedTransactions.list added.signedTransactions.list

/-- A failed call is not atomic when the pairs are others. -/
theorem not_addsAtomically
    (failed : ((addSignature proto key signatures generated).run tx).1.isOk = false)
    (changed : ((addSignature proto key signatures generated).run tx).2.signedTransactions.list.map
        SignedTransaction.sigPair ≠ tx.signedTransactions.list.map SignedTransaction.sigPair) :
    ¬ AddsAtomically proto key signatures generated tx := by
  intro atomically
  have atomic := atomically.atomic
  rcases ran : (addSignature proto key signatures generated).run tx with ⟨e | _, after⟩
  · rw [ran] at atomic changed
    exact changed atomic
  · rw [ran] at failed
    cases failed

theorem hasSignature_iff {signed : SignedTransaction} :
    (findSignature proto key signatures signed.bodyBytes).isOk = true ↔
      HasSignature proto key signatures signed := by
  rw [HasSignature]
  cases findSignature proto key signatures signed.bodyBytes with
  | error e => exact ⟨fun ok => absurd ok (by simp [Except.isOk, Except.toBool]), fun ⟨_, found⟩ => by cases found⟩
  | ok signature => exact ⟨fun _ => ⟨signature, rfl⟩, fun _ => rfl⟩

instance (signed : SignedTransaction) : Decidable (HasSignature proto key signatures signed) :=
  decidable_of_iff _ hasSignature_iff

theorem addsOne_addPair (signed : SignedTransaction) (signature : Bytes) :
    AddsOne key signed (signed.addPair (key.toProtobufSignature signature)) := ⟨rfl, signature, rfl⟩

theorem AddsOne.sigPair_ne {before after : SignedTransaction} (adds : AddsOne key before after) :
    after.sigPair ≠ before.sigPair := by
  obtain ⟨signature, added⟩ := adds.pair
  rw [added]
  intro same
  have lengths := congrArg List.length same
  simp at lengths

theorem addEach_complete {list : List SignedTransaction}
    (complete : ∀ signed ∈ list, HasSignature proto key signatures signed) :
    ∃ added, addEach proto key signatures list = (.ok (), added) ∧
      List.Forall₂ (AddsOne key) list added := by
  induction list with
  | nil => exact ⟨[], rfl, .nil⟩
  | cons signed rest inductionHypothesis =>
      obtain ⟨signature, found⟩ := complete signed List.mem_cons_self
      obtain ⟨added, ran, each⟩ :=
        inductionHypothesis fun one member => complete one (List.mem_cons_of_mem _ member)
      refine ⟨_, ?_, .cons (addsOne_addPair signed signature) each⟩
      simp only [addEach, found, ran]

theorem addEach_incomplete {list : List SignedTransaction}
    (incomplete : ¬ ∀ signed ∈ list, HasSignature proto key signatures signed) :
    ∃ e, (addEach proto key signatures list).1 = .error e := by
  induction list with
  | nil => exact absurd (fun signed member => by cases member) incomplete
  | cons signed rest inductionHypothesis =>
      unfold addEach
      cases found : findSignature proto key signatures signed.bodyBytes with
      | error e => exact ⟨e, rfl⟩
      | ok signature =>
          rw [List.forall_mem_cons, not_and] at incomplete
          exact inductionHypothesis (incomplete ⟨signature, found⟩)

/-- Every key it has is one more signer. -/
theorem run_addSignature_complete (frozen : tx.isFrozen = true) (unknown : key.hex ∉ tx.signerPublicKeys)
    (complete : ∀ signed ∈ tx.signedTransactions.list, HasSignature proto key signatures signed) :
    ∃ added, (addSignature proto key signatures generated).run tx = (.ok (), added) ∧
      List.Forall₂ (AddsOne key) tx.signedTransactions.list added.signedTransactions.list ∧
      key.hex ∈ added.signerPublicKeys ∧ key ∈ added.publicKeys := by
  obtain ⟨list, looped, each⟩ := addEach_complete complete
  rw [run_addSignature_unknown (run_freezeIfNeeded proto frozen generated) unknown, looped]
  refine ⟨_, rfl, each, Finset.mem_insert_self _ _, ?_⟩
  exact List.mem_append_right _ (List.mem_singleton_self key)

/-- A call is atomic exactly when the key is new and the first signature that is missing,
if any, is that of the first signed transaction. -/
theorem addsAtomically_iff (frozen : tx.isFrozen = true) :
    AddsAtomically proto key signatures generated tx ↔
      key.hex ∉ tx.signerPublicKeys ∧
        ((∀ signed ∈ tx.signedTransactions.list, HasSignature proto key signatures signed) ∨
          ∀ first ∈ tx.signedTransactions.list.head?, ¬ HasSignature proto key signatures first) := by
  have freezes := run_freezeIfNeeded proto frozen generated
  obtain ⟨first, rest, signed⟩ : ∃ first rest, tx.signedTransactions.list = first :: rest :=
    List.exists_cons_of_length_pos (of_decide_eq_true frozen)
  by_cases known : key.hex ∈ tx.signerPublicKeys
  · -- A key that has signed returns at once, and no pair is added.
    refine ⟨fun atomically => ?_, fun condition => absurd known condition.1⟩
    have atomic := atomically.atomic
    rw [run_addSignature_known freezes known, Atomic, signed] at atomic
    cases atomic.1 with
    | cons adds _ => exact absurd rfl adds.sigPair_ne
  · by_cases complete : ∀ signed ∈ tx.signedTransactions.list, HasSignature proto key signatures signed
    · obtain ⟨added, ran, each, noted⟩ := @run_addSignature_complete _ _ _ generated _ frozen known complete
      refine ⟨fun _ => ⟨known, .inl complete⟩, fun _ => ⟨?_, fun e failed threw => ?_⟩⟩
      · rw [ran]
        exact ⟨each, noted⟩
      · rw [ran] at threw
        cases threw
    · obtain ⟨e, failed⟩ := addEach_incomplete complete
      have ran := @run_addSignature_unknown proto key signatures generated _ _ freezes known
      simp only [failed] at ran
      cases found : findSignature proto key signatures first.bodyBytes with
      | ok signature =>
          have some : HasSignature proto key signatures first := ⟨signature, found⟩
          constructor
          · intro atomically
            have atomic := atomically.atomic
            rw [ran, Atomic] at atomic
            simp only [withSigned, signed, addEach, found, List.map_cons, List.cons.injEq] at atomic
            exact absurd atomic.1 (addsOne_addPair first signature).sigPair_ne
          · rintro ⟨-, all | none⟩
            · exact absurd all complete
            · exact absurd some (none first (by rw [signed]; rfl))
      | error e' =>
          have none : ¬ HasSignature proto key signatures first := fun ⟨_, other⟩ => by
            cases other.symm.trans found
          have list : (addEach proto key signatures tx.signedTransactions.list).2 =
              { first with sigMap := some first.sigPair } :: rest := by
            rw [signed]
            simp only [addEach, found]
          rw [list] at ran
          refine ⟨fun _ => ⟨known, .inr ?_⟩, fun _ => ⟨?_, fun e₂ after threw map all later => ?_⟩⟩
          · rw [signed]
            rintro _ ⟨⟩
            exact none
          · rw [ran, Atomic, signed]
            rfl
          · rw [ran] at threw
            cases threw
            let after := withSigned ({ first with sigMap := some first.sigPair } :: rest) (lockForSignature tx)
            have still : after.isFrozen = true := decide_eq_true (Nat.succ_pos rest.length)
            have all' : ∀ one ∈ after.signedTransactions.list, HasSignature proto key map one := by
              rw [signed, List.forall_mem_cons] at all
              exact List.forall_mem_cons.mpr all
            obtain ⟨added, ran, each, -⟩ := @run_addSignature_complete proto key map later after still known all'
            refine ⟨added, ran, ?_⟩
            obtain ⟨head, others, adds, each, same⟩ := List.forall₂_cons_left_iff.mp each
            rw [signed, same]
            exact .cons ⟨adds.body, adds.pair⟩ each

/-- A signature for each node. -/
def sampleSignatures : SignatureMap := fun _ _ _ => some [1]

/-- A signature for the first node only. -/
def partialSignatures : SignatureMap := fun nodeId _ _ => if nodeId = "0.0.3" then some [1] else none

theorem complete_map_is_added :
    (frozenTransfer [3, 4]).isFrozen = true ∧
      AddsAtomically prefixProto sampleKey sampleSignatures ⟨0, 0⟩ (frozenTransfer [3, 4]) := by
  have frozen : (frozenTransfer [3, 4]).isFrozen = true := by decide +kernel
  exact ⟨frozen, (addsAtomically_iff frozen).mpr ⟨by decide +kernel, .inl (by decide +kernel)⟩⟩

/-- The first signed transaction keeps its pair, and a complete map adds a second one. -/
theorem partial_map_is_added_in_part :
    (frozenTransfer [3, 4]).isFrozen = true ∧
      ¬ AddsAtomically prefixProto sampleKey partialSignatures ⟨0, 0⟩ (frozenTransfer [3, 4]) := by
  exact ⟨by decide +kernel, not_addsAtomically (by decide +kernel) (by decide +kernel)⟩

end Adding

/-! ## Taking all away -/

section Removing

variable {pairs : List SignaturePair} {collected collected' : CollectedSignatures}

def pairsOf (tx : Transaction) : List SignaturePair :=
  tx.signedTransactions.list.flatMap SignedTransaction.sigPair

variable (proto) in
/-- The signatures of a key among the pairs, in order, whatever kind they are. -/
def signaturesOf (pairs : List SignaturePair) (key : PublicKey) : List Bytes :=
  pairs.filterMap fun pair =>
    if PublicKey.fromBytes proto.decoders pair.pubKeyPrefix = .ok key then pair.signature.map Prod.snd
    else none

variable (proto) in
/-- Each key is there once, with all its signatures, and no signature is without its key. -/
structure Groups (pairs : List SignaturePair) (returned : List (PublicKey × List Bytes)) : Prop where
  distinct : (returned.map Prod.fst).Nodup
  own : ∀ entry ∈ returned, entry.2 = signaturesOf proto pairs entry.1
  whole : ∀ pair ∈ pairs, pair.signature ≠ none → ∃ entry ∈ returned,
    PublicKey.fromBytes proto.decoders pair.pubKeyPrefix = .ok entry.1

variable (proto) in
/-- All that was there is returned, and nothing is left. -/
def TakesAll (generated : Timestamp) (tx : Transaction) : Prop :=
  ∃ returned after, (removeAllSignatures proto generated).run tx = (.ok returned, after) ∧
    Groups proto (pairsOf tx) returned ∧
    ∀ signed ∈ after.signedTransactions.list, signed.sigPair = []

variable (proto) in
/-- The prefix is read as a key. -/
def IsReadable (pair : SignaturePair) : Prop :=
  ∃ key, PublicKey.fromBytes proto.decoders pair.pubKeyPrefix = .ok key

variable (proto) in
/-- Every signed transaction has a signature map, every pair has a signature of a kind the SDK
makes and a prefix that is read as a key, and no key has two prefixes. -/
structure Collectable (tx : Transaction) : Prop where
  mapped : ∀ signed ∈ tx.signedTransactions.list, signed.sigMap ≠ none
  own : ∀ pair ∈ pairsOf tx, pair.ownSignature ≠ none
  readable : ∀ pair ∈ pairsOf tx, IsReadable proto pair
  canonical : ∀ pair ∈ pairsOf tx, ∀ other ∈ pairsOf tx,
    PublicKey.fromBytes proto.decoders pair.pubKeyPrefix =
      PublicKey.fromBytes proto.decoders other.pubKeyPrefix → pair.pubKeyPrefix = other.pubKeyPrefix

/-- What has been collected of the pairs. -/
structure Collects (proto : Proto) (pairs : List SignaturePair) (collected : CollectedSignatures) :
    Prop where
  entry : ∀ pubKeyPrefix key signatures, collected.get? pubKeyPrefix = some (key, signatures) →
    PublicKey.fromBytes proto.decoders pubKeyPrefix = .ok key ∧
      signatures = pairs.filterMap fun pair =>
        if pair.pubKeyPrefix = pubKeyPrefix then pair.ownSignature else none
  listed : ∀ pubKeyPrefix, (∃ pair ∈ pairs, pair.pubKeyPrefix = pubKeyPrefix) ↔
    (collected.get? pubKeyPrefix).isSome = true
  own : ∀ pair ∈ pairs, pair.ownSignature ≠ none

theorem collects_empty : Collects proto [] .empty where
  entry _ _ _ found := by simp at found
  listed _ := by simp
  own _ member := by cases member

/-- One more pair is filed behind those of its prefix. -/
theorem Collects.set (collects : Collects proto pairs collected) {pair : SignaturePair} {signature : Bytes}
    (own : pair.ownSignature = some signature) {key : PublicKey} {earlier : List Bytes}
    (reads : PublicKey.fromBytes proto.decoders pair.pubKeyPrefix = .ok key)
    (before : earlier = pairs.filterMap fun other =>
      if other.pubKeyPrefix = pair.pubKeyPrefix then other.ownSignature else none) :
    Collects proto (pairs ++ [pair]) (collected.set pair.pubKeyPrefix (key, earlier ++ [signature])) where
  entry := by
    intro pubKeyPrefix key' signatures found
    rw [OrderedMap.get?_set] at found
    rw [List.filterMap_append]
    by_cases same : pair.pubKeyPrefix = pubKeyPrefix
    · subst same
      rw [if_pos rfl, Option.some.injEq, Prod.mk.injEq] at found
      obtain ⟨rfl, rfl⟩ := found
      exact ⟨reads, by simp [before, own]⟩
    · rw [if_neg same] at found
      obtain ⟨read, filed⟩ := collects.entry _ _ _ found
      exact ⟨read, by simp [filed, same]⟩
  listed := by
    intro pubKeyPrefix
    rw [OrderedMap.get?_set]
    by_cases same : pair.pubKeyPrefix = pubKeyPrefix
    · simp only [if_pos same, Option.isSome_some, iff_true]
      exact ⟨pair, by simp, same⟩
    · rw [if_neg same, ← collects.listed]
      simp [same]
  own := by
    intro other member
    rcases List.mem_append.mp member with before | last
    · exact collects.own other before
    · rw [List.mem_singleton.mp last, own]
      exact Option.some_ne_none signature

variable (proto) in
/-- How the walk over more pairs ends: at one that is not read, at one of another kind, or with
all of them collected. -/
def PairsEnd (pairs more : List SignaturePair) : Except JsError (Option CollectedSignatures) → Prop
  | .error _ => ∃ pair ∈ more, ¬ IsReadable proto pair ∧ pair.signature ≠ none
  | .ok none => ∃ pair ∈ more, pair.ownSignature = none
  | .ok (some collected) => Collects proto (pairs ++ more) collected

theorem PairsEnd.cons {pair : SignaturePair} {rest : List SignaturePair}
    {outcome : Except JsError (Option CollectedSignatures)}
    (ends : PairsEnd proto (pairs ++ [pair]) rest outcome) : PairsEnd proto pairs (pair :: rest) outcome := by
  rcases outcome with e | _ | collected
  · obtain ⟨other, member, unreadable⟩ := ends
    exact ⟨other, List.mem_cons_of_mem _ member, unreadable⟩
  · obtain ⟨other, member, foreign⟩ := ends
    exact ⟨other, List.mem_cons_of_mem _ member, foreign⟩
  · rw [PairsEnd, List.append_assoc] at ends
    exact ends

theorem pairsEnd_collectPairs (collects : Collects proto pairs collected) (more : List SignaturePair) :
    PairsEnd proto pairs more (collectPairs proto more collected) := by
  induction more generalizing pairs collected with
  | nil =>
      rw [collectPairs, PairsEnd, List.append_nil]
      exact collects
  | cons pair rest inductionHypothesis =>
      rw [collectPairs]
      cases own : pair.ownSignature with
      | none => exact ⟨pair, List.mem_cons_self, own⟩
      | some signature =>
          have present : pair.signature ≠ none := fun none => by
            rw [SignaturePair.ownSignature, none] at own
            cases own
          cases found : collected.get? pair.pubKeyPrefix with
          | some filed =>
              obtain ⟨key, earlier⟩ := filed
              obtain ⟨reads, before⟩ := collects.entry _ _ _ found
              exact (inductionHypothesis (collects.set own reads before)).cons
          | none =>
              cases reads : PublicKey.fromBytes proto.decoders pair.pubKeyPrefix with
              | error message =>
                  refine ⟨pair, List.mem_cons_self, fun ⟨key, other⟩ => ?_, present⟩
                  cases reads.symm.trans other
              | ok key =>
                  have new : ¬ ∃ other ∈ pairs, other.pubKeyPrefix = pair.pubKeyPrefix := by
                    rw [collects.listed, found]
                    simp
                  have before : [] = pairs.filterMap fun other =>
                      if other.pubKeyPrefix = pair.pubKeyPrefix then other.ownSignature else none := by
                    refine (List.filterMap_eq_nil_iff.mpr fun other member => ?_).symm
                    exact if_neg fun same => new ⟨other, member, same⟩
                  exact (inductionHypothesis (collects.set own reads before)).cons

variable (proto) in
/-- How the walk over more signed transactions ends: it throws, it is empty because of a missing
map or a pair of another kind, or all is collected. -/
def WalkEnd (pairs : List SignaturePair) (list : List SignedTransaction) :
    Except JsError CollectedSignatures → Prop
  | .error _ => ∃ pair ∈ list.flatMap SignedTransaction.sigPair,
      ¬ IsReadable proto pair ∧ pair.signature ≠ none
  | .ok collected =>
      (((∃ signed ∈ list, signed.sigMap = none) ∨
          ∃ pair ∈ list.flatMap SignedTransaction.sigPair, pair.ownSignature = none) ∧
        collected = .empty) ∨
      (∀ signed ∈ list, signed.sigMap ≠ none) ∧
        Collects proto (pairs ++ list.flatMap SignedTransaction.sigPair) collected

theorem WalkEnd.cons {signed : SignedTransaction} {rest : List SignedTransaction}
    {outcome : Except JsError CollectedSignatures} (mapped : signed.sigMap ≠ none)
    (ends : WalkEnd proto (pairs ++ signed.sigPair) rest outcome) :
    WalkEnd proto pairs (signed :: rest) outcome := by
  cases outcome with
  | error e =>
      obtain ⟨pair, member, unreadable⟩ := ends
      exact ⟨pair, List.mem_append_right _ member, unreadable⟩
  | ok collected =>
      rcases ends with ⟨⟨one, member, none⟩ | ⟨pair, member, foreign⟩, empty⟩ | ⟨others, collects⟩
      · exact .inl ⟨.inl ⟨one, List.mem_cons_of_mem _ member, none⟩, empty⟩
      · exact .inl ⟨.inr ⟨pair, List.mem_append_right _ member, foreign⟩, empty⟩
      · rw [List.append_assoc] at collects
        exact .inr ⟨List.forall_mem_cons.mpr ⟨mapped, others⟩, collects⟩

theorem walkEnd_collectSignatures (collects : Collects proto pairs collected)
    (list : List SignedTransaction) :
    WalkEnd proto pairs list (collectSignatures proto list collected) := by
  induction list generalizing pairs collected with
  | nil =>
      refine .inr ⟨fun _ member => (List.not_mem_nil member).elim, ?_⟩
      rw [List.flatMap_nil, List.append_nil]
      exact collects
  | cons signed rest inductionHypothesis =>
      rw [collectSignatures]
      cases map : signed.sigMap with
      | none => exact .inl ⟨.inl ⟨signed, List.mem_cons_self, map⟩, rfl⟩
      | some own =>
          have here : signed.sigPair = own := by rw [SignedTransaction.sigPair, map, Option.getD_some]
          have found := pairsEnd_collectPairs collects own
          rw [← here] at found ⊢
          simp only
          generalize collectPairs proto signed.sigPair collected = outcome at found ⊢
          rcases outcome with e | _ | collected'
          · obtain ⟨pair, member, unreadable⟩ := found
            exact ⟨pair, List.mem_append_left _ member, unreadable⟩
          · obtain ⟨pair, member, foreign⟩ := found
            exact .inl ⟨.inr ⟨pair, List.mem_append_left _ member, foreign⟩, rfl⟩
          · exact (inductionHypothesis found).cons (by simp [map])

theorem signature_of_own {pair : SignaturePair} (own : pair.ownSignature ≠ none) :
    pair.signature.map Prod.snd = pair.ownSignature := by
  obtain ⟨pubKeyPrefix, _ | ⟨kind, signature⟩⟩ := pair
  · exact absurd rfl own
  · cases kind with
    | ed25519 => rfl
    | ecdsaSecp256k1 => rfl
    | contract => exact absurd rfl own
    | rsa3072 => exact absurd rfl own
    | ecdsa384 => exact absurd rfl own

theorem Collects.exists_entry (collects : Collects proto pairs collected) {pair : SignaturePair}
    (member : pair ∈ pairs) : ∃ key signatures, (pair.pubKeyPrefix, key, signatures) ∈ collected.entries ∧
      PublicKey.fromBytes proto.decoders pair.pubKeyPrefix = .ok key := by
  obtain ⟨⟨key, signatures⟩, found⟩ := Option.isSome_iff_exists.mp
    ((collects.listed pair.pubKeyPrefix).mp ⟨pair, member, rfl⟩)
  exact ⟨key, signatures, OrderedMap.mem_entries_iff.mpr found, (collects.entry _ _ _ found).1⟩

theorem Collects.readable (collects : Collects proto pairs collected) {pair : SignaturePair}
    (member : pair ∈ pairs) : IsReadable proto pair := by
  obtain ⟨key, -, -, reads⟩ := collects.exists_entry member
  exact ⟨key, reads⟩

/-- When no key is returned twice, no key has two prefixes. -/
theorem Collects.canonical_of_groups (collects : Collects proto pairs collected)
    (groups : Groups proto pairs collected.values) : ∀ pair ∈ pairs, ∀ other ∈ pairs,
      PublicKey.fromBytes proto.decoders pair.pubKeyPrefix =
        PublicKey.fromBytes proto.decoders other.pubKeyPrefix → pair.pubKeyPrefix = other.pubKeyPrefix := by
  intro pair member other member' same
  obtain ⟨key, signatures, inEntries, reads⟩ := collects.exists_entry member
  obtain ⟨key', signatures', inEntries', reads'⟩ := collects.exists_entry member'
  have sameKey : key = key' := Except.ok.inj (reads.symm.trans (same.trans reads'))
  have distinct := groups.distinct
  rw [OrderedMap.values, List.map_map] at distinct
  exact congrArg Prod.fst (List.inj_on_of_nodup_map distinct inEntries inEntries' sameKey)

/-- Under one prefix for each key, what is collected are the signatures of the keys. -/
theorem Collects.groups (collects : Collects proto pairs collected)
    (canonical : ∀ pair ∈ pairs, ∀ other ∈ pairs,
      PublicKey.fromBytes proto.decoders pair.pubKeyPrefix =
        PublicKey.fromBytes proto.decoders other.pubKeyPrefix → pair.pubKeyPrefix = other.pubKeyPrefix) :
    Groups proto pairs collected.values := by
  have entries : ∀ e ∈ collected.entries, PublicKey.fromBytes proto.decoders e.1 = .ok e.2.1 ∧
      (∃ pair ∈ pairs, pair.pubKeyPrefix = e.1) ∧ e.2.2 = pairs.filterMap fun pair =>
        if pair.pubKeyPrefix = e.1 then pair.ownSignature else none := by
    intro e member
    have found := OrderedMap.mem_entries_iff.mp member
    obtain ⟨reads, filed⟩ := collects.entry _ _ _ found
    exact ⟨reads, (collects.listed _).mpr (by rw [found]; rfl), filed⟩
  constructor
  · rw [OrderedMap.values, List.map_map]
    refine List.Nodup.map_on (fun e member e' member' same => ?_) collected.nodup.of_map
    obtain ⟨reads, ⟨pair, inPairs, first⟩, -⟩ := entries e member
    obtain ⟨reads', ⟨other, inPairs', second⟩, -⟩ := entries e' member'
    have sameKey : e.2.1 = e'.2.1 := same
    refine List.inj_on_of_nodup_map collected.nodup member member' ?_
    rw [← first, ← second]
    exact canonical pair inPairs other inPairs' (by rw [first, second, reads, reads', sameKey])
  · intro entry member
    obtain ⟨e, inEntries, rfl⟩ := List.mem_map.mp member
    obtain ⟨reads, ⟨one, inPairs, first⟩, filed⟩ := entries e inEntries
    rw [filed, signaturesOf]
    refine List.filterMap_congr fun pair member => ?_
    have same : PublicKey.fromBytes proto.decoders pair.pubKeyPrefix = .ok e.2.1 ↔ pair.pubKeyPrefix = e.1 := by
      constructor
      · intro alike
        exact (canonical pair member one inPairs (by rw [alike, first, reads])).trans first
      · rintro same
        rw [same, reads]
    rw [signature_of_own (collects.own pair member)]
    exact if_congr same.symm rfl rfl
  · intro pair member _
    obtain ⟨key, signatures, inEntries, reads⟩ := collects.exists_entry member
    exact ⟨(key, signatures), List.mem_map.mpr ⟨_, inEntries, rfl⟩, reads⟩

/-- All signatures are returned and taken away exactly when there are none, or all of them
can be collected. -/
theorem takesAll_iff (frozen : tx.isFrozen = true) :
    TakesAll proto generated tx ↔ (∀ pair ∈ pairsOf tx, pair.signature = none) ∨ Collectable proto tx := by
  have walk := walkEnd_collectSignatures (@collects_empty proto) tx.signedTransactions.list
  have ran := run_removeAllSignatures (run_freezeIfNeeded proto frozen generated)
  have cleared : ∀ signed ∈ (mapSigned (fun signed => { signed with sigMap := signed.sigMap.map fun _ => [] })
      tx).signedTransactions.list, signed.sigPair = [] := by
    refine List.forall_mem_map.mpr fun signed _ => ?_
    rw [SignedTransaction.sigPair]
    cases signed.sigMap <;> rfl
  generalize collectSignatures proto tx.signedTransactions.list .empty = outcome at walk ran
  have unsigned : ∀ pair : SignaturePair, pair.signature = none → pair.ownSignature = none := by
    intro pair none
    rw [SignaturePair.ownSignature, none]
  constructor
  · rintro ⟨returned, after, returns, groups, -⟩
    rw [ran] at returns
    cases outcome with
    | error e => cases returns
    | ok collected =>
        cases returns
        rcases walk with ⟨-, rfl⟩ | ⟨mapped, collects⟩
        · refine .inl fun pair member => ?_
          by_contra some
          obtain ⟨entry, inEmpty, -⟩ := groups.whole pair member some
          exact absurd inEmpty List.not_mem_nil
        · exact .inr ⟨mapped, collects.own, fun pair member => collects.readable member,
            collects.canonical_of_groups groups⟩
  · intro condition
    have done {collected : CollectedSignatures} (groups : Groups proto (pairsOf tx) collected.values)
        (same : outcome = .ok collected) : TakesAll proto generated tx := by
      rw [same] at ran
      exact ⟨_, _, ran, groups, cleared⟩
    cases outcome with
    | error e =>
        obtain ⟨pair, member, unreadable, present⟩ := walk
        rcases condition with none | collectable
        · exact absurd (none pair member) present
        · exact absurd (collectable.readable pair member) unreadable
    | ok collected =>
        rcases walk with ⟨stopped, rfl⟩ | ⟨-, collects⟩
        · rcases condition with none | collectable
          · refine @done .empty ⟨List.nodup_nil, fun _ member => ?_, fun pair member present => ?_⟩ rfl
            · exact absurd member List.not_mem_nil
            · exact absurd (none pair member) present
          · rcases stopped with ⟨signed, member, missing⟩ | ⟨pair, member, foreign⟩
            · exact absurd missing (collectable.mapped signed member)
            · exact absurd foreign (collectable.own pair member)
        · refine done (collects.groups fun pair member other member' same => ?_) rfl
          rcases condition with none | collectable
          · exact absurd (unsigned pair (none pair member)) (collects.own pair member)
          · exact collectable.canonical pair member other member' same

def samplePair : SignaturePair := sampleKey.toProtobufSignature [9]

/-- A transaction whose first signed transaction is signed, and another one. -/
def signedTransfer (other : SignedTransaction) : Transaction :=
  { sampleTransfer [3, 4] with signedTransactions := { list := [⟨[1], some [samplePair]⟩, other] } }

theorem both_signatures_are_taken :
    (signedTransfer ⟨[2], some [samplePair]⟩).isFrozen = true ∧
      TakesAll prefixProto ⟨0, 0⟩ (signedTransfer ⟨[2], some [samplePair]⟩) := by
  have pairs : pairsOf (signedTransfer ⟨[2], some [samplePair]⟩) = [samplePair, samplePair] := rfl
  have each : ∀ pair ∈ pairsOf (signedTransfer ⟨[2], some [samplePair]⟩), pair = samplePair := by
    simp [pairs]
  have maps : ∀ signed ∈ (signedTransfer ⟨[2], some [samplePair]⟩).signedTransactions.list,
      signed.sigMap ≠ none := by decide
  refine ⟨rfl, (takesAll_iff rfl).mpr (.inr ⟨maps, ?_, ?_, ?_⟩)⟩
  · intro pair member
    rw [each pair member]
    decide
  · intro pair member
    rw [each pair member]
    exact ⟨sampleKey, PublicKey.fromBytes_toBytesRaw _ sampleKey⟩
  · intro pair member other member' _
    rw [each pair member, each other member']

/-- Nothing is returned because the second signed transaction has no signature map, and the
signature of the first is gone. -/
theorem signature_is_lost :
    (signedTransfer ⟨[2], none⟩).isFrozen = true ∧ ¬ TakesAll prefixProto ⟨0, 0⟩ (signedTransfer ⟨[2], none⟩) := by
  refine ⟨rfl, ?_⟩
  rintro ⟨returned, after, returns, groups, -⟩
  have nothing : ((removeAllSignatures prefixProto ⟨0, 0⟩).run (signedTransfer ⟨[2], none⟩)).1.toOption =
      some [] := by decide +kernel
  rw [returns] at nothing
  cases nothing
  obtain ⟨entry, member, -⟩ := groups.whole samplePair List.mem_cons_self (by decide)
  exact absurd member List.not_mem_nil

end Removing

/-! ## Checking -/

section Checking

/-- Whether a signature of a key is one over the bytes. -/
abbrev Verify := PublicKey → Bytes → Bytes → Bool

variable (verify : Verify)

/-- The pairs from one on; `found` when one before had the prefix. A pair without a signature
counts as found. -/
def verifyPairs (key : PublicKey) (bodyBytes : Bytes) : List SignaturePair → Bool → Bool
  | [], found => found
  | pair :: rest, found =>
      if pair.pubKeyPrefix = key.toBytesRaw then
        match pair.ownSignature with
        | none => verifyPairs key bodyBytes rest true
        | some signature =>
            if verify key bodyBytes signature then verifyPairs key bodyBytes rest true else false
      else verifyPairs key bodyBytes rest found

/-- A signed transaction without a signature map is passed over. -/
def verifyEach (key : PublicKey) : List SignedTransaction → Bool
  | [] => true
  | signed :: rest =>
      match signed.sigMap with
      | none => verifyEach key rest
      | some pairs =>
          if verifyPairs verify key signed.bodyBytes pairs false then verifyEach key rest else false

variable (proto) in
/-- `PublicKey.verifyTransaction` -/
def verifyTransaction (key : PublicKey) (generated : Timestamp) : TransactionMethod Bool := do
  requireFrozen
  freezeIfNeeded proto generated
  let tx ← Method.this
  pure (verifyEach verify key tx.signedTransactions.list)

/-- The key has signed. -/
def IsSignedBy (key : PublicKey) (signed : SignedTransaction) : Prop :=
  ∃ pair ∈ signed.sigPair, pair.pubKeyPrefix = key.toBytesRaw ∧
    ∃ signature, pair.ownSignature = some signature ∧ verify key signed.bodyBytes signature = true

variable (proto) in
/-- What is called verified is signed by the key throughout. -/
def VerifiesSigned (key : PublicKey) (generated : Timestamp) (tx : Transaction) : Prop :=
  ∀ after, (verifyTransaction proto verify key generated).run tx = (.ok true, after) →
    ∀ signed ∈ after.signedTransactions.list, IsSignedBy verify key signed

/-- A map without a pair of the key, or a signature of the key that is wrong. -/
def IsRejected (key : PublicKey) (signed : SignedTransaction) : Prop :=
  signed.sigMap ≠ none ∧
    ((∀ pair ∈ signed.sigPair, pair.pubKeyPrefix ≠ key.toBytesRaw) ∨
      ∃ pair ∈ signed.sigPair, pair.pubKeyPrefix = key.toBytesRaw ∧
        ∃ signature, pair.ownSignature = some signature ∧ verify key signed.bodyBytes signature = false)

/-- No map, or pairs of the key that all have no signature. -/
def IsUnvouched (key : PublicKey) (signed : SignedTransaction) : Prop :=
  signed.sigMap = none ∨
    (∃ pair ∈ signed.sigPair, pair.pubKeyPrefix = key.toBytesRaw) ∧
      ∀ pair ∈ signed.sigPair, pair.pubKeyPrefix = key.toBytesRaw → pair.ownSignature = none

variable {verify}

theorem verifyPairs_iff {bodyBytes : Bytes} {pairs : List SignaturePair} {found : Bool} :
    verifyPairs verify key bodyBytes pairs found = true ↔
      (found = true ∨ ∃ pair ∈ pairs, pair.pubKeyPrefix = key.toBytesRaw) ∧
        ∀ pair ∈ pairs, pair.pubKeyPrefix = key.toBytesRaw → ∀ signature,
          pair.ownSignature = some signature → verify key bodyBytes signature = true := by
  induction pairs generalizing found with
  | nil => simp [verifyPairs]
  | cons pair rest inductionHypothesis =>
      rw [verifyPairs, List.forall_mem_cons, List.exists_mem_cons_iff]
      by_cases own : pair.pubKeyPrefix = key.toBytesRaw
      · rw [if_pos own]
        cases present : pair.ownSignature with
        | none => simp [inductionHypothesis, own]
        | some signature =>
            by_cases verified : verify key bodyBytes signature = true
            · simp [inductionHypothesis, own, verified]
            · simp [own, verified]
      · simp [inductionHypothesis, own]

theorem isRejected_iff {signed : SignedTransaction} {pairs : List SignaturePair}
    (map : signed.sigMap = some pairs) :
    IsRejected verify key signed ↔ verifyPairs verify key signed.bodyBytes pairs false = false := by
  have own : signed.sigPair = pairs := by rw [SignedTransaction.sigPair, map, Option.getD_some]
  rw [← Bool.not_eq_true, verifyPairs_iff, IsRejected, own, not_and_or]
  simp [map]

/-- What is not rejected is signed or not vouched for. -/
theorem isSignedBy_iff {signed : SignedTransaction} (passed : ¬ IsRejected verify key signed) :
    IsSignedBy verify key signed ↔ ¬ IsUnvouched key signed := by
  rw [IsRejected, not_and, not_or] at passed
  constructor
  · rintro ⟨pair, member, own, signature, present, -⟩ (missing | ⟨-, absent⟩)
    · rw [SignedTransaction.sigPair, missing] at member
      exact absurd member List.not_mem_nil
    · cases present.symm.trans (absent pair member own)
  · intro vouched
    rw [IsUnvouched, not_or, not_and] at vouched
    obtain ⟨mapped, signs⟩ := vouched
    obtain ⟨listed, right⟩ := passed mapped
    push Not at listed signs
    obtain ⟨pair, member, own, present⟩ := signs listed
    obtain ⟨signature, signed⟩ := Option.ne_none_iff_exists'.mp present
    refine ⟨pair, member, own, signature, signed, ?_⟩
    by_contra wrong
    exact right ⟨pair, member, own, signature, signed, Bool.not_eq_true _ ▸ wrong⟩

theorem verifyEach_iff {list : List SignedTransaction} :
    verifyEach verify key list = true ↔ ∀ signed ∈ list, ¬ IsRejected verify key signed := by
  induction list with
  | nil => simp [verifyEach]
  | cons signed rest inductionHypothesis =>
      rw [verifyEach, List.forall_mem_cons]
      cases map : signed.sigMap with
      | none => simp [inductionHypothesis, IsRejected, map]
      | some pairs =>
          rw [isRejected_iff map]
          by_cases passed : verifyPairs verify key signed.bodyBytes pairs false = true
          · simp [inductionHypothesis, passed]
          · simp [passed]

/-! ### What freezing builds has no pairs -/

def Unpaired (tx : Transaction) : Prop := ∀ signed ∈ tx.signedTransactions.list, signed.sigMap = some []

theorem survives_unpaired : SurvivesFreezing proto Unpaired where
  settings _ _ unpaired := unpaired
  nodes _ _ unpaired := unpaired
  ids _ _ unpaired := unpaired
  built _ _ := List.forall_mem_map.mpr fun _ _ => rfl
  cleared _ _ _ member := (List.not_mem_nil member).elim
  pushed _ _ unpaired := List.forall_mem_append.mpr ⟨unpaired, List.forall_mem_singleton.mpr rfl⟩
  chunk _ _ _ _ _ _ unpaired := unpaired

theorem unpaired_freezeIfNeeded (generated : Timestamp) :
    Method.Keeps Unpaired (freezeIfNeeded proto generated) :=
  .bind .this fun _ => .ite (.pure _) (survives_unpaired.freezeWith _ _ _)

theorem isRejected_of_unpaired {verify : Verify} {signed : SignedTransaction} (none : signed.sigMap = some []) :
    IsRejected verify key signed := by
  refine ⟨by simp [none], .inl fun pair member => ?_⟩
  rw [SignedTransaction.sigPair, none] at member
  exact absurd member List.not_mem_nil

/-- Of signed transactions without pairs, only an empty list is called verified. -/
theorem verified_unpaired {verify : Verify} :
    Method.Triple Unpaired (verifyTransaction proto verify key generated)
      (fun verified after => verified = true → after.signedTransactions.list = []) fun _ _ => True := by
  have required : Method.Keeps Unpaired requireFrozen := .bind .this fun _ => .ite (.pure _) (.throwing _)
  refine .bind (M := fun _ => Unpaired)
    (required.triple.weaken (fun _ h => h) (fun _ _ h => h) fun _ _ _ => trivial) fun _ => ?_
  refine .bind (M := fun _ => Unpaired)
    ((unpaired_freezeIfNeeded generated).triple.weaken (fun _ h => h) (fun _ _ h => h) fun _ _ _ => trivial)
    fun _ => .this fun tx unpaired => .pure _ ?_
  rintro _ rfl verified
  refine List.eq_nil_iff_forall_not_mem.mpr fun signed member => ?_
  exact verifyEach_iff.mp verified signed member (isRejected_of_unpaired (unpaired signed member))

/-- What is called verified is signed exactly when some signed transaction is rejected, or none
passes without a signature. -/
theorem verifiesSigned_iff {verify : Verify} :
    VerifiesSigned proto verify key generated tx ↔
      (∃ signed ∈ tx.signedTransactions.list, IsRejected verify key signed) ∨
        ∀ signed ∈ tx.signedTransactions.list, ¬ IsUnvouched key signed := by
  by_cases frozen : tx.isFrozen = true
  · have required : tx.isFrozenOrOnDemand = true := by simp [isFrozenOrOnDemand, frozen]
    have ran : (verifyTransaction proto verify key generated).run tx =
        (.ok (verifyEach verify key tx.signedTransactions.list), tx) := by
      rw [verifyTransaction, Method.run_bind_ok (run_requireFrozen required),
        Method.run_bind_ok (run_freezeIfNeeded proto frozen generated), Method.run_this_bind, Method.run_pure]
    rw [VerifiesSigned, ran]
    by_cases rejected : ∃ signed ∈ tx.signedTransactions.list, IsRejected verify key signed
    · refine ⟨fun _ => .inl rejected, fun _ after verified => ?_⟩
      have passed := verifyEach_iff.mp (Except.ok.inj (Prod.mk.inj verified).1)
      obtain ⟨signed, member, refused⟩ := rejected
      exact absurd refused (passed signed member)
    · have passed : ∀ signed ∈ tx.signedTransactions.list, ¬ IsRejected verify key signed :=
        fun signed member refused => rejected ⟨signed, member, refused⟩
      rw [verifyEach_iff.mpr passed, or_iff_right rejected]
      constructor
      · exact fun verifies signed member =>
          (isSignedBy_iff (passed signed member)).mp (verifies tx rfl signed member)
      · rintro vouched after ⟨⟩ signed member
        exact (isSignedBy_iff (passed signed member)).mpr (vouched signed member)
  · -- Nothing has been signed, and what `freeze` builds now is rejected.
    have none : tx.signedTransactions.list = [] :=
      List.length_eq_zero_iff.mp (Nat.eq_zero_of_not_pos fun some => frozen (decide_eq_true some))
    rw [none]
    refine iff_of_true (fun after verified signed member => ?_) (.inr fun _ member => ?_)
    · have unpaired : Unpaired tx := by simp [Unpaired, none]
      rw [verified_unpaired.of_ok unpaired verified rfl] at member
      exact absurd member List.not_mem_nil
    · exact absurd member List.not_mem_nil

/-- The second signed transaction has no signature at all. -/
theorem unsigned_is_verified : ¬ VerifiesSigned prefixProto (fun _ _ _ => true) sampleKey ⟨0, 0⟩
    (signedTransfer ⟨[2], none⟩) := by
  intro verifies
  have verified : (verifyTransaction prefixProto (fun _ _ _ => true) sampleKey ⟨0, 0⟩).run
      (signedTransfer ⟨[2], none⟩) = (.ok true, signedTransfer ⟨[2], none⟩) := rfl
  obtain ⟨pair, member, -⟩ := verifies _ verified ⟨[2], none⟩
    (List.mem_cons_of_mem _ (List.mem_singleton_self _))
  exact absurd member List.not_mem_nil

end Checking

end HederaSdk.Transaction
