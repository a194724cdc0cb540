import HederaSdk.Transaction.Execute
import HederaSdk.Transaction.Signing

/-!
# Signing that is suspended

`signWith` waits for its signer once for each signed transaction, and other calls
run in the meantime. The key is recorded before the first wait, so a call that
finds its key recorded returns although the signatures may not be there yet, or
never will be: the signer of the earlier call may have failed.
-/

namespace HederaSdk.Transaction

open Library

/-! ## Calls -/

/-- A call waits for the signature over the body at a position. -/
inductive Progress where
  | waiting (position : Nat)
  | resolved
  | rejected (error : JsError)

structure SignCall where
  key : PublicKey
  signer : Signer
  progress : Progress

/-- A transaction and the calls of `signWith` on it. -/
structure Signing where
  tx : Transaction
  calls : List SignCall := []

namespace Signing

/-- The loop of `signWith` up to its next `await`. -/
def proceed (tx : Transaction) (position : Nat) : Progress :=
  if position < tx.signedTransactions.list.length then .waiting position else .resolved

def addPairAt (position : Nat) (pair : SignaturePair) (tx : Transaction) : Transaction :=
  withSigned (tx.signedTransactions.list.modify position (·.addPair pair)) tx

/-- `signWith` up to its first `await`. -/
def start (key : PublicKey) (signer : Signer) (tx : Transaction) : Transaction × Progress :=
  match (requireFrozen.run tx).1 with
  | .error e => (tx, .rejected e)
  | .ok _ =>
      if key.hex ∈ tx.signerPublicKeys then (tx, .resolved)
      else if tx.signOnDemand then (recordSigner key (some signer) (noteSigner key tx), .resolved)
      else (lockIds (noteSigner key tx), proceed tx 0)

/-- `signWith` from an `await` to the next. -/
def resume (call : SignCall) (position moment : Nat) (tx : Transaction) : Transaction × Progress :=
  match tx.signedTransactions.list[position]? with
  | none => (tx, .resolved)
  | some signed =>
      match call.signer moment signed.bodyBytes with
      | .error e => (tx, .rejected e)
      | .ok signature =>
          (addPairAt position (call.key.toProtobufSignature signature) tx, proceed tx (position + 1))

/-- A call begins, or the signer of a call settles at some moment. -/
inductive Event where
  | call (key : PublicKey) (signer : Signer)
  | settle (index moment : Nat)

def step (s : Signing) : Event → Signing
  | .call key signer =>
      let (tx, progress) := start key signer s.tx
      { tx, calls := s.calls ++ [{ key, signer, progress }] }
  | .settle index moment =>
      match s.calls[index]? with
      | none => s
      | some call =>
          match call.progress with
          | .waiting position =>
              let (tx, progress) := resume call position moment s.tx
              { tx, calls := s.calls.set index { call with progress } }
          | _ => s

/-! ## A call alone -/

/-- How a call ends that is not suspended. -/
def ended : Except JsError Unit → Progress
  | .ok _ => .resolved
  | .error e => .rejected e

def settling (moment count : Nat) : List Event :=
  (List.range' moment count).map (.settle 0)

theorem settling_succ (moment count : Nat) :
    settling moment (count + 1) = .settle 0 moment :: settling (moment + 1) count := by
  rw [settling, List.range'_succ, List.map_cons, settling]

/-- A call that does not wait is not settled. -/
theorem runAll_settling_ended {tx : Transaction} {call : SignCall}
    (through : ∀ position, call.progress ≠ .waiting position) (moment count : Nat) :
    runAll step ⟨tx, [call]⟩ (settling moment count) = ⟨tx, [call]⟩ := by
  induction count generalizing moment with
  | zero => rfl
  | succ count inductionHypothesis =>
      have same : step ⟨tx, [call]⟩ (.settle 0 moment) = ⟨tx, [call]⟩ := by
        simp only [step, List.getElem?_cons_zero]
      rw [settling_succ, runAll_cons, same, inductionHypothesis]

theorem runAll_settling (key : PublicKey) (signer : Signer) (signed rest : List SignedTransaction)
    (moment : Nat) {tx : Transaction} (list : tx.signedTransactions.list = signed ++ rest) :
    runAll step ⟨tx, [⟨key, signer, proceed tx signed.length⟩]⟩ (settling moment rest.length) =
      ⟨withSigned (signed ++ (signEach key signer moment rest).2) tx,
        [⟨key, signer, ended (signEach key signer moment rest).1⟩]⟩ := by
  induction rest generalizing signed moment tx with
  | nil =>
      have through : proceed tx signed.length = .resolved := by simp [proceed, list]
      rw [through]
      simp only [signEach, ended, ← list]
      rfl
  | cons one rest inductionHypothesis =>
      have waits : proceed tx signed.length = .waiting signed.length := by
        simp [proceed, list]
      have here : tx.signedTransactions.list[signed.length]? = some one := by simp [list]
      rw [List.length_cons, settling_succ, runAll_cons, waits]
      simp only [step, List.getElem?_cons_zero, resume, here, signEach]
      cases signer moment one.bodyBytes with
      | error e =>
          simp only [List.set_cons_zero, ended]
          rw [runAll_settling_ended (by simp), ← list]
          rfl
      | ok signature =>
          simp only [List.set_cons_zero]
          have added : (addPairAt signed.length (key.toProtobufSignature signature) tx
              ).signedTransactions.list =
                (signed ++ [one.addPair (key.toProtobufSignature signature)]) ++ rest := by
            simp only [addPairAt, withSigned, list]
            rw [List.modify_eq_take_cons_drop (by simp)]
            simp
          have same : proceed tx (signed.length + 1) =
              proceed (addPairAt signed.length (key.toProtobufSignature signature) tx)
                (signed ++ [one.addPair (key.toProtobufSignature signature)]).length := by
            simp [proceed, addPairAt, withSigned]
          rw [same, inductionHypothesis _ _ added]
          simp [withSigned, addPairAt]

/-- Settled without a break, a call does what `signWith` does. -/
theorem runAll_alone (key : PublicKey) (signer : Signer) (moment : Nat) (tx : Transaction) :
    runAll step ⟨tx, []⟩
        (.call key signer :: settling moment tx.signedTransactions.list.length) =
      ⟨((signWith key signer moment).run tx).2,
        [⟨key, signer, ended ((signWith key signer moment).run tx).1⟩]⟩ := by
  rw [runAll_cons, step, start]
  cases frozen : tx.isFrozenOrOnDemand with
  | false =>
      obtain ⟨e, unfrozen⟩ : ∃ e, requireFrozen.run tx = (.error e, tx) := by
        simp [requireFrozen, frozen]
      rw [signWith, Method.run_bind_error unfrozen, unfrozen]
      exact runAll_settling_ended (by simp) _ _
  | true =>
      rw [run_requireFrozen frozen]
      by_cases known : key.hex ∈ tx.signerPublicKeys
      · rw [run_signWith_known frozen known]
        simp only [known, if_true, List.nil_append]
        exact runAll_settling_ended (by simp) _ _
      · cases onDemand : tx.signOnDemand with
        | true =>
            rw [run_signWith_onDemand onDemand known]
            simp only [known, if_false, if_true, List.nil_append]
            exact runAll_settling_ended (by simp) _ _
        | false =>
            rw [run_signWith_immediate frozen onDemand known, replaceSigned, Method.run_update_bind]
            simp only [known, if_false, Bool.false_eq_true, List.nil_append]
            have ran := runAll_settling key signer [] tx.signedTransactions.list moment
              (show (lockIds (noteSigner key tx)).signedTransactions.list =
                [] ++ tx.signedTransactions.list from rfl)
            rcases signed : signEach key signer moment tx.signedTransactions.list with ⟨_ | _, list⟩ <;>
              rw [signed] at ran <;> exact ran

/-! ## Calls that overlap -/

/-- The number of signatures of a key. -/
def pairsFor (key : PublicKey) (signed : SignedTransaction) : Nat :=
  signed.sigPair.countP (shouldRemoveSignature · key.hex)

/-- Every signed transaction has one pair for the key. -/
def SignedOnce (tx : Transaction) (key : PublicKey) : Prop :=
  ∀ signed ∈ tx.signedTransactions.list, pairsFor key signed = 1

/-- No signed transaction has a pair for the key. -/
def Unsigned (tx : Transaction) (key : PublicKey) : Prop :=
  ∀ signed ∈ tx.signedTransactions.list, pairsFor key signed = 0

/-- What every call that has resolved says is so. -/
def Exact (s : Signing) : Prop :=
  ∀ call ∈ s.calls, call.progress = .resolved → SignedOnce s.tx call.key

/-- A call whose key is recorded finds one pair for it in every signed transaction, and
another call finds none. -/
def Timely (s : Signing) : Event → Prop
  | .call key _ => if key.hex ∈ s.tx.signerPublicKeys then SignedOnce s.tx key else Unsigned s.tx key
  | .settle _ _ => True

instance : ∀ progress : Progress, Decidable (progress = .resolved)
  | .resolved => isTrue rfl
  | .waiting _ => isFalse (by simp)
  | .rejected _ => isFalse (by simp)

instance (tx : Transaction) (key : PublicKey) : Decidable (SignedOnce tx key) :=
  inferInstanceAs (Decidable (∀ signed ∈ tx.signedTransactions.list, pairsFor key signed = 1))

instance (tx : Transaction) (key : PublicKey) : Decidable (Unsigned tx key) :=
  inferInstanceAs (Decidable (∀ signed ∈ tx.signedTransactions.list, pairsFor key signed = 0))

instance (s : Signing) : Decidable (Exact s) :=
  inferInstanceAs (Decidable (∀ call ∈ s.calls, call.progress = .resolved → SignedOnce s.tx call.key))

instance (s : Signing) : ∀ event, Decidable (Timely s event)
  | .call key _ => inferInstanceAs (Decidable (if key.hex ∈ s.tx.signerPublicKeys then
      SignedOnce s.tx key else Unsigned s.tx key))
  | .settle _ _ => inferInstanceAs (Decidable True)

theorem pairsFor_addPair (key other : PublicKey) (signature : Bytes) (signed : SignedTransaction) :
    pairsFor key (signed.addPair (other.toProtobufSignature signature)) =
      pairsFor key signed + if other = key then 1 else 0 := by
  have same : shouldRemoveSignature (other.toProtobufSignature signature) key.hex =
      decide (other = key) := by
    simp only [shouldRemoveSignature, PublicKey.toProtobufSignature]
    exact decide_eq_decide.mpr PublicKey.hex_inj
  simp only [pairsFor, SignedTransaction.sigPair_addPair, List.countP_append, List.countP_cons, same,
    List.countP_nil, decide_eq_true_eq, Nat.zero_add]

/-- A call that waits at a position has signed what comes before it. -/
structure SignedUpTo (tx : Transaction) (key : PublicKey) (position : Nat) : Prop where
  recorded : key.hex ∈ tx.signerPublicKeys
  pairs : ∀ (i : Nat) (signed : SignedTransaction), tx.signedTransactions.list[i]? = some signed →
    pairsFor key signed = if i < position then 1 else 0

/-- The signatures that a call has made. -/
def CallSound (tx : Transaction) (call : SignCall) : Prop :=
  match call.progress with
  | .waiting position => position < tx.signedTransactions.list.length ∧
      SignedUpTo tx call.key position
  | .resolved => call.key.hex ∈ tx.signerPublicKeys ∧ SignedOnce tx call.key
  | .rejected _ => call.key.hex ∈ tx.signerPublicKeys ∧
      ∃ signed ∈ tx.signedTransactions.list, pairsFor call.key signed = 0

theorem CallSound.recorded {tx : Transaction} {call : SignCall} (sound : CallSound tx call) :
    call.key.hex ∈ tx.signerPublicKeys := by
  rw [CallSound] at sound
  cases progress : call.progress <;> rw [progress] at sound
  · exact sound.2.recorded
  · exact sound.1
  · exact sound.1

/-- A key is signed with by one call at most that has not resolved, and then it is not
signed everywhere. -/
theorem CallSound.not_signedOnce {tx : Transaction} {call : SignCall} (sound : CallSound tx call)
    (unresolved : call.progress ≠ .resolved) : ¬ SignedOnce tx call.key := by
  intro once
  rw [CallSound] at sound
  cases progress : call.progress <;> rw [progress] at sound
  case resolved => exact unresolved progress
  case waiting position =>
    have found := List.getElem?_eq_getElem sound.1
    have none := sound.2.pairs position _ found
    rw [once _ (List.mem_of_getElem? found), if_neg (lt_irrefl position)] at none
    cases none
  case rejected e =>
    obtain ⟨_, signed, member, none⟩ := sound
    rw [once signed member] at none
    cases none

theorem SignedUpTo.callSound {tx : Transaction} {key : PublicKey} {position : Nat}
    (upTo : SignedUpTo tx key position) (signer : Signer) :
    CallSound tx ⟨key, signer, proceed tx position⟩ := by
  unfold CallSound proceed
  by_cases inside : position < tx.signedTransactions.list.length
  · rw [if_pos inside]
    exact ⟨inside, upTo⟩
  · rw [if_neg inside]
    refine ⟨upTo.recorded, fun signed member => ?_⟩
    obtain ⟨i, found⟩ := List.mem_iff_getElem?.mp member
    have before := (List.getElem?_eq_some_iff.mp found).1
    rw [upTo.pairs i signed found, if_pos (by omega)]

/-- One call for a key, at most, has not resolved. -/
structure Orderly (s : Signing) : Prop where
  frozen : s.tx.isFrozenOrOnDemand = true
  immediate : s.tx.signOnDemand = false
  sound : ∀ call ∈ s.calls, CallSound s.tx call
  alone : ∀ (i j : Nat) (first second : SignCall), s.calls[i]? = some first →
    s.calls[j]? = some second → first.progress ≠ .resolved → second.progress ≠ .resolved →
    first.key = second.key → i = j

theorem Orderly.exact {s : Signing} (orderly : Orderly s) : Exact s := by
  intro call member resolved
  have sound := orderly.sound call member
  rw [CallSound, resolved] at sound
  exact sound.2

/-- Signing with other keys changes nothing for a key. -/
structure SameFor (key : PublicKey) (tx tx' : Transaction) : Prop where
  recorded : key.hex ∈ tx.signerPublicKeys → key.hex ∈ tx'.signerPublicKeys
  pairs : tx'.signedTransactions.list.map (pairsFor key) = tx.signedTransactions.list.map (pairsFor key)

theorem SameFor.callSound {call : SignCall} {tx tx' : Transaction} (same : SameFor call.key tx tx')
    (sound : CallSound tx call) : CallSound tx' call := by
  have lengths : tx'.signedTransactions.list.length = tx.signedTransactions.list.length := by
    simpa using congrArg List.length same.pairs
  have counts : ∀ (i : Nat) (signed : SignedTransaction), tx'.signedTransactions.list[i]? = some signed →
      ∃ old, tx.signedTransactions.list[i]? = some old ∧ pairsFor call.key signed = pairsFor call.key old := by
    intro i signed found
    have here := congrArg (·[i]?) same.pairs
    simp only [List.getElem?_map, found, Option.map_some] at here
    obtain ⟨old, inOld, equal⟩ := Option.map_eq_some_iff.mp here.symm
    exact ⟨old, inOld, equal.symm⟩
  unfold CallSound at sound ⊢
  cases progress : call.progress with
  | waiting position =>
      simp only [progress] at sound ⊢
      refine ⟨lengths ▸ sound.1, same.recorded sound.2.recorded, fun i signed found => ?_⟩
      obtain ⟨old, inOld, equal⟩ := counts i signed found
      rw [equal, sound.2.pairs i old inOld]
  | resolved =>
      simp only [progress] at sound ⊢
      refine ⟨same.recorded sound.1, fun signed member => ?_⟩
      obtain ⟨i, found⟩ := List.mem_iff_getElem?.mp member
      obtain ⟨old, inOld, equal⟩ := counts i signed found
      rw [equal, sound.2 old (List.mem_of_getElem? inOld)]
  | rejected e =>
      simp only [progress] at sound ⊢
      obtain ⟨recorded, old, member, none⟩ := sound
      have there : pairsFor call.key old ∈ tx'.signedTransactions.list.map (pairsFor call.key) := by
        rw [same.pairs]
        exact List.mem_map_of_mem member
      obtain ⟨signed, member', equal⟩ := List.mem_map.mp there
      exact ⟨same.recorded recorded, signed, member', equal.trans none⟩

theorem sameFor_noteSigner (key other : PublicKey) (tx : Transaction) :
    SameFor key tx (lockIds (noteSigner other tx)) :=
  ⟨fun recorded => Finset.mem_insert_of_mem recorded, rfl⟩

theorem sameFor_addPairAt {key other : PublicKey} (differs : other ≠ key) (position : Nat)
    (signature : Bytes) (tx : Transaction) :
    SameFor key tx (addPairAt position (other.toProtobufSignature signature) tx) where
  recorded h := h
  pairs := by
    apply List.ext_getElem?
    intro i
    simp only [addPairAt, withSigned, List.getElem?_map, List.getElem?_modify]
    cases tx.signedTransactions.list[i]? with
    | none => rfl
    | some signed => by_cases here : position = i <;> simp [here, pairsFor_addPair, differs]

/-- A signature at the position brings a call to the next. -/
theorem SignedUpTo.addPairAt {tx : Transaction} {key : PublicKey} {position : Nat}
    (upTo : SignedUpTo tx key position) (signature : Bytes) :
    SignedUpTo (Signing.addPairAt position (key.toProtobufSignature signature) tx) key (position + 1) where
  recorded := upTo.recorded
  pairs i signed found := by
    simp only [Signing.addPairAt, withSigned, List.getElem?_modify] at found
    obtain ⟨old, inOld, rfl⟩ := Option.map_eq_some_iff.mp found
    have count := upTo.pairs i old inOld
    by_cases here : position = i
    · simp [here, pairsFor_addPair, count]
    · simp only [here, if_false, count]
      by_cases before : i < position
      · rw [if_pos before, if_pos (by omega)]
      · rw [if_neg before, if_neg (by omega)]

section Steps

variable {s s' : Signing}

/-- One call begins or goes on, and the others stand where they stood. -/
structure Moves (index : Nat) (new : SignCall) (s s' : Signing) : Prop where
  calls : ∀ (i : Nat) (call : SignCall), s'.calls[i]? = some call →
    i = index ∧ call = new ∨ i ≠ index ∧ s.calls[i]? = some call
  frozen : s'.tx.isFrozenOrOnDemand = s.tx.isFrozenOrOnDemand
  immediate : s'.tx.signOnDemand = s.tx.signOnDemand

theorem Orderly.moves (orderly : Orderly s) {index : Nat} {new : SignCall} (moves : Moves index new s s')
    (sound : CallSound s'.tx new)
    (others : ∀ (i : Nat) (call : SignCall), i ≠ index → s.calls[i]? = some call →
      CallSound s'.tx call)
    (alone : ∀ (i : Nat) (call : SignCall), i ≠ index → s.calls[i]? = some call →
      call.progress ≠ .resolved → new.progress ≠ .resolved → call.key ≠ new.key) : Orderly s' where
  frozen := moves.frozen.trans orderly.frozen
  immediate := moves.immediate.trans orderly.immediate
  sound call member := by
    obtain ⟨i, found⟩ := List.mem_iff_getElem?.mp member
    rcases moves.calls i call found with ⟨_, rfl⟩ | ⟨differs, old⟩
    · exact sound
    · exact others i call differs old
  alone i j first second atI atJ open_ openToo same := by
    rcases moves.calls i first atI with ⟨rfl, rfl⟩ | ⟨differs, old⟩ <;>
      rcases moves.calls j second atJ with ⟨rfl, rfl⟩ | ⟨differs', old'⟩
    · rfl
    · exact absurd same.symm (alone j second differs' old' openToo open_)
    · exact absurd same (alone i first differs old open_ openToo)
    · exact orderly.alone i j first second old old' open_ openToo same

theorem calls_concat {calls : List SignCall} {new : SignCall} (i : Nat) (call : SignCall)
    (found : (calls ++ [new])[i]? = some call) :
    i = calls.length ∧ call = new ∨ i ≠ calls.length ∧ calls[i]? = some call := by
  by_cases last : i = calls.length
  · rw [last, List.getElem?_concat_length] at found
    exact .inl ⟨last, (Option.some.inj found).symm⟩
  · have inside := (List.getElem?_eq_some_iff.mp found).1
    rw [List.length_append, List.length_singleton] at inside
    rw [List.getElem?_append_left (by omega)] at found
    exact .inr ⟨last, found⟩

theorem calls_set {calls : List SignCall} {index : Nat} {old new : SignCall}
    (here : calls[index]? = some old) (i : Nat) (call : SignCall)
    (found : (calls.set index new)[i]? = some call) :
    i = index ∧ call = new ∨ i ≠ index ∧ calls[i]? = some call := by
  by_cases same : i = index
  · subst same
    rw [List.getElem?_set_self (List.getElem?_eq_some_iff.mp here).1] at found
    exact .inl ⟨rfl, (Option.some.inj found).symm⟩
  · rw [List.getElem?_set_ne (Ne.symm same)] at found
    exact .inr ⟨same, found⟩

theorem Orderly.call (orderly : Orderly s) {key : PublicKey} {signer : Signer}
    (timely : Timely s (.call key signer)) : Orderly (step s (.call key signer)) := by
  rw [Timely] at timely
  rw [step, start, run_requireFrozen orderly.frozen]
  by_cases known : key.hex ∈ s.tx.signerPublicKeys
  · rw [if_pos known] at timely
    simp only [known, if_true]
    exact orderly.moves ⟨calls_concat, rfl, rfl⟩ ⟨known, timely⟩
      (fun _ call _ found => orderly.sound call (List.mem_of_getElem? found))
      fun _ _ _ _ _ open_ => absurd rfl open_
  · rw [if_neg known] at timely
    simp only [known, if_false, orderly.immediate, Bool.false_eq_true]
    have noted : SignedUpTo (lockIds (noteSigner key s.tx)) key 0 :=
      ⟨Finset.mem_insert_self _ _, fun i signed found => timely signed (List.mem_of_getElem? found)⟩
    refine orderly.moves ⟨calls_concat, rfl, rfl⟩ (noted.callSound signer)
      (fun _ call _ found => (sameFor_noteSigner call.key key s.tx).callSound
        (orderly.sound call (List.mem_of_getElem? found))) ?_
    intro i call _ found _ _ same
    have sameKey : call.key = key := same
    exact known (sameKey ▸ (orderly.sound call (List.mem_of_getElem? found)).recorded)

theorem Orderly.settle (orderly : Orderly s) (index moment : Nat) :
    Orderly (step s (.settle index moment)) := by
  rw [step]
  cases here : s.calls[index]? with
  | none => exact orderly
  | some call =>
      cases progress : call.progress with
      | resolved => simpa only [progress] using orderly
      | rejected e => simpa only [progress] using orderly
      | waiting position =>
          have open_ : call.progress ≠ .resolved := by simp [progress]
          have sound := orderly.sound call (List.mem_of_getElem? here)
          rw [CallSound, progress] at sound
          obtain ⟨inside, upTo⟩ := sound
          have found := List.getElem?_eq_getElem inside
          have member := List.mem_of_getElem? found
          have none := upTo.pairs position _ found
          rw [if_neg (lt_irrefl position)] at none
          simp only [progress, resume, found]
          cases call.signer moment s.tx.signedTransactions.list[position].bodyBytes with
          | error e =>
              exact orderly.moves ⟨calls_set here, rfl, rfl⟩ ⟨upTo.recorded, _, member, none⟩
                (fun _ other _ there => orderly.sound other (List.mem_of_getElem? there))
                fun i other differs there openOther _ same =>
                  differs (orderly.alone i index other call there here openOther open_ same)
          | ok signature =>
              have length : proceed s.tx (position + 1) = proceed (Signing.addPairAt position
                  (call.key.toProtobufSignature signature) s.tx) (position + 1) := by
                simp [proceed, Signing.addPairAt, withSigned]
              simp only [length]
              refine orderly.moves ⟨calls_set here, ?_, rfl⟩
                ((upTo.addPairAt signature).callSound call.signer) (fun i other differs there => ?_)
                fun i other differs there openOther _ same =>
                  differs (orderly.alone i index other call there here openOther open_ same)
              · simp only [isFrozenOrOnDemand, isFrozen, SdkList.length, Signing.addPairAt, withSigned,
                  List.length_modify]
                rfl
              · have soundOther := orderly.sound other (List.mem_of_getElem? there)
                by_cases same : call.key = other.key
                · have resolved : other.progress = .resolved := by
                    by_contra openOther
                    exact differs (orderly.alone i index other call there here openOther open_ same.symm)
                  rw [CallSound, resolved] at soundOther
                  rw [same, soundOther.2 _ member] at none
                  cases none
                · exact (sameFor_addPairAt same position signature s.tx).callSound soundOther

theorem Orderly.step (orderly : Orderly s) (event : Event) (timely : Timely s event) :
    Orderly (step s event) := by
  cases event with
  | call key signer => exact orderly.call timely
  | settle index moment => exact orderly.settle index moment

end Steps

/-- A call that finds its key recorded resolves at once, so it holds what it says only
if it already did. -/
theorem exact_call_known {s : Signing} (frozen : s.tx.isFrozenOrOnDemand = true) (exact : Exact s)
    {key : PublicKey} {signer : Signer} (known : key.hex ∈ s.tx.signerPublicKeys) :
    Exact (step s (.call key signer)) ↔ SignedOnce s.tx key := by
  have stepped : step s (.call key signer) = ⟨s.tx, s.calls ++ [⟨key, signer, .resolved⟩]⟩ := by
    rw [step, start, run_requireFrozen frozen]
    simp only [known, if_true]
  rw [stepped]
  constructor
  · intro holds
    exact holds _ (List.mem_append_right _ (List.mem_singleton_self _)) rfl
  · intro once call member resolved
    rcases List.mem_append.mp member with before | last
    · exact exact call before resolved
    · rw [List.mem_singleton.mp last]
      exact once

/-- While every call is timely, each call that has resolved left one pair for its key in
every signed transaction. The next call that is not breaks this when its key is recorded,
as it is once a call was rejected. -/
theorem resolved_signs_once {tx : Transaction} (frozen : tx.isFrozen = true)
    (immediate : tx.signOnDemand = false) {events : List Event}
    (timely : Guarded step Timely ⟨tx, []⟩ events) {reached : List Event}
    (initial : reached <+: events) :
    let s := runAll step ⟨tx, []⟩ reached
    Exact s ∧
      (∀ key signer, key.hex ∈ s.tx.signerPublicKeys →
        (Exact (step s (.call key signer)) ↔ Timely s (.call key signer))) ∧
      ∀ call ∈ s.calls, ∀ e, call.progress = .rejected e → ∀ signer,
        ¬ Exact (step s (.call call.key signer)) := by
  intro s
  obtain ⟨rest, rfl⟩ := initial
  have start : Orderly ⟨tx, []⟩ :=
    ⟨by simp [isFrozenOrOnDemand, frozen], immediate, by simp, by simp⟩
  have orderly : Orderly s :=
    runAll_invariant (fun s event orderly => orderly.step event) start timely.initial
  refine ⟨orderly.exact, fun key signer known => ?_, fun call member e rejected signer => ?_⟩
  · rw [exact_call_known orderly.frozen orderly.exact known, Timely, if_pos known]
  · have sound := orderly.sound call member
    rw [exact_call_known orderly.frozen orderly.exact sound.recorded]
    exact sound.not_signedOnce (by simp [rejected])

section Samples

def sampleSigner : Signer := fun _ message => .ok (message.take 64)

/-- The signer asks a wallet that is closed. -/
def failingSigner : Signer := fun _ _ => .error (.error "the wallet is closed")

theorem second_call_follows_the_first : Exact (runAll step ⟨frozenTransfer [3, 4], []⟩
    [.call sampleKey sampleSigner, .settle 0 0, .settle 0 1, .call sampleKey sampleSigner]) :=
  (resolved_signs_once (by decide +kernel) (by decide +kernel) (by decide +kernel)
    (List.prefix_refl _)).1

/-- A call returns while another one for its key waits for its signer, and after the
signer of another one has failed. -/
theorem call_resolves_without_signatures :
    (frozenTransfer [3, 4]).isFrozen = true ∧ (frozenTransfer [3, 4]).signOnDemand = false ∧
      ¬ Exact (runAll step ⟨frozenTransfer [3, 4], []⟩
        [.call sampleKey sampleSigner, .call sampleKey sampleSigner]) ∧
      ¬ Exact (runAll step ⟨frozenTransfer [3, 4], []⟩
        [.call sampleKey failingSigner, .settle 0 0, .call sampleKey sampleSigner]) := by
  refine ⟨?_, ?_, ?_, ?_⟩ <;> decide +kernel

end Samples

end Signing

end HederaSdk.Transaction
